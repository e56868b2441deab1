import JsonQuery.Proofs.Evaluation.NormalizedPath
import JsonQuery.Proofs.Evaluation.Simulation

namespace JsonQuery

namespace Node

/-- The same node, as part of a document in which the value around it stands at a place. -/
def below (l : Location) (n : Node) : Node := ⟨n.value, l ++ n.location⟩

theorem below_children (l : Location) (n : Node) :
    (n.below l).children = n.children.map (below l) := by
  simp [children, below]

theorem below_child? (l : Location) (n : Node) (step : Step) :
    (n.below l).child? step = (n.child? step).map (below l) := by
  cases h : n.value.child? step <;> simp [child?, below, h]

end Node

namespace Simulation

/-- Evaluation on a value, and on a document where that value stands at a place. -/
def below (l : Location) : Simulation where
  value v w := v = w
  node n m := m = n.below l
  nodes ns ms := ms = ns.map (Node.below l)
  primitive _ := rfl
  alike := by
    rintro v _ rfl
    exact .refl v
  equalValue := by
    rintro v _ w _ rfl rfl
    rfl
  value_of_node := by
    rintro n _ rfl
    rfl
  children := by
    rintro n _ rfl
    exact n.below_children l
  child? := by
    rintro n _ rfl step
    rw [n.below_child? l step]
    cases n.child? step with
    | none => exact .none
    | some c => exact .some rfl
  nil := List.map_nil.symm
  singleton := by simp
  append := by
    rintro ns ns' _ _ rfl rfl
    exact List.map_append.symm
  flatMap := by
    rintro ns _ f g rfl hfg
    rw [List.flatMap_map, List.map_flatMap]
    exact List.flatMap_congr (fun n hn => hfg n hn _ rfl)
  length := by
    rintro ns _ rfl
    exact (List.length_map _).symm

end Simulation

theorem applyAll_append (document : Json) (ns : List Node) (ss ts : List Segment) :
    Segment.applyAll document ns (ss ++ ts) =
      Segment.applyAll document (Segment.applyAll document ns ss) ts := by
  induction ss generalizing ns with
  | nil => simp [Segment.applyAll]
  | cons s ss ih => simp only [List.cons_append, Segment.applyAll, ih]

namespace Query

/-- What a query with the standard functions selects below a place is what it selects in the value
there, if no filter looks at the document from its root. -/
theorem evaluate_below {env : Environment} (henv : env.registry = .standard) {text : String}
    {q : Query} (h : env.compile text = .ok q) (hq : q.RootFree) {document v : Json} {l : Location}
    (hv : document.at? l = some v) :
    (Query.mk ((ofLocation l).segments ++ q.segments)).evaluate document =
      (q.evaluate v).map (Node.below l) := by
  have hplace : (ofLocation l).evaluate document = [(Node.root v).below l] := by
    rw [ofLocation_evaluate]
    simp [Node.follow, Node.root, Node.below, hv]
  calc (Query.mk ((ofLocation l).segments ++ q.segments)).evaluate document
    _ = Segment.applyAll document ((ofLocation l).evaluate document) q.segments :=
      applyAll_append document _ _ _
    _ = Segment.applyAll document [(Node.root v).below l] q.segments := by rw [hplace]
    _ = (q.evaluate v).map (Node.below l) :=
      Simulation.applyAll (S := .below l) henv h (.inr hq) rfl

/-- The sample in an array, where other members of the document stand around its results. -/
theorem evaluate_below_sample :
    let value := Json.object [("a", .array [.object [("b", .number (.int 1))], .null])]
    let document := Json.object [("s", .array [.null, value]), ("a", .array [.null])]
    Environment.sample.RootFree ∧ document.at? [.name "s", .index 1] = some value ∧
      (Query.mk ((ofLocation [.name "s", .index 1]).segments ++
        Environment.sample.segments)).evaluate document =
      (Environment.sample.evaluate value).map (Node.below [.name "s", .index 1]) := by
  intro value document
  have hfree : Environment.sample.RootFree := by
    simp [RootFree, Environment.sample, Segment.AllRootFree, Segment.RootFree,
      Selector.AllRootFree, Selector.RootFree, Expr.RootFree]
  exact ⟨hfree, rfl, evaluate_below rfl Environment.sample_compiles hfree rfl⟩

end Query
end JsonQuery
