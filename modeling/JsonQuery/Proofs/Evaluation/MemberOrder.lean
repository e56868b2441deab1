import JsonQuery.Proofs.Evaluation.Simulation

namespace JsonQuery
namespace Node

/-- Nodes at one place of two documents that differ in the order of members alone. -/
def Reordered (n m : Node) : Prop :=
  n.location = m.location ∧ n.value.UniqueNames ∧ n.value.Reordered m.value

/-- Each node of a list has its counterpart in the other one, wherever it stands there. -/
def Rearranged (ns ms : List Node) : Prop := ∃ ks, List.Forall₂ Reordered ns ks ∧ ks.Perm ms

theorem Reordered.children {n m : Node} (h : n.Reordered m) :
    Rearranged n.children m.children := by
  obtain ⟨hlocation, hunique, hvalue⟩ := h
  obtain ⟨cs, hcs, hperm⟩ := hvalue.children
  have hbelow : ∀ p ∈ n.value.children, p.2.UniqueNames := fun p hp =>
    Json.uniqueNames_child hunique ((Json.mem_children_iff hunique).mp hp)
  refine ⟨_, ?_, hperm.map _⟩
  unfold Node.children
  rw [List.forall₂_map_left_iff, List.forall₂_map_right_iff]
  refine ((List.forall₂_and_left _ _).mpr ⟨hbelow, hcs⟩).imp ?_
  rintro ⟨step, v⟩ ⟨_, w⟩ ⟨hunique, rfl, hvw⟩
  exact ⟨by rw [hlocation], hunique, hvw⟩

theorem Reordered.child? {n m : Node} (h : n.Reordered m) (step : Step) :
    Option.Rel Reordered (n.child? step) (m.child? step) := by
  obtain ⟨hlocation, hunique, hvalue⟩ := h
  have hchild := hvalue.child? hunique step
  unfold Node.child?
  rcases hv : n.value.child? step with _ | v <;> rcases hw : m.value.child? step with _ | w <;>
    rw [hv, hw] at hchild <;> cases hchild
  · exact .none
  · rename_i hvw
    exact .some ⟨by rw [hlocation], Json.uniqueNames_child hunique hv, hvw⟩

theorem Rearranged.append {ns ns' ms ms' : List Node} (h : Rearranged ns ms)
    (h' : Rearranged ns' ms') : Rearranged (ns ++ ns') (ms ++ ms') := by
  obtain ⟨ks, hks, hperm⟩ := h
  obtain ⟨ks', hks', hperm'⟩ := h'
  exact ⟨ks ++ ks', List.rel_append hks hks', hperm.append hperm'⟩

theorem rearranged_singleton {n m : Node} : Rearranged [n] [m] ↔ n.Reordered m := by
  constructor
  · intro hleft
    obtain ⟨ks, hks, hperm⟩ := hleft
    rw [List.perm_singleton.mp hperm] at hks
    exact (List.forall₂_cons.mp hks).1
  · exact fun h => ⟨[m], .cons h .nil, .refl _⟩

theorem Rearranged.length_eq {ns ms : List Node} (h : Rearranged ns ms) :
    ns.length = ms.length := by
  obtain ⟨ks, hks, hperm⟩ := h
  exact hks.length_eq.trans hperm.length_eq

theorem rearranged_flatMap {ns ms : List Node} {f g : Node → List Node}
    (h : List.Forall₂ Reordered ns ms)
    (hfg : ∀ n ∈ ns, ∀ m, n.Reordered m → Rearranged (f n) (g m)) :
    Rearranged (ns.flatMap f) (ms.flatMap g) := by
  induction h with
  | nil => exact ⟨[], .nil, .nil⟩
  | @cons n m ns ms hnm _ ih =>
    simp only [List.flatMap_cons]
    apply (hfg n (by simp) m hnm).append
    exact ih (fun n hn => hfg n (List.mem_cons_of_mem _ hn))

theorem Rearranged.flatMap {ns ms : List Node} {f g : Node → List Node} (h : Rearranged ns ms)
    (hfg : ∀ n ∈ ns, ∀ m, n.Reordered m → Rearranged (f n) (g m)) :
    Rearranged (ns.flatMap f) (ms.flatMap g) := by
  obtain ⟨ks, hks, hperm⟩ := h
  obtain ⟨js, hjs, hperm'⟩ := rearranged_flatMap hks hfg
  exact ⟨js, hjs, hperm'.trans (hperm.flatMap_right g)⟩

theorem Rearranged.locations {ns ms : List Node} (h : Rearranged ns ms) :
    (ns.map Node.location).Perm (ms.map Node.location) := by
  obtain ⟨ks, hks, hperm⟩ := h
  have hsame : ns.map Node.location = ks.map Node.location := by
    rw [← List.forall₂_eq_eq_eq, List.forall₂_map_left_iff, List.forall₂_map_right_iff]
    exact hks.imp (fun _ _ hnm => hnm.1)
  rw [hsame]
  exact hperm.map Node.location

end Node

namespace Simulation

/-- Evaluation on two documents that differ in the order of members alone. -/
def reordering : Simulation where
  value v w := v.UniqueNames ∧ v.Reordered w
  node := Node.Reordered
  nodes := Node.Rearranged
  primitive {v} h := by
    cases v with
    | array items => exact h.elim
    | object members => exact h.elim
    | null | bool _ | number _ | string _ => exact ⟨trivial, rfl⟩
  alike h := h.2.alike
  equalValue := Json.interchange_reordered.equalBy_eq Number.respectsIdentical_equalValue
  value_of_node h := h.2
  children h := h.children
  child? h := h.child?
  nil := ⟨[], .nil, .nil⟩
  singleton := Node.rearranged_singleton
  append h h' := h.append h'
  flatMap h := h.flatMap
  length h := h.length_eq

end Simulation

namespace Query

/-- In what order the members of objects stand, at any depth, changes the order of the results of a
query with the standard functions, and nothing else. -/
theorem evaluate_reordered {env : Environment} (henv : env.registry = .standard) {text : String}
    {q : Query} (h : env.compile text = .ok q) {document document' : Json}
    (hd : document.UniqueNames) (hr : document.Reordered document') :
    ((q.evaluate document).map Node.location).Perm ((q.evaluate document').map Node.location) := by
  have hroot : Node.Reordered (.root document) (.root document') := ⟨rfl, hd, hr⟩
  have hnodes : Node.Rearranged (q.evaluate document) (q.evaluate document') :=
    Simulation.applyAll (S := .reordering) henv h (.inl hroot)
      (Node.rearranged_singleton.mpr hroot)
  exact hnodes.locations

/-- Two results change places, and in one of them two members do. -/
theorem evaluate_reordered_sample :
    let document := Json.object [("a", .object [("x", .object [("b", .number (.int 1))]),
      ("y", .object [("b", .number (.int 2)), ("c", .null)])])]
    let document' := Json.object [("a", .object [("y", .object [("c", .null),
      ("b", .number (.int 2))]), ("x", .object [("b", .number (.int 1))])])]
    document.UniqueNames ∧ document.Reordered document' ∧
      ((Environment.sample.evaluate document).map Node.location).Perm
        ((Environment.sample.evaluate document').map Node.location) := by
  intro document document'
  have hd : document.UniqueNames := by
    simp [document, Json.UniqueNames, Json.UniqueMembers]
  have hx : (Json.object [("b", .number (.int 1))]).Reordered
      (.object [("b", .number (.int 1))]) :=
    ⟨_, _, rfl, ⟨_, [], rfl, rfl, rfl⟩, .refl _⟩
  have hy : (Json.object [("b", .number (.int 2)), ("c", .null)]).Reordered
      (.object [("c", .null), ("b", .number (.int 2))]) :=
    ⟨_, _, rfl, ⟨_, _, rfl, rfl, _, [], rfl, rfl, rfl⟩, .swap ..⟩
  have hr : document.Reordered document' :=
    ⟨_, _, rfl, ⟨_, [], rfl, ⟨_, _, rfl, ⟨_, _, rfl, hx, _, [], rfl, hy, rfl⟩, .swap ..⟩, rfl⟩,
      .refl _⟩
  exact ⟨hd, hr, evaluate_reordered rfl Environment.sample_compiles hd hr⟩

end Query
end JsonQuery
