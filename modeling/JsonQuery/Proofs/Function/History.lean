import JsonQuery.Proofs.Function.Standard
import JsonQuery.Proofs.Query.Calls
import JsonQuery.Proofs.Text.Utf8

namespace JsonQuery
open Token (functionNames kinds tokenize)

namespace Registry

/-- A function to be added, by its parts or as a whole. -/
inductive Addition where
  | register (name : String) (params : List ExprType) (returns : ExprType)
    (apply : List TypedValue → TypedValue)
  | insert (f : Extension)

namespace Addition

/-- The name under which the function is stored. -/
def name : Addition → String
  | .register name _ _ _ => name
  | .insert f => f.name

def function : Addition → Extension
  | .register name params returns apply => ⟨name, params, returns, apply⟩
  | .insert f => f

theorem function_name (a : Addition) : a.function.name = a.name := by
  cases a <;> rfl

end Addition

/-- What an addition returns, and the registry behind it. -/
def add (r : Registry) : Addition → Option Extension × Registry
  | .register name params returns apply => r.register name params returns apply
  | .insert f => r.insert f

def run (start : Registry) (steps : List Addition) : Registry :=
  steps.foldl (fun r a => (r.add a).2) start

/-- The function that has been stored last under a name, or else the one there at the start. -/
def latest (start : Registry) (steps : List Addition) (name : String) : Option Extension :=
  ((steps.reverse.find? (fun a => a.name == name)).map Addition.function).or (start.lookup name)

/-- What a registry tells is told of one map from names to functions. -/
structure Shows (r : Registry) (stored : String → Option Extension) : Prop where
  lookup : ∀ name, r.lookup name = stored name
  named : ∀ name f, stored name = some f → f.name = name
  contains : ∀ name, r.contains name = (stored name).isSome
  ordered : (r.names.map Utf8.encoding).Pairwise (· < ·)
  listed : ∀ name, name ∈ r.names ↔ (stored name).isSome = true

/-- An addition returns what has been found under its name, puts its function in place of that,
and leaves all other names alone. -/
structure Replaces (r : Registry) (a : Addition) : Prop where
  returned : (r.add a).1 = r.lookup a.name
  stored : (r.add a).2.lookup a.name = some a.function
  kept : ∀ name, name ≠ a.name → (r.add a).2.lookup name = r.lookup name

theorem add_eq (r : Registry) (a : Addition) : r.add a = r.insert a.function := by
  cases a <;> rfl

theorem lookup_add (r : Registry) (a : Addition) (name : String) :
    (r.add a).2.lookup name = if a.name = name then some a.function else r.lookup name := by
  rw [add_eq, lookup_insert, a.function_name]

theorem replaces (r : Registry) (a : Addition) : r.Replaces a where
  returned := by
    rw [add_eq, insert, a.function_name]
  stored := by
    rw [lookup_add, if_pos rfl]
  kept name h := by
    rw [lookup_add, if_neg (Ne.symm h)]

theorem run_concat (start : Registry) (steps : List Addition) (a : Addition) :
    start.run (steps ++ [a]) = ((start.run steps).add a).2 := by
  rw [run, List.foldl_append]
  rfl

theorem latest_concat (start : Registry) (steps : List Addition) (a : Addition) (name : String) :
    start.latest (steps ++ [a]) name =
      if a.name = name then some a.function else start.latest steps name := by
  rw [latest, List.reverse_append, List.reverse_singleton, List.singleton_append]
  by_cases h : a.name = name
  · rw [List.find?_cons_of_pos (by simpa using h), if_pos h]
    rfl
  · rw [List.find?_cons_of_neg (by simpa using h), if_neg h]
    rfl

/-- The induction is on the history, the last step of which decides about its own name alone. -/
theorem lookup_run (start : Registry) (steps : List Addition) (name : String) :
    (start.run steps).lookup name = start.latest steps name := by
  induction steps using List.reverseRecOn with
  | nil => rfl
  | append_singleton steps a ih => rw [run_concat, lookup_add, latest_concat, ih]

theorem mem_names_iff {r : Registry} {name : String} :
    name ∈ r.names ↔ (r.lookup name).isSome = true := by
  simp [names, lookup]

theorem mem_names_insertSorted {f : Extension} {fs : List Extension} {name : String} :
    name ∈ (insertSorted f fs).map Extension.name ↔
      name = f.name ∨ name ∈ fs.map Extension.name := by
  change name ∈ ((Registry.mk fs).insert f).2.names ↔ _ ∨ name ∈ (Registry.mk fs).names
  rw [mem_names_iff, mem_names_iff, lookup_insert]
  by_cases h : f.name = name
  · simp [h]
  · simp [h, Ne.symm h]

/-- The names stand in order, so that none is there twice. -/
def Ordered (r : Registry) : Prop := r.names.Pairwise (· < ·)

theorem ordered_insertSorted {f : Extension} {fs : List Extension}
    (h : (fs.map Extension.name).Pairwise (· < ·)) :
    ((insertSorted f fs).map Extension.name).Pairwise (· < ·) := by
  induction fs with
  | nil => exact List.pairwise_singleton _ _
  | cons g gs ih =>
    obtain ⟨hfirst, hothers⟩ := List.pairwise_cons.mp h
    rw [insertSorted]
    split
    · rename_i hlt
      refine List.pairwise_cons.mpr ⟨fun name hname => ?_, h⟩
      rcases List.mem_cons.mp hname with rfl | hname
      · exact hlt
      · exact hlt.trans (hfirst name hname)
    · rename_i hge
      split
      · rename_i heq
        rw [List.map_cons, heq]
        exact h
      · rename_i hne
        refine List.pairwise_cons.mpr ⟨fun name hname => ?_, ih hothers⟩
        rcases mem_names_insertSorted.mp hname with rfl | hname
        · exact (lt_or_gt_of_ne hne).resolve_left hge
        · exact hfirst name hname

theorem Ordered.add {r : Registry} (h : r.Ordered) (a : Addition) : (r.add a).2.Ordered := by
  rw [add_eq]
  exact ordered_insertSorted h

theorem Ordered.run {start : Registry} (h : start.Ordered) (steps : List Addition) :
    (start.run steps).Ordered := by
  induction steps using List.reverseRecOn with
  | nil => exact h
  | append_singleton steps a ih =>
    rw [run_concat]
    exact ih.add a

theorem ordered_empty : empty.Ordered := List.Pairwise.nil

/-- The standard functions are registered one after another. -/
theorem standard_eq_run : standard = empty.run
    ([.length, .count, .fullMatch, .search, .value].map Addition.insert) := rfl

theorem ordered_standard : standard.Ordered := by
  rw [standard_eq_run]
  exact ordered_empty.run _

theorem Ordered.shows {r : Registry} (h : r.Ordered) : r.Shows r.lookup where
  lookup _ := rfl
  named _ _ hf := Grammar.lookup_name hf
  contains _ := rfl
  ordered := List.pairwise_map.mpr (h.imp Utf8.encoding_lt_iff.mpr)
  listed _ := mem_names_iff

/-- After any additions a registry shows, under each name, the function stored there last. An
addition returns what it replaces. What is compiled with the registry calls the functions that were
found under the names in the text, one for one, and is written with the same names. -/
theorem run_shows {start : Registry} (h : start = .empty ∨ start = .standard)
    (steps : List Addition) :
    (start.run steps).Shows (start.latest steps) ∧
    (∀ a, (start.run steps).Replaces a) ∧
    ∀ (env : Environment) (text : String) (q : Query), env.registry = start.run steps →
      env.compile text = .ok q → ∃ s s', tokenize text = .ok s ∧ tokenize q.text = .ok s' ∧
        (functionNames (kinds s.tokens)).map (start.latest steps) = q.calls.map some ∧
          functionNames (kinds s'.tokens) = functionNames (kinds s.tokens) := by
  have hordered : start.Ordered := by
    rcases h with rfl | rfl
    · exact ordered_empty
    · exact ordered_standard
  have hlookup : (start.run steps).lookup = start.latest steps :=
    funext (lookup_run start steps)
  refine ⟨hlookup ▸ (hordered.run steps).shows, replaces _, ?_⟩
  intro env text q hregistry hcompile
  rw [← hlookup, ← hregistry]
  exact Environment.calls_of_compile hcompile

/-- A test in place of `length` is found from then on, and called by what is compiled. -/
theorem run_shows_replaced :
    let length : Extension := ⟨"length", [.nodes], .logical, fun _ => .logical true⟩
    let a : Addition := .register "length" length.params length.returns length.apply
    let env : Environment := { registry := standard.run [a] }
    let q : Query := ⟨[.child [.filter (.call length [.query .current []])]]⟩
    (standard.add a).1 = some .length ∧ (standard.run [a]).lookup "length" = some length ∧
      (standard.run [a]).names = ["count", "length", "match", "search", "value"] ∧
      env.compile "$[?length(@)]" = .ok q ∧
      ∃ s s', tokenize "$[?length(@)]" = .ok s ∧ tokenize q.text = .ok s' ∧
        (functionNames (kinds s.tokens)).map (standard.latest [a]) = [some length] ∧
          functionNames (kinds s'.tokens) = functionNames (kinds s.tokens) := by
  intro length a env q
  obtain ⟨hshows, -, hcalls⟩ := run_shows (.inr rfl) [a]
  obtain ⟨-, hreplaces, -⟩ := run_shows (.inr rfl) []
  have hlookup : (standard.run [a]).lookup "length" = some length := hshows.lookup "length"
  have hcompile : env.compile "$[?length(@)]" = .ok q := by
    have htokens : tokenize "$[?length(@)]" = .ok ⟨[⟨.root, 0⟩, ⟨.openBracket, 1⟩, ⟨.question, 2⟩,
        ⟨.function "length", 3⟩, ⟨.openParen, 9⟩, ⟨.current, 10⟩, ⟨.closeParen, 11⟩,
        ⟨.closeBracket, 12⟩], 13⟩ := by cbv
    have hargs : Expr.SpellsAll [.query .current []] [.current] :=
      ⟨[.current], [], rfl, ⟨[], rfl, rfl⟩, rfl⟩
    refine Environment.compile_iff.mpr ⟨by unfold Trimmed; cbv, ⟨_, htokens, ?_⟩, ?_, by decide⟩
    · exact ⟨_, rfl, _, [], rfl, .inr ⟨_, rfl, _, [], rfl, ⟨_, rfl, [.current], rfl, hargs⟩, rfl⟩,
        rfl⟩
    · have hcall : (Expr.call length [.query .current []]).HasType env.registry .logical :=
        ⟨hlookup, .inl rfl, ⟨.inl rfl, trivial⟩, rfl⟩
      exact ⟨⟨by simp, hcall, trivial⟩, trivial⟩
  refine ⟨(hreplaces a).returned, hlookup, by decide, hcompile, ?_⟩
  exact hcalls env _ q rfl hcompile

end Registry
end JsonQuery
