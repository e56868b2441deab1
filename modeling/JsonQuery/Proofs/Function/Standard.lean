import JsonQuery.Function.Standard

namespace JsonQuery
namespace Registry

theorem mem_of_lookup {r : Registry} {name : String} {f : Extension}
    (h : r.lookup name = some f) : f ∈ r.functions := List.mem_of_find?_eq_some h

theorem lookup_cons (f : Extension) (fs : List Extension) (name : String) :
    lookup ⟨f :: fs⟩ name = if f.name = name then some f else lookup ⟨fs⟩ name := by
  unfold lookup
  by_cases h : f.name = name
  · rw [if_pos h, List.find?_cons_of_pos (by simpa using h)]
  · rw [if_neg h, List.find?_cons_of_neg (by simpa using h)]

/-- Whether or not the registry is sorted. -/
theorem lookup_insert (r : Registry) (f : Extension) (name : String) :
    (r.insert f).2.lookup name = if f.name = name then some f else r.lookup name := by
  obtain ⟨fs⟩ := r
  unfold insert
  induction fs with
  | nil => exact lookup_cons f [] name
  | cons g gs ih =>
    unfold insertSorted
    split
    · exact lookup_cons f (g :: gs) name
    · split
      · rename_i heq
        rw [lookup_cons, lookup_cons, heq]
        split
        · rfl
        · rfl
      · rename_i hne
        rw [lookup_cons, ih, lookup_cons]
        split
        · rename_i hg
          rw [if_neg (fun hf => hne (hf.trans hg.symm))]
        · rfl

/-- Not an equivalence: a function of the same name is replaced. -/
theorem mem_of_mem_insertSorted {f g : Extension} {fs : List Extension}
    (h : g ∈ insertSorted f fs) : g = f ∨ g ∈ fs := by
  induction fs with
  | nil => exact .inl (List.mem_singleton.mp h)
  | cons first fs ih =>
    unfold insertSorted at h
    split at h
    · exact List.mem_cons.mp h
    · split at h
      · exact (List.mem_cons.mp h).imp_right (List.mem_cons_of_mem first)
      · rcases List.mem_cons.mp h with rfl | h
        · exact .inr (List.mem_cons_self ..)
        · exact (ih h).imp_right (List.mem_cons_of_mem first)

theorem mem_of_mem_foldl {f : Extension} {fs : List Extension} {r : Registry}
    (h : f ∈ (fs.foldl (fun r f => (r.insert f).2) r).functions) : f ∈ fs ∨ f ∈ r.functions := by
  induction fs generalizing r with
  | nil => exact .inr h
  | cons g gs ih =>
    rcases ih h with h | h
    · exact .inl (List.mem_cons_of_mem g h)
    · rcases mem_of_mem_insertSorted h with rfl | h
      · exact .inl (List.mem_cons_self ..)
      · exact .inr h

theorem mem_of_mem_ofList {f : Extension} {fs : List Extension}
    (h : f ∈ (ofList fs).functions) : f ∈ fs :=
  (mem_of_mem_foldl h).resolve_right List.not_mem_nil

theorem mem_standard {f : Extension} (h : f ∈ standard.functions) :
    f = .length ∨ f = .count ∨ f = .fullMatch ∨ f = .search ∨ f = .value := by
  simpa using mem_of_mem_ofList h

end Registry

namespace Extension

/-- Given values of the types that it declares, the function returns what it declares. -/
def ReturnsDeclared (f : Extension) : Prop :=
  ∀ vs : List TypedValue, vs.map TypedValue.type = f.params → (f.apply vs).type = f.returns

theorem returnsDeclared_length : length.ReturnsDeclared := by
  intro vs _
  simp only [length]
  split <;> rfl

theorem returnsDeclared_count : count.ReturnsDeclared := by
  intro vs _
  simp only [count]
  split <;> rfl

theorem returnsDeclared_regexpTest (name : String) (test : String → String → Bool) :
    (regexpTest name test).ReturnsDeclared := by
  intro vs _
  simp only [regexpTest]
  split <;> rfl

theorem returnsDeclared_value : value.ReturnsDeclared := fun _ _ => rfl

end Extension

namespace Registry

def ReturnsDeclared (r : Registry) : Prop :=
  ∀ name f, r.lookup name = some f → f.ReturnsDeclared

theorem returnsDeclared_standard : standard.ReturnsDeclared := by
  intro name f hf
  rcases mem_standard (mem_of_lookup hf) with rfl | rfl | rfl | rfl | rfl
  · exact Extension.returnsDeclared_length
  · exact Extension.returnsDeclared_count
  · exact Extension.returnsDeclared_regexpTest _ _
  · exact Extension.returnsDeclared_regexpTest _ _
  · exact Extension.returnsDeclared_value

end Registry
end JsonQuery
