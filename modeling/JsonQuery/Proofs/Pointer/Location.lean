import JsonQuery.Proofs.Evaluation.NormalizedPath
import JsonQuery.Proofs.Pointer.Text

namespace JsonQuery

/-- The part of a pointer that a step becomes. -/
def Step.part : Step → String
  | .name s => s
  | .index i => String.ofList (Nat.toDigits 10 i)

namespace Pointer

theorem ofLocation_eq (l : Location) : ofLocation l = ⟨l.map Step.part⟩ :=
  congrArg mk (List.map_congr_left (fun step _ => by cases step <;> rfl))

/-- Each index has one spelling, its decimal digits. -/
theorem index?_eq_some {part : String} {i : Nat} :
    index? part = some i ↔ part = String.ofList (Nat.toDigits 10 i) ∧ i < 2 ^ 64 := by
  unfold index?
  constructor
  · intro h
    obtain ⟨hvalid, hi⟩ := Option.ite_none_right_eq_some.mp h
    simp only [Bool.and_eq_true, Bool.or_eq_true, List.all_eq_true, beq_iff_eq,
      decide_eq_true_eq] at hvalid
    obtain ⟨⟨hdigits, hzero⟩, hbound⟩ := hvalid
    have hne : part.toList ≠ [] := by
      intro hnil
      simp [hnil] at hzero
    have hlead : part.toList.head? = some '0' → part.toList = ['0'] := by
      intro hhead
      simpa [hhead] using hzero
    obtain rfl := Option.some.inj hi
    rw [Numeral.toDigits_natOfDigits ⟨hne, hdigits⟩ hlead, String.ofList_toList]
    exact ⟨rfl, hbound⟩
  · rintro ⟨rfl, hbound⟩
    have hdigits : (Nat.toDigits 10 i).all Char.isDigit = true :=
      List.all_eq_true.mpr (Numeral.areDigits_toDigits i).2
    have hzero : (Nat.toDigits 10 i == ['0'] ||
        (Nat.toDigits 10 i).head?.any (fun c => c != '0')) = true := by
      by_cases hi : i = 0
      · simp [hi]
      · have hhead := Numeral.head?_toDigits hi
        cases hds : Nat.toDigits 10 i with
        | nil => exact absurd hds Nat.toDigits_ne_nil
        | cons d ds => simpa [hds] using Or.inr hhead
    simp [hdigits, hzero, hbound]

/-- A part names the child behind the step that it stands for. -/
theorem child?_eq_some {v c : Json} (hv : v.ArraysWithin (2 ^ 64)) {part : String} :
    child? v part = some c ↔ ∃ step, v.child? step = some c ∧ step.part = part := by
  constructor
  · intro h
    cases v with
    | array items =>
      obtain ⟨i, hi, hc⟩ := Option.bind_eq_some_iff.mp h
      exact ⟨.index i, hc, (index?_eq_some.mp hi).1.symm⟩
    | object members => exact ⟨.name part, h, rfl⟩
    | null | bool _ | number _ | string _ => cases h
  · rintro ⟨step, hc, rfl⟩
    have hindex := (Json.arraysWithin_child hv hc).2
    cases v with
    | array items =>
      cases step with
      | name name => cases hc
      | index i =>
        have hi : index? (Step.index i).part = some i := index?_eq_some.mpr ⟨rfl, hindex i rfl⟩
        rw [child?, hi]
        exact hc
    | object members =>
      cases step with
      | name name => exact hc
      | index i => cases hc
    | null | bool _ | number _ | string _ => cases hc

/-- The steps out of one value become different parts: all are names, or all are indices. -/
theorem part_injective {v c c' : Json} {step step' : Step} (hc : v.child? step = some c)
    (hc' : v.child? step' = some c') (h : step.part = step'.part) : step = step' := by
  cases v with
  | array items =>
    cases step with
    | name name => cases hc
    | index i =>
      cases step' with
      | name name => cases hc'
      | index j =>
        have hdigits : Nat.toDigits 10 i = Nat.toDigits 10 j := String.ofList_injective h
        have hvalues := congrArg Numeral.natOfDigits hdigits
        rw [Numeral.natOfDigits_toDigits, Numeral.natOfDigits_toDigits] at hvalues
        rw [hvalues]
  | object members =>
    cases step with
    | index i => cases hc
    | name name =>
      cases step' with
      | index j => cases hc'
      | name name' => exact congrArg Step.name h
  | null | bool _ | number _ | string _ => cases hc

/-- A pointer leads to the values at the locations that it comes from. -/
theorem resolve?_eq_some {v w : Json} (hv : v.ArraysWithin (2 ^ 64)) {p : Pointer} :
    p.resolve? v = some w ↔ ∃ l, v.at? l = some w ∧ ofLocation l = p := by
  obtain ⟨parts⟩ := p
  simp only [resolve?, ofLocation_eq, mk.injEq]
  induction parts generalizing v with
  | nil =>
    constructor
    · intro h
      exact ⟨[], h, rfl⟩
    · rintro ⟨l, hw, hl⟩
      rw [List.map_eq_nil_iff.mp hl] at hw
      exact hw
  | cons part parts ih =>
    rw [descend?, Option.bind_eq_some_iff]
    constructor
    · rintro ⟨c, hc, hw⟩
      obtain ⟨step, hstep, hpart⟩ := (child?_eq_some hv).mp hc
      obtain ⟨l, hl, hparts⟩ := (ih (Json.arraysWithin_child hv hstep).1).mp hw
      refine ⟨step :: l, ?_, by rw [List.map_cons, hpart, hparts]⟩
      rw [Json.at?, hstep]
      exact hl
    · rintro ⟨l, hw, hl⟩
      obtain ⟨step, l, rfl, hpart, hparts⟩ := List.map_eq_cons_iff.mp hl
      obtain ⟨c, hstep, hw⟩ := Option.bind_eq_some_iff.mp hw
      exact ⟨c, (child?_eq_some hv).mpr ⟨step, hstep, hpart⟩,
        (ih (Json.arraysWithin_child hv hstep).1).mpr ⟨l, hw, hparts⟩⟩

/-- No two places of a document have the same pointer. -/
theorem ofLocation_injective {v : Json} {l l' : Location} (hl : (v.at? l).isSome = true)
    (hl' : (v.at? l').isSome = true) (h : ofLocation l = ofLocation l') : l = l' := by
  rw [ofLocation_eq, ofLocation_eq, mk.injEq] at h
  induction l generalizing v l' with
  | nil => exact (List.map_eq_nil_iff.mp h.symm).symm
  | cons step l ih =>
    obtain ⟨step', l', rfl, hpart, hparts⟩ := List.map_eq_cons_iff.mp h.symm
    obtain ⟨w, hw⟩ := Option.isSome_iff_exists.mp hl
    obtain ⟨w', hw'⟩ := Option.isSome_iff_exists.mp hl'
    obtain ⟨c, hc, hw⟩ := Option.bind_eq_some_iff.mp hw
    obtain ⟨c', hc', hw'⟩ := Option.bind_eq_some_iff.mp hw'
    obtain rfl := part_injective hc hc' hpart.symm
    obtain rfl := Option.some.inj (hc.symm.trans hc')
    have hrest := ih (Option.isSome_of_eq_some hw) (Option.isSome_of_eq_some hw') hparts.symm
    rw [hrest]

end Pointer

namespace Query

/-- All values inside a document, as `$..*` selects them. -/
def descendants : Query := ⟨[.descendant [.wildcard]]⟩

theorem compile_descendants (env : Environment) : env.compile "$..*" = .ok descendants := by
  have htokens : Token.tokenize "$..*" =
      .ok ⟨[⟨.root, 0⟩, ⟨.doubleDot, 1⟩, ⟨.wildcard, 3⟩], 4⟩ := by cbv
  refine Environment.compile_iff.mpr ⟨by unfold Trimmed; cbv, ⟨_, htokens, ?_⟩, ?_, Nat.zero_le _⟩
  · exact ⟨_, rfl, _, [], rfl, .inl ⟨_, _, rfl, rfl, rfl⟩, rfl⟩
  · exact ⟨⟨by simp, trivial, trivial⟩, trivial⟩

theorem evaluate_descendants (document : Json) :
    descendants.evaluate document = (Node.root document).subtree.flatMap Node.children := by
  simp [evaluate, descendants, Segment.applyAll, Segment.apply, Selector.selectAll,
    Selector.select]

/-- Each place is visited once. -/
theorem descendants_nodup {document : Json} (hd : document.UniqueNames) :
    ((descendants.evaluate document).map Node.location).Nodup := by
  have hinj : (fun r : Location × Step => r.1 ++ [r.2]).Injective := by
    rintro ⟨l, step⟩ ⟨l', step'⟩ h
    obtain ⟨hl, hstep⟩ := List.append_inj' h rfl
    exact Prod.ext hl (List.singleton_inj.mp hstep)
  have hsubtree := @Node.enumerates_subtree (.root document) hd
  have hall := (hsubtree.flatMap (fun m hm => by
    obtain ⟨path, hpath⟩ := hsubtree.mem_iff.mp hm
    exact Node.enumerates_children (Node.uniqueNames_follow hd hpath))).map_index hinj
  rw [evaluate_descendants]
  refine hall.nodup_map ?_
  rintro l m ⟨⟨path, step⟩, rfl, x, hx, hm⟩
  have hfollow : (Node.root document).follow (path ++ [step]) = some m := by
    rw [Node.follow_concat, hx]
    exact hm
  exact (at_of_follow hfollow).1

end Query

/-- The pointers that lead somewhere in a document are those of its places, one for each place.
The values inside it, which `$..*` selects, are found by pointers with different texts. -/
theorem pointers_match_locations {document : Json} (hd : document.UniqueNames)
    (ha : document.ArraysWithin (2 ^ 64)) (env : Environment) :
    (∀ (p : Pointer) v, p.resolve? document = some v ↔
      ∃ l, document.at? l = some v ∧ Pointer.ofLocation l = p) ∧
    (∀ l l', (document.at? l).isSome → (document.at? l').isSome →
      Pointer.ofLocation l = Pointer.ofLocation l' → l = l') ∧
    ∃ q, env.compile "$..*" = .ok q ∧
      ((q.evaluate document).map (fun n => (Pointer.ofLocation n.location).text)).Nodup ∧
      ∀ n ∈ q.evaluate document, ∃ p,
        Pointer.ofText (Pointer.ofLocation n.location).text = .ok p ∧
          p.resolve? document = some n.value := by
  refine ⟨fun p v => Pointer.resolve?_eq_some ha, fun l l' => Pointer.ofLocation_injective,
    .descendants, Query.compile_descendants env, ?_, ?_⟩
  · have htexts : (Query.descendants.evaluate document).map
        (fun n => (Pointer.ofLocation n.location).text) =
        ((Query.descendants.evaluate document).map Node.location).map
          (fun l => (Pointer.ofLocation l).text) := by
      rw [List.map_map]
      rfl
    rw [htexts]
    refine (Query.descendants_nodup hd).map_on ?_
    intro l hl l' hl' htext
    obtain ⟨n, hn, rfl⟩ := List.mem_map.mp hl
    obtain ⟨n', hn', rfl⟩ := List.mem_map.mp hl'
    exact Pointer.ofLocation_injective
      (Option.isSome_of_eq_some (Query.at_of_mem_evaluate hd hn))
      (Option.isSome_of_eq_some (Query.at_of_mem_evaluate hd hn'))
      (Pointer.text_injective htext)
  · intro n hn
    exact ⟨_, Pointer.ofText_text _,
      (Pointer.resolve?_eq_some ha).mpr ⟨_, Query.at_of_mem_evaluate hd hn, rfl⟩⟩

/-- A name that looks like an index, and an index, in one document. -/
theorem pointers_match_locations_digits :
    let document : Json := .object [("0", .array [.null])]
    Pointer.resolve? ⟨["0", "0"]⟩ document = some .null ∧
    ∃ l, document.at? l = some .null ∧ Pointer.ofLocation l = ⟨["0", "0"]⟩ := by
  intro document
  have hd : document.UniqueNames := by
    simp [document, Json.UniqueNames, Json.UniqueMembers, Json.UniqueItems]
  have ha : document.ArraysWithin (2 ^ 64) := by
    simp [document, Json.ArraysWithin, Json.MembersWithin, Json.ItemsWithin]
  have hresolve : Pointer.resolve? ⟨["0", "0"]⟩ document = some .null := by cbv
  exact ⟨hresolve, ((pointers_match_locations hd ha .default).1 _ _).mp hresolve⟩

end JsonQuery
