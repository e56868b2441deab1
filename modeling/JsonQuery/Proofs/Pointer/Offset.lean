import JsonQuery.Proofs.Pointer.Reading
import JsonQuery.Proofs.Pointer.RelativeText

namespace JsonQuery

namespace Pointer

/-- A part spells an index: it is `0`, or digits that do not start with it, however many. -/
structure IsIndex (part : String) (i : Nat) : Prop where
  digits : Numeral.AreDigits part.toList
  noLeadingZero : part.toList.head? = some '0' → part = "0"
  value : Numeral.natOfDigits part.toList = i

theorem isIndex_iff {part : String} {i : Nat} : IsIndex part i ↔ (Step.index i).part = part := by
  constructor
  · rintro ⟨hdigits, hzero, rfl⟩
    have hlead : part.toList.head? = some '0' → part.toList = ['0'] := by
      intro hhead
      rw [hzero hhead]
      rfl
    rw [Step.part, Numeral.toDigits_natOfDigits hdigits hlead, String.ofList_toList]
  · rintro rfl
    refine ⟨?_, fun hhead => ?_, ?_⟩
    · simpa [Step.part] using Numeral.areDigits_toDigits i
    · rw [Step.part, String.toList_ofList] at hhead
      rw [Step.part, Numeral.toDigits_noLeadingZero i hhead]
    · simp [Step.part]

/-- A part that spells no index is not read as one. -/
theorem index?_of_not_isIndex {part : String} (h : ∀ i, ¬IsIndex part i) : index? part = none := by
  cases hi : index? part with
  | none => rfl
  | some i => exact absurd (isIndex_iff.mpr (index?_eq_some.mp hi).1.symm) (h i)

end Pointer

/-- Where an offset leads from a place that has been reached: from an item of an array to another
place in the array. A pointer does not tell whether its last part is a name or an index, so that a
name that spells an index gives way to the name with the sum, as long as both fit signed words.
No other name is moved. -/
inductive Step.ShiftsTo (offset : Int) : Step → Step → Prop where
  | index {i j : Nat} : (j : Int) = i + offset → ShiftsTo offset (.index i) (.index j)
  | digits {name : String} {i j : Nat} : Pointer.IsIndex name i → i < 2 ^ 63 → j < 2 ^ 63 →
      (j : Int) = i + offset → ShiftsTo offset (.name name) (.name (Step.index j).part)
  | name {name : String} : (∀ i, ¬Pointer.IsIndex name i) →
      ShiftsTo offset (.name name) (.name name)

/-- The last step alone is moved, and the root has none. -/
inductive Location.ShiftsTo (offset : Int) : Location → Location → Prop where
  | root : ShiftsTo offset [] []
  | last (above : Location) {step step' : Step} : step.ShiftsTo offset step' →
      ShiftsTo offset (above ++ [step]) (above ++ [step'])

theorem Location.shiftsTo_nil {offset : Int} {l : Location} : ShiftsTo offset [] l ↔ l = [] := by
  constructor
  · intro h
    generalize hreached : [] = reached at h
    cases h with
    | root => rfl
    | last above => simp at hreached
  · rintro rfl
    exact .root

theorem Location.shiftsTo_concat {offset : Int} {above l : Location} {step : Step} :
    ShiftsTo offset (above ++ [step]) l ↔
      ∃ step', step.ShiftsTo offset step' ∧ l = above ++ [step'] := by
  constructor
  · intro h
    generalize hreached : above ++ [step] = reached at h
    cases h with
    | root => simp at hreached
    | last above' hstep =>
      obtain ⟨rfl, hlast⟩ := List.append_inj' hreached rfl
      obtain rfl := List.singleton_inj.mp hlast
      exact ⟨_, hstep, rfl⟩
  · rintro ⟨step', hstep, rfl⟩
    exact .last above hstep

namespace RelativePointer

/-- A sum that leaves its word, or an index that does not fit it, is taken for a negative index. -/
theorem shiftLast_beyond {i : Nat} {offset : Int} (hi : i < 2 ^ 64)
    (h : ¬(i < 2 ^ 63 ∧ i + offset < 2 ^ 63)) (above : List String) :
    shiftLast offset (above ++ [(Step.index i).part]) = .error (.indexOutOfRange (-2 ^ 63)) := by
  have hindex : (above ++ [(Step.index i).part]).getLast?.bind Pointer.index? = some i := by
    rw [List.getLast?_concat, Option.bind_some, Pointer.index?_part hi]
  have hshifted : shifted i offset = -2 ^ 63 := if_neg h
  rw [shiftLast, hindex]
  simp only [hshifted]
  rw [if_pos (by decide)]

theorem shiftLast_eq_ok_iff {i : Nat} {offset : Int} (hi : i < 2 ^ 64) {above parts : List String} :
    shiftLast offset (above ++ [(Step.index i).part]) = .ok parts ↔
      ∃ j : Nat, (j : Int) = i + offset ∧ i < 2 ^ 63 ∧ j < 2 ^ 63 ∧
        parts = above ++ [(Step.index j).part] := by
  by_cases hfits : i < 2 ^ 63 ∧ i + offset < 2 ^ 63
  · rw [shiftLast_index hfits.1 hfits.2]
    split
    · rename_i hneg
      constructor
      · intro h
        cases h
      · rintro ⟨j, hj, -⟩
        omega
    · rename_i hnonneg
      rw [Except.ok.injEq]
      constructor
      · rintro rfl
        exact ⟨(i + offset).toNat, by omega, hfits.1, by omega, rfl⟩
      · rintro ⟨j, hj, -, -, rfl⟩
        rw [← hj, Int.toNat_natCast]
  · rw [shiftLast_beyond hi hfits]
    constructor
    · intro h
      cases h
    · rintro ⟨j, hj, hi, hj', -⟩
      exact absurd ⟨hi, by omega⟩ hfits

theorem shiftLast_of_not_index {part : String} (h : Pointer.index? part = none) (offset : Int)
    (above : List String) : shiftLast offset (above ++ [part]) = .ok (above ++ [part]) := by
  rw [shiftLast, List.getLast?_concat, Option.bind_some, h]

/-- An offset moves an index exactly, within signed words. What these cannot hold is refused like a
negative index, and reported as the least number that they hold. -/
theorem applyTo_index {t : String} {r : RelativePointer} (hr : ofText t = .ok r) {base : Pointer}
    (hk : r.origin ≤ base.parts.length) (ho : r.offset ≠ 0) {above : List String} {part : String}
    (hkept : base.parts.take (base.parts.length - r.origin) = above ++ [part]) {i : Nat}
    (hi : Pointer.IsIndex part i) (hbound : i < 2 ^ 64) :
    r.applyTo base =
      if i + r.offset < 0 then .error (.indexOutOfRange (i + r.offset))
      else if 2 ^ 63 ≤ i ∨ 2 ^ 63 ≤ i + r.offset then .error (.indexOutOfRange (-2 ^ 63))
      else .ok ⟨above ++ (Step.index (i + r.offset).toNat).part :: r.target.parts⟩ := by
  have hoffset := (ofText_eq_ok_iff.mp hr).1.offset
  obtain rfl := Pointer.isIndex_iff.mp hi
  rw [applyTo_eq hk, movedParts, if_neg ho, hkept]
  by_cases hfits : i < 2 ^ 63 ∧ i + r.offset < 2 ^ 63
  · rw [shiftLast_index hfits.1 hfits.2]
    split
    · rfl
    · rw [if_neg (by omega)]
      cases htarget : r.target with
      | pointer tail => simp [bind, Except.bind, Target.place, Target.parts]
      | key => simp [bind, Except.bind, Target.place, Target.parts]
  · rw [shiftLast_beyond hbound hfits, if_neg (by omega), if_pos (by omega)]
    rfl

/-- Two down, one more than there are, and one up from the greatest index that is moved at all. -/
theorem applyTo_index_moved :
    applyTo ⟨0, -2, .pointer ⟨["b"]⟩⟩ ⟨["a", "10"]⟩ = .ok ⟨["a", "8", "b"]⟩ ∧
    applyTo ⟨1, -11, .key⟩ ⟨["a", "10", "c"]⟩ = .error (.indexOutOfRange (-1)) ∧
    applyTo ⟨0, 1, .key⟩ ⟨["9223372036854775806"]⟩ = .ok ⟨["9223372036854775807"]⟩ := by
  have hten : Pointer.IsIndex "10" 10 := Pointer.isIndex_iff.mpr (by decide)
  have hgreat : Pointer.IsIndex "9223372036854775806" 9223372036854775806 :=
    Pointer.isIndex_iff.mpr (by decide)
  refine ⟨?_, ?_, ?_⟩
  · have hmoved := @applyTo_index "0-2/b" ⟨0, -2, .pointer ⟨["b"]⟩⟩ (by decide) ⟨["a", "10"]⟩
      (by decide) (by decide) ["a"] "10" rfl 10 hten (by decide)
    rw [hmoved]
    decide
  · exact @applyTo_index "1-11#" ⟨1, -11, .key⟩ (by decide) ⟨["a", "10", "c"]⟩
      (by decide) (by decide) ["a"] "10" rfl 10 hten (by decide)
  · have hmoved := @applyTo_index "0+1#" ⟨0, 1, .key⟩ (by decide) ⟨["9223372036854775806"]⟩
      (by decide) (by decide) [] "9223372036854775806" rfl _ hgreat (by decide)
    rw [hmoved]
    decide

/-- The greatest signed word is an index whose sum with one is not negative, and yet refused. -/
theorem applyTo_index_greatest :
    ofText "0+1" = .ok ⟨0, 1, .pointer .root⟩ ∧
    Pointer.IsIndex "9223372036854775807" 9223372036854775807 ∧
    ¬(((9223372036854775807 : Nat) : Int) + 1 < 0) ∧
    applyTo ⟨0, 1, .pointer .root⟩ ⟨["9223372036854775807"]⟩ =
      .error (.indexOutOfRange (-9223372036854775808)) := by
  refine ⟨by decide, Pointer.isIndex_iff.mpr (by decide), by decide, by decide⟩

/-- Where a part names the child of its step, and no other, there is something to read only if the
child exists. -/
theorem readParts_eq_ok_iff {document parent : Json} (ha : document.ArraysWithin (2 ^ 64))
    {above : Location} (hparent : document.at? above = some parent) {step : Step}
    (hchild : Pointer.child? parent step.part = parent.child? step) {target : Target} {v : Json} :
    readParts target ((above ++ [step]).map Step.part) document = .ok v ↔
      (document.at? (above ++ [step])).isSome ∧
        target.readAt document (above ++ [step]) = .ok v := by
  have hat : document.at? (above ++ [step]) = parent.child? step := by
    rw [Json.at?_append, hparent, Option.bind_some]
    simp [Json.at?]
  cases hc : parent.child? step with
  | none =>
    rw [readParts_missing ha hparent (hchild.trans hc), hat, hc]
    simp
  | some c =>
    rw [readParts_at ha (hat.trans hc), hat, hc]
    simp

section Reached

variable {document : Json} {above : Location} {offset : Int} {target : Target} {v : Json}

/-- The places in one container whose parts spell indices, items as well as members, are read at
the sum. -/
theorem readParts_shift {parent : Json} (ha : document.ArraysWithin (2 ^ 64))
    (hparent : document.at? above = some parent) (place : Nat → Step)
    (hspelt : ∀ j, (place j).part = (Step.index j).part)
    (hchild : ∀ j < 2 ^ 63, Pointer.child? parent (place j).part = parent.child? (place j))
    {i : Nat} (hi : i < 2 ^ 64) :
    (shiftLast offset ((above ++ [place i]).map Step.part) >>= fun parts =>
        readParts target parts document) = .ok v ↔
      ∃ j : Nat, (j : Int) = i + offset ∧ i < 2 ^ 63 ∧ j < 2 ^ 63 ∧
        (document.at? (above ++ [place j])).isSome ∧
          target.readAt document (above ++ [place j]) = .ok v := by
  have hparts (j : Nat) : (above ++ [place j]).map Step.part =
      above.map Step.part ++ [(Step.index j).part] := by
    rw [List.map_append, List.map_singleton, hspelt]
  rw [bind_ok, hparts]
  constructor
  · rintro ⟨parts, hshift, hv⟩
    obtain ⟨j, hj, hi', hj', rfl⟩ := (shiftLast_eq_ok_iff hi).mp hshift
    rw [← hparts] at hv
    exact ⟨j, hj, hi', hj', (readParts_eq_ok_iff ha hparent (hchild j hj')).mp hv⟩
  · rintro ⟨j, hj, hi', hj', hv⟩
    refine ⟨_, (shiftLast_eq_ok_iff hi).mpr ⟨j, hj, hi', hj', rfl⟩, ?_⟩
    rw [← hparts]
    exact (readParts_eq_ok_iff ha hparent (hchild j hj')).mpr hv

theorem readParts_shift_index (ha : document.ArraysWithin (2 ^ 63)) {items : List Json}
    (hitems : document.at? above = some (.array items)) {i : Nat} (hi : i < 2 ^ 63) :
    (shiftLast offset ((above ++ [Step.index i]).map Step.part) >>= fun parts =>
        readParts target parts document) = .ok v ↔
      ∃ l, Location.ShiftsTo offset (above ++ [.index i]) l ∧ (document.at? l).isSome ∧
        target.readAt document l = .ok v := by
  have hchild : ∀ j < 2 ^ 63, Pointer.child? (.array items) (Step.index j).part =
      (Json.array items).child? (.index j) := by
    intro j hj
    rw [Pointer.child?, Pointer.index?_part (by omega)]
    rfl
  rw [readParts_shift (ha.mono (by decide)) hitems .index (fun _ => rfl) hchild (by omega)]
  constructor
  · rintro ⟨j, hj, -, -, h⟩
    exact ⟨_, .last above (.index hj), h⟩
  · rintro ⟨l, hl, hexists, hv⟩
    obtain ⟨_, ⟨hj⟩, rfl⟩ := Location.shiftsTo_concat.mp hl
    obtain ⟨w, hw⟩ := Option.isSome_iff_exists.mp hexists
    have hj' := Json.index_lt_of_at ha hw (List.mem_append_right _ List.mem_cons_self)
    exact ⟨_, hj, hi, hj', hexists, hv⟩

theorem readParts_shift_name (ha : document.ArraysWithin (2 ^ 64)) {members : List (String × Json)}
    (hmembers : document.at? above = some (.object members)) {name : String}
    (hname : ∀ i, Pointer.IsIndex name i → i < 2 ^ 64) :
    (shiftLast offset ((above ++ [Step.name name]).map Step.part) >>= fun parts =>
        readParts target parts document) = .ok v ↔
      ∃ l, Location.ShiftsTo offset (above ++ [.name name]) l ∧ (document.at? l).isSome ∧
        target.readAt document l = .ok v := by
  by_cases hindex : ∃ i, Pointer.IsIndex name i
  · obtain ⟨i, hi⟩ := hindex
    obtain rfl := Pointer.isIndex_iff.mp hi
    rw [readParts_shift ha hmembers (fun j => .name (Step.index j).part) (fun _ => rfl)
      (fun _ _ => rfl) (hname i hi)]
    constructor
    · rintro ⟨j, hj, hi', hj', h⟩
      exact ⟨_, .last above (.digits hi hi' hj' hj), h⟩
    · rintro ⟨l, hl, h⟩
      obtain ⟨_, hstep, rfl⟩ := Location.shiftsTo_concat.mp hl
      cases hstep with
      | digits hsame hi' hj' hj =>
        obtain rfl : i = _ := hi.value.symm.trans hsame.value
        exact ⟨_, hj, hi', hj', h⟩
      | name hnone => exact absurd hi (hnone i)
  · have hnone : ∀ i, ¬Pointer.IsIndex name i := not_exists.mp hindex
    have hstays : shiftLast offset ((above ++ [Step.name name]).map Step.part) =
        .ok ((above ++ [Step.name name]).map Step.part) := by
      rw [List.map_append]
      exact shiftLast_of_not_index (Pointer.index?_of_not_isIndex hnone) _ _
    rw [hstays]
    refine (readParts_eq_ok_iff ha hmembers rfl).trans ⟨fun h => ?_, ?_⟩
    · exact ⟨_, .last above (.name hnone), h⟩
    · rintro ⟨l, hl, h⟩
      obtain ⟨_, hstep, rfl⟩ := Location.shiftsTo_concat.mp hl
      cases hstep with
      | digits hi => exact absurd hi (hnone _)
      | name => exact h

theorem readParts_shift_reached (ha : document.ArraysWithin (2 ^ 63)) {reached : Location}
    {w : Json} (hw : document.at? reached = some w)
    (hnames : ∀ above name i, reached = above ++ [Step.name name] → Pointer.IsIndex name i →
      i < 2 ^ 64) :
    (shiftLast offset (reached.map Step.part) >>= fun parts =>
        readParts target parts document) = .ok v ↔
      ∃ l, Location.ShiftsTo offset reached l ∧ (document.at? l).isSome ∧
        target.readAt document l = .ok v := by
  rcases List.eq_nil_or_concat' reached with rfl | ⟨above, step, rfl⟩
  · have hread : (shiftLast offset (([] : Location).map Step.part) >>= fun parts =>
        readParts target parts document) = target.readAt document [] :=
      readParts_at (ha.mono (by decide)) hw target
    simp only [hread, Location.shiftsTo_nil, exists_eq_left, hw, Option.isSome_some, true_and]
  · have hsplit := hw
    rw [Json.at?_append] at hsplit
    obtain ⟨parent, hparent, hstep⟩ := Option.bind_eq_some_iff.mp hsplit
    -- The value above says whether an item or a member was reached.
    cases parent with
    | array items =>
      cases step with
      | index i => exact readParts_shift_index ha hparent (Json.index_lt_of_at ha hw (by simp))
      | name name => cases hstep
    | object members =>
      cases step with
      | index i => cases hstep
      | name name =>
        exact readParts_shift_name (ha.mono (by decide)) hparent (hnames above name · rfl)
    | null | bool _ | number _ | string _ => cases hstep

end Reached

/-- With an offset something is read exactly if it stands at the place to which the offset moves
the place that was reached, where neither the root nor a name that is no index moves. -/
theorem read_offset_iff {document : Json} (ha : document.ArraysWithin (2 ^ 63)) {l : Location}
    (hl : (document.at? l).isSome) {r : RelativePointer} (ho : r.offset ≠ 0)
    (hnames : ∀ above name i, l.take (l.length - r.origin) = above ++ [Step.name name] →
      Pointer.IsIndex name i → i < 2 ^ 64) {v : Json} :
    r.read (.ofLocation l) document = .ok v ↔ r.origin ≤ l.length ∧
      ∃ l', Location.ShiftsTo r.offset (l.take (l.length - r.origin)) l' ∧
        (document.at? l').isSome ∧ r.target.readAt document l' = .ok v := by
  by_cases hk : r.origin ≤ l.length
  · have hmoved : r.movedParts (.ofLocation l) =
        shiftLast r.offset ((l.take (l.length - r.origin)).map Step.part) := by
      rw [movedParts, if_neg ho, length_ofLocation, take_ofLocation]
    obtain ⟨w, hw⟩ := Json.exists_at?_take hl (l.length - r.origin)
    rw [read_eq (by rwa [length_ofLocation]), hmoved, and_iff_right hk]
    exact readParts_shift_reached ha hw hnames
  · have hover : r.read (.ofLocation l) document =
        .error (.originOutOfRange r.origin l.length) := by
      rw [read, applyTo, if_pos (by rw [length_ofLocation]; omega), length_ofLocation]
      rfl
    rw [hover]
    simp [hk]

/-- An item, a name of digits and the root. -/
theorem read_offset_iff_kinds :
    let document : Json := .object [("a", .array [.null, .null]), ("7", .null), ("9", .bool true)]
    read ⟨0, -1, .key⟩ (.ofLocation [.name "a", .index 1]) document = .ok (.number (.int 0)) ∧
    read ⟨0, 2, .pointer .root⟩ (.ofLocation [.name "7"]) document = .ok (.bool true) ∧
    read ⟨1, 1, .pointer ⟨["9"]⟩⟩ (.ofLocation [.name "7"]) document = .ok (.bool true) := by
  intro document
  have ha : document.ArraysWithin (2 ^ 63) := by
    simp [document, Json.ArraysWithin, Json.MembersWithin, Json.ItemsWithin]
  have hseven : Pointer.IsIndex "7" 7 := Pointer.isIndex_iff.mpr (by decide)
  refine ⟨?_, ?_, ?_⟩
  · have hnames : ∀ above name i, [Step.name "a", .index 1] = above ++ [Step.name name] →
        Pointer.IsIndex name i → i < 2 ^ 64 := by
      intro above name i h
      have hstep : Step.index 1 = .name name := by simpa using congrArg List.getLast? h
      cases hstep
    exact (read_offset_iff ha (l := [.name "a", .index 1]) rfl (r := ⟨0, -1, .key⟩) (by decide)
      hnames).mpr ⟨by decide, [.name "a", .index 0], .last [.name "a"] (.index rfl), rfl, rfl⟩
  · have hnames : ∀ above name i, [Step.name "7"] = above ++ [Step.name name] →
        Pointer.IsIndex name i → i < 2 ^ 64 := by
      intro above name i h hi
      have hstep : Step.name "7" = .name name := by simpa using congrArg List.getLast? h
      cases hstep
      have hvalue : 7 = i := hseven.value.symm.trans hi.value
      omega
    have hshift : Step.ShiftsTo 2 (.name "7") (.name "9") :=
      .digits (j := 9) hseven (by decide) (by decide) rfl
    exact (read_offset_iff ha (l := [.name "7"]) rfl (r := ⟨0, 2, .pointer .root⟩) (by decide)
      hnames).mpr ⟨by decide, [.name "9"], .last [] hshift, rfl, rfl⟩
  · exact (read_offset_iff ha (l := [.name "7"]) rfl (r := ⟨1, 1, .pointer ⟨["9"]⟩⟩) (by decide)
      (by simp)).mpr ⟨by decide, [], .root, rfl, rfl⟩

/-- In a document without items an offset is taken at a name that spells no index, at one that
does, and at the root. -/
theorem read_offset_no_item :
    let document : Json := .object [("a", .null), ("1", .bool false), ("2", .bool true)]
    read ⟨0, 1, .pointer .root⟩ (.ofLocation [.name "a"]) document = .ok .null ∧
    read ⟨0, 1, .pointer .root⟩ (.ofLocation [.name "1"]) document = .ok (.bool true) ∧
    read ⟨1, 1, .pointer .root⟩ (.ofLocation [.name "a"]) document = .ok document ∧
    (document.at? [.name "a"]).isSome ∧ (document.at? [.name "1"]).isSome ∧
    ∀ above i, document.at? (above ++ [.index i]) = none := by
  intro document
  refine ⟨rfl, rfl, rfl, rfl, rfl, fun above i => ?_⟩
  have hempty : document.ArraysWithin 0 := by simp [document, Json.ArraysWithin, Json.MembersWithin]
  cases hitem : document.at? (above ++ [.index i]) with
  | none => rfl
  | some item => exact absurd (Json.index_lt_of_at hempty hitem (k := i) (by simp)) i.not_lt_zero

end RelativePointer
end JsonQuery
