import Mathlib
import JsonQuery.Pointer.Relative
import JsonQuery.Proofs.Evaluation.Tree
import JsonQuery.Proofs.Pointer.Location

namespace JsonQuery

namespace Json

mutual

theorem ArraysWithin.mono {bound bound' : Nat} (hb : bound ≤ bound') :
    ∀ {v : Json}, v.ArraysWithin bound → v.ArraysWithin bound'
  | .array _, h => ⟨h.1.trans hb, ItemsWithin.mono hb h.2⟩
  | .object _, h => MembersWithin.mono hb h
  | .null, _ | .bool _, _ | .number _, _ | .string _, _ => trivial

theorem ItemsWithin.mono {bound bound' : Nat} (hb : bound ≤ bound') :
    ∀ {items : List Json}, ItemsWithin bound items → ItemsWithin bound' items
  | [], _ => trivial
  | _ :: _, h => ⟨ArraysWithin.mono hb h.1, ItemsWithin.mono hb h.2⟩

theorem MembersWithin.mono {bound bound' : Nat} (hb : bound ≤ bound') :
    ∀ {members : List (String × Json)}, MembersWithin bound members → MembersWithin bound' members
  | [], _ => trivial
  | _ :: _, h => ⟨ArraysWithin.mono hb h.1, MembersWithin.mono hb h.2⟩

end

/-- What is on the way to a value exists. -/
theorem exists_at?_take {v : Json} {l : Location} (h : (v.at? l).isSome) (n : Nat) :
    ∃ w, v.at? (l.take n) = some w := by
  obtain ⟨c, hc⟩ := Option.isSome_iff_exists.mp h
  rw [← List.take_append_drop n l, at?_append] at hc
  obtain ⟨w, hw, -⟩ := Option.bind_eq_some_iff.mp hc
  exact ⟨w, hw⟩

end Json

namespace Pointer

theorem descend?_append (v : Json) (parts parts' : List String) :
    descend? v (parts ++ parts') = (descend? v parts).bind (fun w => descend? w parts') := by
  induction parts generalizing v with
  | nil => rfl
  | cons part parts ih => simp only [List.cons_append, descend?, ih, Option.bind_assoc]

theorem descend?_singleton (v : Json) (part : String) : descend? v [part] = child? v part := by
  simp [descend?]

theorem index?_part {i : Nat} (h : i < 2 ^ 64) : index? (Step.index i).part = some i :=
  index?_eq_some.mpr ⟨rfl, h⟩

/-- The parts of a location lead where the location does. -/
theorem descend?_parts {v w : Json} (hv : v.ArraysWithin (2 ^ 64)) {l : Location}
    (hw : v.at? l = some w) : descend? v (l.map Step.part) = some w :=
  (resolve?_eq_some hv (p := ⟨l.map Step.part⟩)).mpr ⟨l, hw, ofLocation_eq l⟩

end Pointer

namespace RelativePointer
open Pointer (descend? descend?_append descend?_singleton descend?_parts index?_part)

namespace Target

/-- The parts that a target adds to those of the place from which it is read. -/
def parts : Target → List String
  | .pointer tail => tail.parts
  | .key => []

/-- What a target reads at a place of a document: the value to which its pointer leads from there,
or the name or index of the place, which the root has not. -/
def readAt (document : Json) (l : Location) : Target → Except PointerError Json
  | .pointer tail =>
    match (document.at? l).bind tail.resolve? with
    | some v => .ok v
    | none => .error (.unresolved ⟨(Pointer.ofLocation l).parts ++ tail.parts⟩)
  | .key =>
    match l.getLast? with
    | none => .error .keyOfRoot
    | some (.name name) => .ok (.string name)
    | some (.index i) => .ok (.number (.int i))

end Target

/-- What is read once the origin has been reached and its index moved. -/
def readParts (target : Target) (parts : List String) (document : Json) :
    Except PointerError Json :=
  match target with
  | .pointer tail =>
    match descend? document (parts ++ tail.parts) with
    | some v => .ok v
    | none => .error (.unresolved ⟨parts ++ tail.parts⟩)
  | .key => if parts.isEmpty then .error .keyOfRoot else readKey ⟨parts⟩ document

/-- The parts that are left above the origin, the last one moved by the offset. -/
def movedParts (r : RelativePointer) (base : Pointer) : Except PointerError (List String) :=
  let kept := base.parts.take (base.parts.length - r.origin)
  if r.offset = 0 then .ok kept else shiftLast r.offset kept

/-- The place to which a target leads from the parts of an origin. -/
def Target.place (parts : List String) : Target → Except PointerError Pointer
  | .pointer tail => .ok ⟨parts ++ tail.parts⟩
  | .key => if parts.isEmpty then .error .keyOfRoot else .ok ⟨parts⟩

theorem applyTo_eq {r : RelativePointer} {base : Pointer} (h : r.origin ≤ base.parts.length) :
    r.applyTo base = (r.movedParts base >>= fun parts => r.target.place parts) := by
  rw [applyTo, if_neg (Nat.not_lt.mpr h), movedParts]
  by_cases hoffset : r.offset = 0
  · simp only [if_pos hoffset]
    cases r.target <;> rfl
  · simp only [if_neg hoffset]
    cases r.target <;> rfl

theorem read_eq {r : RelativePointer} {base : Pointer} (h : r.origin ≤ base.parts.length)
    (document : Json) : r.read base document =
      (r.movedParts base >>= fun parts => readParts r.target parts document) := by
  rw [read, applyTo_eq h]
  cases r.movedParts base with
  | error e => rfl
  | ok parts =>
    cases htarget : r.target with
    | pointer tail => rfl
    | key =>
      by_cases hempty : parts.isEmpty = true
      · simp only [readParts, Target.place, bind, Except.bind, if_pos hempty]
      · simp only [readParts, Target.place, bind, Except.bind, if_neg hempty]

/-- The last step to a place is what is read of it: a name in an object, an index in an array. -/
theorem readKey_concat {document v : Json} (ha : document.ArraysWithin (2 ^ 64)) {above : Location}
    {step : Step} (hv : document.at? (above ++ [step]) = some v) :
    readKey ⟨above.map Step.part ++ [step.part]⟩ document =
      Target.key.readAt document (above ++ [step]) := by
  have hsplit := hv
  rw [Json.at?_append] at hsplit
  obtain ⟨parent, hparent, hstep⟩ := Option.bind_eq_some_iff.mp hsplit
  obtain ⟨c, hstep, hc⟩ := Option.bind_eq_some_iff.mp hstep
  obtain rfl := Option.some.inj hc
  have hchild : Pointer.child? parent step.part = some c := by
    have hall := descend?_parts ha hv
    rwa [List.map_append, descend?_append, descend?_parts ha hparent, Option.bind_some,
      List.map_singleton, descend?_singleton] at hall
  have hresolve : Pointer.resolveParent ⟨above.map Step.part ++ [step.part]⟩ document =
      .ok (some parent, some c) := by
    simp only [Pointer.resolveParent, List.getLast?_concat, List.dropLast_concat,
      descend?_parts ha hparent, hchild]
  rw [readKey, hresolve]
  simp only [bind, Except.bind, List.getLast?_concat, Target.readAt]
  -- The step that leads on from the parent says which kind of value the parent is.
  cases parent with
  | array items =>
    cases step with
    | name name => cases hstep
    | index i =>
      have hi := index?_part (Json.index_lt_of_at ha hv (k := i) (by simp))
      simp only [hi]
      rfl
  | object members =>
    cases step with
    | name name => rfl
    | index i => cases hstep
  | null | bool _ | number _ | string _ => cases hstep

theorem readParts_at {document v : Json} (ha : document.ArraysWithin (2 ^ 64)) {l : Location}
    (hv : document.at? l = some v) (target : Target) :
    readParts target (l.map Step.part) document = target.readAt document l := by
  cases target with
  | pointer tail =>
    rw [readParts, Target.readAt, descend?_append, descend?_parts ha hv, hv, Pointer.ofLocation_eq]
    rfl
  | key =>
    rcases List.eq_nil_or_concat' l with rfl | ⟨above, step, rfl⟩
    · rfl
    · rw [← readKey_concat ha hv, readParts, List.map_append]
      simp

/-- Where the last part names nothing there is nothing to read. -/
theorem readParts_missing {document parent : Json} (ha : document.ArraysWithin (2 ^ 64))
    {above : Location} (hv : document.at? above = some parent) {step : Step}
    (hchild : Pointer.child? parent step.part = none) (target : Target) :
    readParts target ((above ++ [step]).map Step.part) document = .error
      (.unresolved ⟨(Pointer.ofLocation (above ++ [step])).parts ++ target.parts⟩) := by
  have hparent := descend?_parts ha hv
  rw [Pointer.ofLocation_eq]
  cases target with
  | pointer tail =>
    have hnone : descend? document ((above ++ [step]).map Step.part ++ tail.parts) = none := by
      rw [List.map_append, List.append_assoc, descend?_append, hparent, Option.bind_some,
        List.map_singleton, List.singleton_append, descend?, hchild, Option.bind_none]
    simp only [readParts, hnone, Target.parts]
  | key =>
    have hresolve : Pointer.resolveParent ⟨above.map Step.part ++ [step.part]⟩ document =
        .ok (some parent, none) := by
      simp only [Pointer.resolveParent, List.getLast?_concat, List.dropLast_concat, hparent, hchild]
    rw [readParts, if_neg (by simp), List.map_append, List.map_singleton, readKey, hresolve]
    simp only [bind, Except.bind, Target.parts, List.append_nil]

/-- Behind the last item of an array there is nothing to read. -/
theorem readParts_behind {document : Json} (ha : document.ArraysWithin (2 ^ 64)) {above : Location}
    {items : List Json} (hv : document.at? above = some (.array items)) {j : Nat}
    (hj : items.length ≤ j) (hbound : j < 2 ^ 64) (target : Target) :
    readParts target ((above ++ [Step.index j]).map Step.part) document = .error
      (.unresolved ⟨(Pointer.ofLocation (above ++ [Step.index j])).parts ++ target.parts⟩) := by
  have hchild : Pointer.child? (.array items) (Step.index j).part = none := by
    rw [Pointer.child?, index?_part hbound]
    exact List.getElem?_eq_none hj
  exact readParts_missing ha hv hchild target

/-- An index whose sum with the offset fits its word moves to the sum, unless that is negative. -/
theorem shiftLast_index {i : Nat} {offset : Int} (hi : i < 2 ^ 63) (hsum : i + offset < 2 ^ 63)
    (above : List String) : shiftLast offset (above ++ [(Step.index i).part]) =
      if i + offset < 0 then .error (.indexOutOfRange (i + offset))
      else .ok (above ++ [(Step.index (i + offset).toNat).part]) := by
  have hindex : (above ++ [(Step.index i).part]).getLast?.bind Pointer.index? = some i := by
    rw [List.getLast?_concat, Option.bind_some, index?_part (by omega)]
  have hshifted : shifted i offset = i + offset := if_pos ⟨hi, hsum⟩
  rw [shiftLast, hindex]
  simp only [hshifted, List.dropLast_concat]
  split
  · rfl
  · rename_i hnonneg
    have hchars : intChars (i + offset) = Nat.toDigits 10 (i + offset).toNat := by
      have habs : (i + offset).natAbs = (i + offset).toNat := by omega
      rw [intChars, if_neg hnonneg, List.nil_append, habs]
    rw [hchars]
    rfl

theorem length_ofLocation (l : Location) : (Pointer.ofLocation l).parts.length = l.length := by
  rw [Pointer.ofLocation_eq, List.length_map]

theorem take_ofLocation (l : Location) (n : Nat) :
    (Pointer.ofLocation l).parts.take n = (l.take n).map Step.part := by
  rw [Pointer.ofLocation_eq, List.map_take]

/-- From a place of a document a relative pointer goes up by its origin, moves an index by its
offset, and reads its target there. Arrays in memory have no more than `2 ^ 63` items, so that
their indices fit the words in which they are moved. -/
theorem read_ofLocation {document : Json} (ha : document.ArraysWithin (2 ^ 63)) {l : Location}
    (hl : (document.at? l).isSome) (r : RelativePointer) :
    (l.length < r.origin → r.read (.ofLocation l) document =
      .error (.originOutOfRange r.origin l.length)) ∧
    (r.origin ≤ l.length → r.offset = 0 → r.read (.ofLocation l) document =
      r.target.readAt document (l.take (l.length - r.origin))) ∧
    ∀ above i items, l.take (l.length - r.origin) = above ++ [Step.index i] →
      document.at? above = some (.array items) → r.offset ≠ 0 → i + r.offset < 2 ^ 63 →
      r.read (.ofLocation l) document =
        if i + r.offset < 0 then .error (.indexOutOfRange (i + r.offset))
        else if i + r.offset < items.length then
          r.target.readAt document (above ++ [Step.index (i + r.offset).toNat])
        else .error (.unresolved
          ⟨(Pointer.ofLocation (above ++ [Step.index (i + r.offset).toNat])).parts ++
            r.target.parts⟩) := by
  have ha' := ha.mono (show 2 ^ 63 ≤ 2 ^ 64 by decide)
  refine ⟨fun hk => ?_, fun hk hoffset => ?_, fun above i items hkept hitems hoffset hsum => ?_⟩
  · rw [read, applyTo, if_pos (by rwa [length_ofLocation]), length_ofLocation]
    rfl
  · rw [read_eq (by rwa [length_ofLocation]), movedParts, if_pos hoffset, length_ofLocation,
      take_ofLocation]
    obtain ⟨v, hv⟩ := Json.exists_at?_take hl (l.length - r.origin)
    exact readParts_at ha' hv r.target
  · have hk : r.origin ≤ l.length := by
      by_contra hover
      rw [Nat.sub_eq_zero_of_le (by omega), List.take_zero] at hkept
      exact absurd hkept.symm (by simp)
    obtain ⟨v, hv⟩ := Json.exists_at?_take hl (l.length - r.origin)
    have hi : i < 2 ^ 63 := by
      rw [hkept] at hv
      exact Json.index_lt_of_at ha hv (by simp)
    rw [read_eq (by rwa [length_ofLocation]), movedParts, if_neg hoffset, length_ofLocation,
      take_ofLocation, hkept, List.map_append, List.map_singleton, shiftLast_index hi hsum]
    split
    · rfl
    · rename_i hnonneg
      obtain ⟨j, hj⟩ : ∃ j : Nat, i + r.offset = j := ⟨(i + r.offset).toNat, by omega⟩
      rw [hj, Int.toNat_natCast]
      change readParts r.target (above.map Step.part ++ [(Step.index j).part]) document = _
      have hparts : above.map Step.part ++ [(Step.index j).part] =
          (above ++ [Step.index j]).map Step.part := by simp
      rw [hparts]
      split
      · rename_i hlt
        have hitem : document.at? (above ++ [Step.index j]) = some items[j] := by
          rw [Json.at?_append, hitems]
          simp [Json.at?, Json.child?]
        exact readParts_at ha' hitem r.target
      -- No value stands there, so that the parts are followed only as far as the array.
      · rename_i hge
        exact readParts_behind ha' hitems (by omega) (by omega) r.target

/-- From the second item of an array under a name: up, sideways, and behind the end. -/
theorem read_ofLocation_item :
    let document : Json := .object [("a", .array [.null, .bool true])]
    let base := Pointer.ofLocation [.name "a", .index 1]
    read ⟨3, 0, .key⟩ base document = .error (.originOutOfRange 3 2) ∧
    read ⟨1, 0, .key⟩ base document = .ok (.string "a") ∧
    read ⟨0, -1, .key⟩ base document = .ok (.number (.int 0)) ∧
    read ⟨0, 1, .pointer .root⟩ base document = .error (.unresolved ⟨["a", "2"]⟩) := by
  intro document base
  have ha : document.ArraysWithin (2 ^ 63) := by
    simp [document, Json.ArraysWithin, Json.MembersWithin, Json.ItemsWithin]
  have hl : (document.at? [.name "a", .index 1]).isSome := rfl
  refine ⟨?_, ?_, ?_, ?_⟩
  · exact (read_ofLocation ha hl ⟨3, 0, .key⟩).1 (by decide)
  · exact (read_ofLocation ha hl ⟨1, 0, .key⟩).2.1 (by decide) rfl
  · exact (read_ofLocation ha hl ⟨0, -1, .key⟩).2.2 [.name "a"] 1 _ rfl rfl (by decide) (by decide)
  · have hbehind := (read_ofLocation ha hl ⟨0, 1, .pointer .root⟩).2.2 [.name "a"] 1 _ rfl rfl
      (by decide) (by decide)
    rw [hbehind]
    rfl

end RelativePointer
end JsonQuery
