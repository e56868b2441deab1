import Mathlib
import JsonQuery.Proofs.Evaluation.Slice
import JsonQuery.Proofs.Grammar.Typing
import JsonQuery.Query.Word

namespace JsonQuery
namespace Selector

variable {first step distance : Int}

theorem progression_eq_nil (hs : step ≠ 0) (h : distance ≤ 0) :
    progression first step distance = [] := by
  apply List.eq_nil_iff_forall_not_mem.mpr
  intro x hx
  obtain ⟨k, hk, -⟩ := (mem_progression hs).mp hx
  have hnonneg : 0 ≤ (k : Int) * step.natAbs := Int.mul_nonneg (by omega) (by omega)
  omega

theorem progression_eq_cons (hs : step ≠ 0) (h : 0 < distance) :
    progression first step distance =
      first.toNat :: progression (first + step) step (distance - step.natAbs) := by
  have hpos : (0 : Int) < step.natAbs := by omega
  have hcount : (distance + (step.natAbs - 1)) / step.natAbs =
      (distance - step.natAbs + (step.natAbs - 1)) / step.natAbs + 1 := by
    rw [← Int.add_mul_ediv_right _ 1 hpos.ne']
    congr 1
    omega
  have hnonneg : 0 ≤ (distance - step.natAbs + (step.natAbs - 1)) / (step.natAbs : Int) :=
    Int.ediv_nonneg (by omega) (by omega)
  have hrange : ((distance + (step.natAbs - 1)) / step.natAbs).toNat =
      ((distance - step.natAbs + (step.natAbs - 1)) / step.natAbs).toNat + 1 := by omega
  unfold progression
  simp only [hrange, List.range_succ_eq_map, List.map_cons, List.map_map]
  congr 1
  · simp
  · apply List.map_congr_left
    intro k _
    simp only [Function.comp_apply, Nat.succ_eq_add_one, Int.natCast_add, Int.add_mul]
    congr 1
    omega

end Selector

namespace Word

variable {step stop i : Int}

/-- How far `stop` lies ahead of `i`. -/
def gap (step stop i : Int) : Int := if 0 < step then stop - i else i - stop

theorem ahead_iff (hs : step ≠ 0) : Ahead step stop i ↔ 0 < gap step stop i := by
  unfold Ahead gap
  split <;> omega

theorem gap_add : gap step stop (i + step) = gap step stop i - step.natAbs := by
  unfold gap
  split <;> omega

/-- The steps lead through the places of the progression, unless one of them leads out of the
words. -/
theorem walk?_eq (hs : step ≠ 0) (hup : 0 < step → 0 ≤ i) (hdown : step < 0 → -1 ≤ stop) :
    walk? step stop i =
      if ∀ k ∈ Selector.progression i step (gap step stop i), Holds (k + step) then
        some (Selector.progression i step (gap step stop i))
      else none := by
  induction i using walk?.induct step stop with
  | case1 i hahead hholds ih =>
    have hi : 0 ≤ i := by unfold Ahead at hahead; omega
    rw [walk?, if_pos hahead, if_pos hholds, ih (by omega),
      Selector.progression_eq_cons hs ((ahead_iff hs).mp hahead), ← gap_add]
    simp only [List.forall_mem_cons, Int.toNat_of_nonneg hi, hholds, true_and]
    split <;> rfl
  | case2 i hahead hholds =>
    have hi : 0 ≤ i := by unfold Ahead at hahead; omega
    rw [walk?, if_pos hahead, if_neg hholds,
      Selector.progression_eq_cons hs ((ahead_iff hs).mp hahead), if_neg]
    simp only [List.forall_mem_cons, Int.toNat_of_nonneg hi, hholds, false_and, not_false_iff]
  | case3 i hahead =>
    rw [walk?, if_neg hahead, Selector.progression_eq_nil hs, if_pos (by simp)]
    exact Int.not_lt.mp (fun h => hahead ((ahead_iff hs).mpr h))

variable {start stop step : Option Int} {length : Nat}

theorem normalized_eq (length : Nat) (i : Int) :
    Selector.normalized length i = if i < 0 then length + i else i := by
  unfold Selector.normalized
  split <;> split <;> omega

theorem add?_eq {a b : Int} (h : Holds (a + b)) : add? a b = some (a + b) := if_pos h

theorem eq_add_of_add? {a b c : Int} (h : add? a b = some c) : c = a + b := by
  unfold add? at h
  split at h
  · exact (Option.some.inj h).symm
  · cases h

theorem eq_normalized_of_fromStart? {i j : Int} (h : fromStart? length i = some j) :
    j = Selector.normalized length i := by
  unfold fromStart? at h
  rw [normalized_eq]
  by_cases hneg : i < 0
  · rw [if_pos hneg] at h ⊢
    exact eq_add_of_add? h
  · rw [if_neg hneg] at h ⊢
    exact (Option.some.inj h).symm

theorem fromStart?_eq (hl : length < 2 ^ 62) {i : Int} (hi : Holds i) :
    fromStart? length i = some (Selector.normalized length i) := by
  rw [normalized_eq, fromStart?]
  split
  · apply add?_eq
    unfold Holds at *
    omega
  · rfl

theorem clamp_eq (low high i : Int) :
    clamp low high (Selector.normalized length i) = Selector.bound low high length i := by
  rw [normalized_eq, clamp, Selector.bound]

theorem eq_place_of_place? {i : Int} {found : Option Nat} (h : place? i length = some found) :
    found = Selector.place? i length := by
  obtain ⟨j, hj, rfl⟩ := Option.map_eq_some_iff.mp h
  rw [eq_normalized_of_fromStart? hj, normalized_eq, Selector.place?]

/-- An index is found without leaving the words. -/
theorem place?_eq (hl : length < 2 ^ 62) {i : Int} (hi : Holds i) :
    place? i length = some (Selector.place? i length) := by
  rw [place?, fromStart?_eq hl hi, Option.map_some, normalized_eq, Selector.place?]

/-- A bound of a descending slice, or where one that is missing stands. -/
theorem clamp_of_descending {bound : Option Int} {missing i : Int}
    (hm : -1 ≤ missing ∧ missing ≤ length - 1)
    (h : bound.elim (some missing) (fromStart? length) = some i) :
    clamp (-1) (length - 1) i =
      (bound.map (Selector.bound (-1) (length - 1) length)).getD missing := by
  cases bound with
  | none =>
    cases h
    simp only [clamp, Option.map_none, Option.getD_none]
    omega
  | some j =>
    obtain rfl := eq_normalized_of_fromStart? h
    exact clamp_eq _ _ j

/-- From the lower bound of a slice to the upper one. -/
theorem walk?_ascending (hpos : 0 < step.getD 1) :
    walk? (step.getD 1) (clamp 0 length (Selector.normalized length (stop.getD length)))
        (clamp 0 length (Selector.normalized length (start.getD 0))) =
      if ∀ k ∈ Selector.places start stop step length, Holds (k + step.getD 1) then
        some (Selector.places start stop step length)
      else none := by
  have hgap (lower upper : Int) : upper - lower = gap (step.getD 1) upper lower := by
    rw [gap, if_pos hpos]
  unfold Selector.places
  simp only [if_pos hpos, clamp_eq, hgap]
  apply walk?_eq (by omega)
  · intro _
    exact Int.le_max_left _ _
  · omega

/-- From the upper bound of a slice to the lower one. -/
theorem walk?_descending (hneg : step.getD 1 < 0) {first last : Int}
    (hfirst : start.elim (some ((length : Int) - 1)) (fromStart? length) = some first)
    (hlast : stop.elim (some (-1)) (fromStart? length) = some last) :
    walk? (step.getD 1) (clamp (-1) (length - 1) last) (clamp (-1) (length - 1) first) =
      if ∀ k ∈ Selector.places start stop step length, Holds (k + step.getD 1) then
        some (Selector.places start stop step length)
      else none := by
  have hpos : ¬ 0 < step.getD 1 := by omega
  have hgap (lower upper : Int) : upper - lower = gap (step.getD 1) lower upper := by
    rw [gap, if_neg hpos]
  unfold Selector.places
  simp only [if_neg hpos, if_pos hneg, ← clamp_of_descending (by omega) hfirst,
    ← clamp_of_descending (by omega) hlast, hgap (clamp (-1) (length - 1) last)]
  apply walk?_eq (by omega)
  · omega
  · intro _
    exact Int.le_max_left _ _

/-- The places that evaluation in words comes to are those of the slice. -/
theorem eq_places_of_places? {ks : List Nat} (h : places? start stop step length = some ks) :
    ks = Selector.places start stop step length := by
  have hall {p : Prop} [Decidable p] {js : List Nat}
      (hif : (if p then some js else none) = some ks) : ks = js := by
    split at hif
    · exact (Option.some.inj hif).symm
    · cases hif
  simp only [places?] at h
  by_cases hpos : 0 < step.getD 1
  · rw [if_pos hpos] at h
    obtain ⟨lower, hlower, h⟩ := Option.bind_eq_some_iff.mp h
    obtain ⟨upper, hupper, h⟩ := Option.bind_eq_some_iff.mp h
    rw [eq_normalized_of_fromStart? hlower, eq_normalized_of_fromStart? hupper,
      walk?_ascending hpos] at h
    exact hall h
  · rw [if_neg hpos] at h
    by_cases hneg : step.getD 1 < 0
    · rw [if_pos hneg] at h
      obtain ⟨top, htop, h⟩ := Option.bind_eq_some_iff.mp h
      obtain rfl := eq_add_of_add? htop
      obtain ⟨first, hfirst, h⟩ := Option.bind_eq_some_iff.mp h
      obtain ⟨last, hlast, h⟩ := Option.bind_eq_some_iff.mp h
      rw [← Int.sub_eq_add_neg] at hfirst h
      rw [walk?_descending hneg hfirst hlast] at h
      exact hall h
    · rw [if_neg hneg] at h
      simp only [Selector.places, if_neg hpos, if_neg hneg]
      exact (Option.some.inj h).symm

theorem holds_next {stride : Int} (hs : Holds stride) (k : Nat) :
    Holds (k + stride) ↔ k + stride < 2 ^ 63 := by
  unfold Holds at *
  omega

theorem getD_holds {bound : Option Int} (h : ∀ i ∈ bound, Holds i) {missing : Int}
    (hm : Holds missing) : Holds (bound.getD missing) := by
  cases bound with
  | none => exact hm
  | some i => exact h i rfl

theorem elim_fromStart? (hl : length < 2 ^ 62) {bound : Option Int} (h : ∀ i ∈ bound, Holds i)
    (missing : Int) : ∃ i, bound.elim (some missing) (fromStart? length) = some i := by
  cases bound with
  | none => exact ⟨missing, rfl⟩
  | some i => exact ⟨_, fromStart?_eq hl (h i rfl)⟩

/-- A slice is, unless the step behind one of its places leads out of the words. -/
theorem places?_eq (hl : length < 2 ^ 62) (hstart : ∀ i ∈ start, Holds i)
    (hstop : ∀ i ∈ stop, Holds i) (hstep : ∀ i ∈ step, Holds i) :
    places? start stop step length =
      if ∀ k ∈ Selector.places start stop step length, k + step.getD 1 < 2 ^ 63 then
        some (Selector.places start stop step length)
      else none := by
  have hstride : Holds (step.getD 1) := getD_holds hstep (by decide)
  simp only [← holds_next hstride, places?]
  by_cases hpos : 0 < step.getD 1
  · have hlength : Holds length := by
      unfold Holds
      omega
    rw [if_pos hpos, ← walk?_ascending hpos, fromStart?_eq hl (getD_holds hstart (by decide)),
      fromStart?_eq hl (getD_holds hstop hlength)]
    rfl
  · rw [if_neg hpos]
    by_cases hneg : step.getD 1 < 0
    · have htop : add? length (-1) = some ((length : Int) - 1) := by
        apply add?_eq
        unfold Holds
        omega
      obtain ⟨first, hfirst⟩ := elim_fromStart? hl hstart (length - 1)
      obtain ⟨last, hlast⟩ := elim_fromStart? hl hstop (-1)
      simp only [if_pos hneg, Option.bind_eq_bind, Option.bind_some, htop, hfirst, hlast]
      exact walk?_descending hneg hfirst hlast
    · simp [Selector.places, hpos, hneg]

theorem holds_of_inIndexRange {i : Int} (h : InIndexRange i) : Holds i := by
  obtain ⟨hlow, hhigh⟩ := h
  have hmax : maxIndex = 2 ^ 53 - 1 := rfl
  unfold Holds
  omega

/-- In the range of the numbers that a query text may have, no step leads out of the words. -/
theorem next_of_inIndexRange (hl : length < 2 ^ 62) (hstep : ∀ i ∈ step, InIndexRange i) {k : Nat}
    (hk : k ∈ Selector.places start stop step length) : k + step.getD 1 < 2 ^ 63 := by
  have hlt := Selector.lt_of_mem_places hk
  have hmax : maxIndex = 2 ^ 53 - 1 := rfl
  have hstride : step.getD 1 ≤ maxIndex := by
    cases step with
    | none => decide
    | some i => exact (hstep i rfl).2
  omega

/-- A slice lists the indices that it takes, in the direction of its step and each once. None of its
sums leaves the words, and the array has an item at each index. -/
theorem places?_slice (hl : length < 2 ^ 62) (hstart : ∀ i ∈ start, InIndexRange i)
    (hstop : ∀ i ∈ stop, InIndexRange i) (hstep : ∀ i ∈ step, InIndexRange i) :
    ∃ ks, places? start stop step length = some ks ∧ Selector.places start stop step length = ks ∧
      (0 < step.getD 1 → ks.Pairwise (· < ·)) ∧ (step.getD 1 < 0 → ks.Pairwise (· > ·)) ∧
      (step.getD 1 = 0 → ks = []) ∧
      ∀ k : Nat, k ∈ ks ↔ k < length ∧ Selector.InSlice start stop step length k := by
  have hplaces : places? start stop step length =
      some (Selector.places start stop step length) := by
    rw [places?_eq hl (fun i hi => holds_of_inIndexRange (hstart i hi))
      (fun i hi => holds_of_inIndexRange (hstop i hi))
      (fun i hi => holds_of_inIndexRange (hstep i hi)), if_pos]
    intro k hk
    exact next_of_inIndexRange hl hstep hk
  obtain ⟨hup, hdown, hzero⟩ := Selector.places_pairwise start stop step length
  refine ⟨_, hplaces, rfl, hup, hdown, hzero, ?_⟩
  intro k
  rw [← (Selector.places_spec start stop step length).2 k]
  exact ⟨fun hk => ⟨Selector.lt_of_mem_places hk, hk⟩, And.right⟩

/-- From beyond the end of five items to beyond their front, each second one. -/
theorem places?_slice_descending :
    InIndexRange maxIndex ∧ InIndexRange (-maxIndex) ∧ InIndexRange (-2) ∧
    ∃ ks, places? (some maxIndex) (some (-maxIndex)) (some (-2)) 5 = some ks ∧ ks = [4, 2, 0] ∧
      ks.Pairwise (· > ·) ∧ ∀ k : Nat, k ∈ ks ↔
        k < 5 ∧ Selector.InSlice (some maxIndex) (some (-maxIndex)) (some (-2)) 5 k := by
  have hmax : InIndexRange maxIndex := ⟨by decide, by decide⟩
  have hmin : InIndexRange (-maxIndex) := ⟨by decide, by decide⟩
  have htwo : InIndexRange (-2) := ⟨by decide, by decide⟩
  have hlength : 5 < 2 ^ 62 := by decide
  have hstart : ∀ i ∈ some maxIndex, InIndexRange i := by simpa using hmax
  have hstop : ∀ i ∈ some (-maxIndex), InIndexRange i := by simpa using hmin
  have hstep : ∀ i ∈ some (-2), InIndexRange i := by simpa using htwo
  obtain ⟨ks, hks, hplaces, -, hdown, -, hmem⟩ := places?_slice hlength hstart hstop hstep
  have hthree : Selector.places (some maxIndex) (some (-maxIndex)) (some (-2)) 5 = [4, 2, 0] := by
    decide
  exact ⟨hmax, hmin, htwo, ks, hks, hplaces.symm.trans hthree, hdown (by decide), hmem⟩

end Word
end JsonQuery
