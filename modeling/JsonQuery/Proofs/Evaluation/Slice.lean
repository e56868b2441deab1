import Mathlib
import JsonQuery.Query.Evaluation

namespace JsonQuery
namespace Selector

/-- A bound of a slice counted from the start. -/
def normalized (length : Nat) (i : Int) : Int := if 0 ≤ i then i else length + i

/-- The indices that a slice takes, by its bounds: moved into the array, the one where the slice
begins belongs to it and the other does not. -/
def InSlice (start stop step : Option Int) (length : Nat) (i : Int) : Prop :=
  let stride := step.getD 1
  if 0 < stride then
    let lower := min (max (normalized length (start.getD 0)) 0) length
    let upper := min (max (normalized length (stop.getD length)) 0) length
    lower ≤ i ∧ i < upper ∧ stride ∣ i - lower
  else
    let upper := min (max (normalized length (start.getD (length - 1))) (-1)) (length - 1)
    let lower := min (max (normalized length (stop.getD (-length - 1))) (-1)) (length - 1)
    stride < 0 ∧ lower < i ∧ i ≤ upper ∧ stride ∣ upper - i

theorem bound_eq {low high : Int} (h : low ≤ high) (length : Nat) (i : Int) :
    bound low high length i = min (max (normalized length i) low) high := by
  unfold bound normalized
  split <;> split <;> omega

theorem lt_count {step distance : Int} (hs : step ≠ 0) (k : Nat) :
    k < ((distance + (step.natAbs - 1)) / step.natAbs).toNat ↔ k * step.natAbs < distance := by
  have hpos : (0 : Int) < step.natAbs := by omega
  rw [Int.lt_toNat, ← Int.add_one_le_iff, Int.le_ediv_iff_mul_le hpos, Int.add_mul]
  omega

theorem mem_progression {first step distance : Int} (hs : step ≠ 0) {x : Nat} :
    x ∈ progression first step distance ↔
      ∃ k : Nat, k * step.natAbs < distance ∧ (first + k * step).toNat = x := by
  simp only [progression, List.mem_map, List.mem_range, lt_count hs]

/-- Numbers that are not cut off at zero keep the direction of the step. -/
theorem progression_pairwise {first step distance : Int}
    (h : ∀ k : Nat, k * step.natAbs < distance → 0 ≤ first + k * step) :
    (0 < step → (progression first step distance).Pairwise (· < ·)) ∧
    (step < 0 → (progression first step distance).Pairwise (· > ·)) := by
  have hpairs (hs : step ≠ 0) {R : Nat → Nat → Prop} (hR : ∀ j k : Nat, j < k →
      0 ≤ first + j * step → 0 ≤ first + k * step →
        R (first + j * step).toNat (first + k * step).toNat) :
      (progression first step distance).Pairwise R := by
    unfold progression
    apply List.pairwise_map.mpr
    apply List.pairwise_lt_range.imp_of_mem
    intro j k hj hk hjk
    rw [List.mem_range, lt_count hs] at hj hk
    exact hR j k hjk (h j hj) (h k hk)
  constructor
  · intro hs
    apply hpairs (by omega)
    intro j k hjk hj hk
    have hlt : (j : Int) * step < k * step := Int.mul_lt_mul_of_pos_right (by omega) hs
    omega
  · intro hs
    apply hpairs (by omega)
    intro j k hjk hj hk
    have hlt : (k : Int) * step < j * step := Int.mul_lt_mul_of_neg_right (by omega) hs
    omega

theorem exists_multiple {stride d : Int} (hs : stride ≠ 0) (hd : 0 ≤ d) :
    stride ∣ d ↔ ∃ k : Nat, d = k * stride.natAbs := by
  rw [← Int.natAbs_dvd]
  constructor
  · intro hleft
    rcases hleft with ⟨c, hc⟩
    have hc0 : 0 ≤ c := by
      by_contra hneg
      have := Int.mul_neg_of_pos_of_neg (show 0 < (stride.natAbs : Int) by omega)
        (show c < 0 by omega)
      omega
    exact ⟨c.toNat, by rw [hc, Int.toNat_of_nonneg hc0, Int.mul_comm]⟩
  · intro hright
    rcases hright with ⟨k, hk⟩
    exact ⟨k, by rw [hk, Int.mul_comm]⟩

/-- A bound of a descending slice. A missing one is in its place already. -/
theorem bound_descending {length : Nat} {default place : Int}
    (h : min (max (normalized length default) (-1)) (length - 1) = place) (i? : Option Int) :
    (i?.map (bound (-1) (length - 1) length)).getD place =
      min (max (normalized length (i?.getD default)) (-1)) (length - 1) := by
  cases i? with
  | none => exact h.symm
  | some i => exact bound_eq (by omega) length i

theorem first_of_descending (start : Option Int) (length : Nat) :
    (start.map (bound (-1) (length - 1) length)).getD (length - 1) =
      min (max (normalized length (start.getD (length - 1))) (-1)) (length - 1) :=
  bound_descending (by unfold normalized; split <;> omega) start

theorem last_of_descending (stop : Option Int) (length : Nat) :
    (stop.map (bound (-1) (length - 1) length)).getD (-1) =
      min (max (normalized length (stop.getD (-length - 1))) (-1)) (length - 1) :=
  bound_descending (by unfold normalized; split <;> omega) stop

section Places

variable (start stop step : Option Int) (length : Nat)

/-- A slice goes by steps from its first place on, and not below the front of the array. -/
theorem places_eq_progression {stride : Int} (hstride : step.getD 1 = stride) (hs : stride ≠ 0) :
    ∃ first distance, places start stop step length = progression first stride distance ∧
      ∀ k : Nat, k * stride.natAbs < distance → 0 ≤ first + k * stride := by
  unfold places
  simp only [hstride]
  split
  · rename_i hpos
    refine ⟨_, _, rfl, ?_⟩
    intro k _
    have hfirst : 0 ≤ bound 0 length length (start.getD 0) := Int.le_max_left _ _
    have hway : 0 ≤ (k : Int) * stride := Int.mul_nonneg (by omega) (by omega)
    omega
  · rw [if_pos (by omega)]
    refine ⟨_, _, rfl, ?_⟩
    intro k hk
    have hlast : -1 ≤ (stop.map (bound (-1) (length - 1) length)).getD (-1) := by
      rw [last_of_descending]
      omega
    have hway : (k : Int) * stride = -(k * stride.natAbs) := by
      rw [← Int.mul_neg]
      congr 1
      omega
    omega

theorem places_pairwise :
    (0 < step.getD 1 → (places start stop step length).Pairwise (· < ·)) ∧
    (step.getD 1 < 0 → (places start stop step length).Pairwise (· > ·)) ∧
    (step.getD 1 = 0 → places start stop step length = []) := by
  refine ⟨?_, ?_, ?_⟩
  · intro hpos
    obtain ⟨first, distance, heq, hfront⟩ :=
      places_eq_progression start stop step length rfl (by omega)
    rw [heq]
    exact (progression_pairwise hfront).1 hpos
  · intro hneg
    obtain ⟨first, distance, heq, hfront⟩ :=
      places_eq_progression start stop step length rfl (by omega)
    rw [heq]
    exact (progression_pairwise hfront).2 hneg
  · intro hzero
    simp [places, hzero]

theorem places_nodup : (places start stop step length).Nodup := by
  obtain ⟨hup, hdown, hzero⟩ := places_pairwise start stop step length
  rcases Int.lt_trichotomy (step.getD 1) 0 with hneg | hnone | hpos
  · exact (hdown hneg).imp Nat.ne_of_gt
  · rw [hzero hnone]
    exact List.nodup_nil
  · exact (hup hpos).imp Nat.ne_of_lt

/-- The places of a slice, each once, are the indices that it takes. -/
theorem places_spec : (places start stop step length).Nodup ∧
    ∀ k : Nat, k ∈ places start stop step length ↔ InSlice start stop step length k := by
  refine ⟨places_nodup start stop step length, fun k => ?_⟩
  unfold places InSlice
  simp only
  generalize step.getD 1 = stride
  split
  · rename_i hpos
    have habs : (stride.natAbs : Int) = stride := by omega
    rw [bound_eq (by omega), bound_eq (by omega)]
    generalize hlower : min (max (normalized length (start.getD 0)) 0) (length : Int) = lower
    generalize min (max (normalized length (stop.getD length)) 0) (length : Int) = upper
    have hl : 0 ≤ lower := by omega
    have hmul (j : Nat) : 0 ≤ (j : Int) * stride := Int.mul_nonneg (by omega) (by omega)
    rw [mem_progression (by omega), habs]
    constructor
    · intro hleft
      rcases hleft with ⟨j, hj, hk⟩
      have := hmul j
      exact ⟨by omega, by omega, j, by rw [Int.mul_comm]; omega⟩
    · intro hright
      rcases hright with ⟨hle, hlt, hdvd⟩
      obtain ⟨j, hj⟩ := (exists_multiple (by omega) (by omega)).mp hdvd
      rw [habs] at hj
      exact ⟨j, by omega, by omega⟩
  · split
    · rename_i hneg
      rw [first_of_descending, last_of_descending]
      generalize min (max (normalized length (start.getD (length - 1))) (-1)) ((length : Int) - 1) =
        upper
      generalize hlower : min (max (normalized length (stop.getD (-length - 1))) (-1))
        ((length : Int) - 1) = lower
      have hl : -1 ≤ lower := by omega
      have hmul (j : Nat) : (j : Int) * stride = -(j * stride.natAbs) := by
        rw [← Int.mul_neg]
        congr 1
        omega
      rw [mem_progression (by omega)]
      constructor
      · intro hleft
        rcases hleft with ⟨j, hj, hk⟩
        have habs : 0 ≤ (j : Int) * stride.natAbs := Int.mul_nonneg (by omega) (by omega)
        rw [hmul j] at hk
        exact ⟨hneg, by omega, by omega,
          (exists_multiple (by omega) (by omega)).mpr ⟨j, by omega⟩⟩
      · intro hright
        rcases hright with ⟨-, hlt, hle, hdvd⟩
        obtain ⟨j, hj⟩ := (exists_multiple (by omega) (by omega)).mp hdvd
        exact ⟨j, by omega, by rw [hmul j]; omega⟩
    · rename_i hneg
      simp [hneg]

variable {start stop step length}

theorem lt_of_mem_places {k : Nat} (h : k ∈ places start stop step length) : k < length := by
  have hslice := ((places_spec start stop step length).2 k).mp h
  unfold InSlice at hslice
  simp only at hslice
  split at hslice <;> omega

end Places

end Selector
end JsonQuery
