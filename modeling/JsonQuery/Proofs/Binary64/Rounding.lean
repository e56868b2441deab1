import Mathlib
import JsonQuery.Binary64.Shortest

namespace JsonQuery
namespace Binary64

theorem magnitude_eq (x : Binary64) : x.magnitude = x.unit * 2 ^ 52 + x.significand := by
  unfold significand unit
  omega

theorem significand_lt (x : Binary64) : x.significand < 2 ^ 53 := by
  unfold significand unit
  omega

/-- Only the numbers of the least unit can lack the hidden bit. -/
theorem le_significand {x : Binary64} (h : 0 < x.unit) : 2 ^ 52 ≤ x.significand := by
  unfold significand unit at *
  omega

theorem significand_pos {x : Binary64} (h : x.magnitude ≠ 0) : 0 < x.significand := by
  unfold significand unit
  omega

theorem unit_le (x : Binary64) : x.unit ≤ 2045 := by
  have := x.finite
  unfold unit
  omega

/-- A quotient rounds to `m` if it lies at most a half away from it, and at exactly a half only
if `m` is even. -/
theorem roundHalfEven_eq {n d m : Nat} (hd : 0 < d) (hl : 2 * (m * d) ≤ 2 * n + d)
    (hh : 2 * n ≤ 2 * (m * d) + d)
    (tie : m % 2 = 0 ∨ 2 * (m * d) < 2 * n + d ∧ 2 * n < 2 * (m * d) + d) :
    roundHalfEven n d = m := by
  have hn : d * (n / d) + n % d = n := Nat.div_add_mod n d
  have hr : n % d < d := Nat.mod_lt n hd
  have hup : m ≤ n / d + 1 := by
    by_contra hcon
    have hmul : d * (n / d + 2) ≤ m * d := by
      rw [Nat.mul_comm m d]
      exact Nat.mul_le_mul_left d (by omega)
    rw [Nat.mul_add] at hmul
    omega
  have hdown : n / d ≤ m := by
    by_contra hcon
    have hmul : m * d + d ≤ d * (n / d) := by
      rw [← Nat.succ_mul, Nat.mul_comm]
      exact Nat.mul_le_mul_left d (by omega)
    omega
  unfold roundHalfEven
  obtain hm | hm : n / d = m ∨ n / d + 1 = m := by omega
  · have hmd : m * d = d * (n / d) := by rw [hm, Nat.mul_comm]
    cases hc : compare (2 * (n % d)) d with
    | lt => exact hm
    | eq =>
      have := Nat.compare_eq_eq.mp hc
      show n / d + n / d % 2 = m
      omega
    | gt =>
      have := Nat.compare_eq_gt.mp hc
      omega
  · have hmd : m * d = d * (n / d) + d := by rw [← hm, Nat.add_mul, Nat.one_mul, Nat.mul_comm]
    cases hc : compare (2 * (n % d)) d with
    | lt =>
      have := Nat.compare_eq_lt.mp hc
      omega
    | eq =>
      have := Nat.compare_eq_eq.mp hc
      show n / d + n / d % 2 = m
      omega
    | gt => exact hm

theorem unitOf_le {n d u : Nat} (hd : 0 < d) (h : n < 2 ^ 53 * (d * 2 ^ u)) :
    unitOf n d ≤ u := by
  have hq : n / d < 2 ^ (53 + u) := by
    rw [Nat.div_lt_iff_lt_mul hd, Nat.pow_add]
    calc n < 2 ^ 53 * (d * 2 ^ u) := h
      _ = 2 ^ 53 * 2 ^ u * d := by rw [Nat.mul_comm d, Nat.mul_assoc]
  unfold unitOf
  by_cases h0 : n / d = 0
  · simp [h0]
  · have := (Nat.log2_lt h0).mpr hq
    omega

theorem le_unitOf {n d u : Nat} (hd : 0 < d) (h : 2 ^ 52 * (d * 2 ^ u) ≤ n) :
    u ≤ unitOf n d := by
  have hq : 2 ^ (52 + u) ≤ n / d := by
    rw [Nat.le_div_iff_mul_le hd, Nat.pow_add]
    calc 2 ^ 52 * 2 ^ u * d = 2 ^ 52 * (d * 2 ^ u) := by rw [Nat.mul_comm d, Nat.mul_assoc]
      _ ≤ n := h
  have h0 : n / d ≠ 0 := fun h0 => by
    rw [h0] at hq
    exact absurd hq (Nat.not_le_of_gt (Nat.two_pow_pos _))
  have := (Nat.le_log2 h0).mpr hq
  unfold unitOf
  omega

/-- The distance to the lower end of an interval, in quarters of a unit. -/
def below (x : Binary64) : Nat := if x.significand = 2 ^ 52 ∧ 0 < x.unit then 1 else 2

theorem below_le (x : Binary64) : x.below ≤ 2 := by
  unfold below
  split <;> decide

theorem below_eq_one {x : Binary64} (hm : x.significand = 2 ^ 52) (hu : 0 < x.unit) :
    x.below = 1 := if_pos ⟨hm, hu⟩

/-- The integer `n` lies at most `b` quarters of `D` below `m * D` and at most two above it, and
not at either end if `m` is odd. -/
structure Near (m b n D : Nat) : Prop where
  low : 4 * (m * D) ≤ 4 * n + b * D
  high : 4 * n ≤ 4 * (m * D) + 2 * D
  tie : m % 2 = 0 ∨ 4 * (m * D) < 4 * n + b * D ∧ 4 * n < 4 * (m * D) + 2 * D

namespace Near

theorem roundHalfEven_self {m b n D : Nat} (h : Near m b n D) (hb : b ≤ 2) (hD : 0 < D) :
    roundHalfEven n D = m := by
  obtain ⟨hl, hh, tie⟩ := h
  have hbD : b * D ≤ 2 * D := Nat.mul_le_mul_right D hb
  exact roundHalfEven_eq hD (by omega) (by omega) (by omega)

/-- Less than a quarter below a power of two, what is left in halves of `D` still rounds up. -/
theorem roundHalfEven_carry {n E : Nat} (h : Near (2 ^ 52) 1 n (2 * E)) (hE : 0 < E)
    (hn : n < 2 ^ 52 * (2 * E)) : roundHalfEven n E = 2 ^ 53 := by
  obtain ⟨hl, -, -⟩ := h
  exact roundHalfEven_eq hE (by omega) (by omega) (.inl (by decide))

end Near

/-- What it means for a quotient to lie in the interval, in the number's own unit. -/
theorem near_of_holds {x : Binary64} {n d : Nat} (h : x.interval.holds (4 * n) d = true) :
    Near x.significand x.below n (d * 2 ^ x.unit) := by
  have comm (a : Nat) : a * 2 ^ x.unit * d = a * (d * 2 ^ x.unit) := by
    rw [Nat.mul_assoc, Nat.mul_comm d]
  unfold interval Interval.holds at h
  simp only [comm, beq_iff_eq, Nat.sub_mul, Nat.add_mul, Nat.mul_assoc 4] at h
  change (if x.significand % 2 = 0 then
    decide (_ - x.below * (d * 2 ^ x.unit) ≤ 4 * n ∧ _) else
    decide (_ - x.below * (d * 2 ^ x.unit) < 4 * n ∧ _)) = true at h
  split at h
  · rename_i heven
    obtain ⟨hl, hh⟩ := of_decide_eq_true h
    exact ⟨by omega, hh, .inl heven⟩
  · obtain ⟨hl, hh⟩ := of_decide_eq_true h
    exact ⟨by omega, Nat.le_of_lt hh, .inr ⟨by omega, hh⟩⟩

/-- The word of a quotient that lies in the interval of a number is the word of that number. Just
below a power of two the quotient has the unit before, and rounds up to the next. -/
theorem word_eq {x : Binary64} {n d : Nat} (hd : 0 < d)
    (h : x.interval.holds (4 * n) d = true) :
    unitOf n d * 2 ^ 52 + significandOf n d = x.magnitude := by
  have hnear := near_of_holds h
  have hD : 0 < d * 2 ^ x.unit := Nat.mul_pos hd (Nat.two_pow_pos _)
  have hbD := Nat.mul_le_mul_right (d * 2 ^ x.unit) x.below_le
  have hunit : unitOf n d ≤ x.unit := by
    have hm : x.significand ≤ 2 ^ 53 - 1 := Nat.le_sub_one_of_lt x.significand_lt
    have hmD := Nat.mul_le_mul_right (d * 2 ^ x.unit) hm
    have := hnear.high
    exact unitOf_le hd (by omega)
  rw [magnitude_eq x]
  by_cases hsame : unitOf n d = x.unit
  · have hs : significandOf n d = x.significand := by
      unfold significandOf
      rw [hsame]
      exact hnear.roundHalfEven_self x.below_le hD
    rw [hsame, hs]
  · have hless : n < 2 ^ 52 * (d * 2 ^ x.unit) := by
      by_contra hcon
      exact hsame (Nat.le_antisymm hunit (le_unitOf hd (by omega)))
    have hu : 0 < x.unit := by omega
    have hm : x.significand = 2 ^ 52 := by
      by_contra hne
      have hmD := Nat.mul_le_mul_right (d * 2 ^ x.unit)
        (show 2 ^ 52 + 1 ≤ x.significand by have := le_significand hu; omega)
      have := hnear.low
      omega
    rw [hm, below_eq_one hm hu] at hnear
    obtain ⟨v, hv⟩ : ∃ v, x.unit = v + 1 := ⟨x.unit - 1, by omega⟩
    have hE : d * 2 ^ x.unit = 2 * (d * 2 ^ v) := by
      rw [hv, Nat.pow_succ, Nat.mul_comm 2, Nat.mul_assoc]
    rw [hE] at hnear hless hD
    have hv' : unitOf n d = v := by
      have := hnear.low
      exact Nat.le_antisymm (by omega) (le_unitOf hd (by omega))
    have hs : significandOf n d = 2 ^ 53 := by
      unfold significandOf
      rw [hv']
      exact hnear.roundHalfEven_carry (by omega) hless
    rw [hv', hs, hm, hv]
    omega

/-- Units of `2 ^ -1076` are quarters of the least unit. -/
theorem mul_two_pow {j k : Nat} (h : j = k + 2) (n : Nat) : n * 2 ^ j = 4 * (n * 2 ^ k) := by
  rw [h, Nat.pow_add, Nat.mul_comm 4, Nat.mul_assoc]

/-- A quotient in the interval of a number is rounded to it. -/
theorem ofRatio?_eq {x : Binary64} {num den : Nat} (hd : 0 < den)
    (h : x.interval.holds (num * 2 ^ 1076) den = true) :
    ofRatio? x.negative num den = some x := by
  rw [mul_two_pow (show 1076 = 1074 + 2 from rfl) num] at h
  unfold ofRatio?
  simp only [word_eq hd h, x.finite, dite_true]

/-- Both terms of a quotient can be multiplied by the same. -/
theorem Interval.holds_mul (i : Interval) (n d : Nat) {c : Nat} (hc : 0 < c) :
    i.holds (n * c) (d * c) = i.holds n d := by
  have comm (a : Nat) : a * (d * c) = a * d * c := (Nat.mul_assoc _ _ _).symm
  unfold holds
  simp only [comm, Nat.mul_le_mul_right_iff hc, Nat.mul_lt_mul_right hc]

theorem roundHalfEven_le (n d : Nat) : roundHalfEven n d ≤ n / d + 1 := by
  unfold roundHalfEven
  split
  · exact Nat.le_succ _
  · exact Nat.le_refl _
  · omega

/-- A significand has 53 bits, or is the next power of two. -/
theorem significandOf_le (n d : Nat) : significandOf n d ≤ 2 ^ 53 := by
  have hround := roundHalfEven_le n (d * 2 ^ unitOf n d)
  have hquotient : n / (d * 2 ^ unitOf n d) < 2 ^ 53 := by
    rw [← Nat.div_div_eq_div_mul, Nat.div_lt_iff_lt_mul (Nat.two_pow_pos _), ← Nat.pow_add]
    refine Nat.lt_of_lt_of_le Nat.lt_log2_self (Nat.pow_le_pow_right (by decide) ?_)
    unfold unitOf
    omega
  exact Nat.le_trans hround hquotient

/-- Integers of 64 bits are finite as floats. -/
theorem ofRatio?_word {n : Nat} (h : n < 2 ^ 64) (negative : Bool) :
    ∃ x, ofRatio? negative n 1 = some x := by
  have hscaled (k : Nat) : n * 2 ^ k < 2 ^ 53 * (1 * 2 ^ (k + 11)) := by
    have hscale := Nat.mul_lt_mul_of_pos_right h (Nat.two_pow_pos k)
    rw [Nat.one_mul, Nat.pow_add]
    omega
  have hunit : unitOf (n * 2 ^ 1074) 1 ≤ 1074 + 11 := unitOf_le Nat.one_pos (hscaled 1074)
  have hsignificand := significandOf_le (n * 2 ^ 1074) 1
  unfold ofRatio?
  simp only
  generalize unitOf (n * 2 ^ 1074) 1 = u at *
  generalize significandOf (n * 2 ^ 1074) 1 = m at *
  rw [dif_pos (by omega)]
  exact ⟨_, rfl⟩

end Binary64
end JsonQuery
