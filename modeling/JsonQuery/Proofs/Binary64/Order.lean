import JsonQuery.Proofs.Binary64.Rounding

namespace JsonQuery
namespace Binary64

/-- The rational number that a float denotes. -/
def toRat (x : Binary64) : ℚ := x.scaled / 2 ^ 1074

theorem compare_toRat (x y : Binary64) : compare x.toRat y.toRat = compare x.scaled y.scaled := by
  have hmono : StrictMono (fun i : Int => (i : ℚ) / 2 ^ 1074) :=
    fun _ _ h => div_lt_div_of_pos_right (Int.cast_lt.mpr h) (by positivity)
  rw [← cmp_eq_compare, ← cmp_eq_compare]
  exact hmono.cmp_map_eq x.scaled y.scaled

theorem le_roundHalfEven (n d : Nat) : n / d ≤ roundHalfEven n d := by
  unfold roundHalfEven
  split <;> omega

theorem roundHalfEven_mono {n m : Nat} (h : n ≤ m) (d : Nat) :
    roundHalfEven n d ≤ roundHalfEven m d := by
  rcases Nat.lt_or_eq_of_le (Nat.div_le_div_right (c := d) h) with hlt | heq
  · calc roundHalfEven n d ≤ n / d + 1 := roundHalfEven_le n d
      _ ≤ m / d := hlt
      _ ≤ roundHalfEven m d := le_roundHalfEven m d
  · -- Between the same neighbours the larger remainder decides for the upper one first.
    have hn : d * (n / d) + n % d = n := Nat.div_add_mod n d
    have hm : d * (m / d) + m % d = m := Nat.div_add_mod m d
    rw [heq] at hn
    unfold roundHalfEven
    rw [heq]
    split <;> split <;> simp only [Nat.compare_eq_lt, Nat.compare_eq_eq, Nat.compare_eq_gt] at * <;>
      omega

theorem unitOf_mono {n m : Nat} (h : n ≤ m) (d : Nat) : unitOf n d ≤ unitOf m d := by
  unfold unitOf
  have hlog : (n / d).log2 ≤ (m / d).log2 := by
    rw [Nat.log2_eq_log_two, Nat.log2_eq_log_two]
    exact Nat.log_mono_right (Nat.div_le_div_right h)
  omega

/-- Above the least unit the hidden bit is set. -/
theorem le_significandOf {n d : Nat} (h : 0 < unitOf n d) : 2 ^ 52 ≤ significandOf n d := by
  have hquotient : 2 ^ 52 ≤ n / (d * 2 ^ unitOf n d) := by
    have hlog : 52 + unitOf n d = (n / d).log2 := by
      unfold unitOf at *
      omega
    have hne : n / d ≠ 0 := by
      intro hzero
      rw [hzero, Nat.log2_zero] at hlog
      omega
    rw [← Nat.div_div_eq_div_mul, Nat.le_div_iff_mul_le (Nat.two_pow_pos _), ← Nat.pow_add, hlog]
    exact Nat.log2_self_le hne
  exact Nat.le_trans hquotient (le_roundHalfEven ..)

/-- The size of a number by the unit and the significand that its word was put together from. -/
theorem size_of_word {x : Binary64} {u m : Nat} (hx : x.magnitude = u * 2 ^ 52 + m)
    (hm : m ≤ 2 ^ 53) (hu : 0 < u → 2 ^ 52 ≤ m) : x.significand * 2 ^ x.unit = m * 2 ^ u := by
  unfold significand unit
  rw [hx]
  rcases Nat.lt_or_ge m (2 ^ 52) with hsmall | hnormal
  · -- A subnormal number, or zero.
    obtain rfl : u = 0 := by omega
    have hfield : (0 * 2 ^ 52 + m) / 2 ^ 52 - 1 = 0 := by omega
    rw [hfield]
    omega
  · rcases Nat.lt_or_eq_of_le hm with hfit | rfl
    · have hfield : (u * 2 ^ 52 + m) / 2 ^ 52 - 1 = u := by omega
      rw [hfield]
      congr 1
      omega
    · -- Rounded up into the next unit.
      have hfield : (u * 2 ^ 52 + 2 ^ 53) / 2 ^ 52 - 1 = u + 1 := by omega
      have hsignificand : u * 2 ^ 52 + 2 ^ 53 - (u + 1) * 2 ^ 52 = 2 ^ 52 := by omega
      rw [hfield, hsignificand, Nat.pow_succ]
      omega

/-- The float that an integer is read as is the one that it is compared as. -/
theorem scaled_of_ofRatio? {i : Int} {x : Binary64}
    (h : ofRatio? (decide (i < 0)) i.natAbs 1 = some x) : x.scaled = scaledOfInt i := by
  obtain ⟨hfinite, hx⟩ := Option.dite_none_right_eq_some.mp h
  have hmagnitude : x.magnitude = unitOf (i.natAbs * 2 ^ 1074) 1 * 2 ^ 52 +
      significandOf (i.natAbs * 2 ^ 1074) 1 := by
    rw [← Option.some.inj hx]
  have hnegative : x.negative = decide (i < 0) := by
    rw [← Option.some.inj hx]
  have hsize : (x.significand : Int) * 2 ^ x.unit =
      significandOf (i.natAbs * 2 ^ 1074) 1 * 2 ^ unitOf (i.natAbs * 2 ^ 1074) 1 := by
    exact_mod_cast size_of_word hmagnitude (significandOf_le _ _) le_significandOf
  simp only [scaled, scaledOfInt, hsize, hnegative, decide_eq_true_eq]

/-- Rounding to 53 bits keeps the order, also where the unit changes. -/
theorem rounded_mono {n m : Nat} (h : n ≤ m) (d : Nat) :
    significandOf n d * 2 ^ unitOf n d ≤ significandOf m d * 2 ^ unitOf m d := by
  rcases Nat.lt_or_eq_of_le (unitOf_mono h d) with hlt | heq
  · calc significandOf n d * 2 ^ unitOf n d
        ≤ 2 ^ 53 * 2 ^ unitOf n d := Nat.mul_le_mul_right _ (significandOf_le n d)
      _ = 2 ^ 52 * 2 ^ (unitOf n d + 1) := by rw [← Nat.pow_add, ← Nat.pow_add]; congr 1; omega
      _ ≤ 2 ^ 52 * 2 ^ unitOf m d := Nat.mul_le_mul_left _ (Nat.pow_le_pow_right (by decide) hlt)
      _ ≤ significandOf m d * 2 ^ unitOf m d :=
        Nat.mul_le_mul_right _ (le_significandOf (Nat.zero_lt_of_lt hlt))
  · unfold significandOf
    rw [heq]
    exact Nat.mul_le_mul_right _ (roundHalfEven_mono h _)

/-- The float nearest a larger integer is not smaller. -/
theorem scaledOfInt_mono {i j : Int} (h : i ≤ j) : scaledOfInt i ≤ scaledOfInt j := by
  have hsize {a b : Nat} (h : a ≤ b) :
      ((significandOf (a * 2 ^ 1074) 1 : Nat) : Int) * 2 ^ unitOf (a * 2 ^ 1074) 1 ≤
        (significandOf (b * 2 ^ 1074) 1 : Nat) * 2 ^ unitOf (b * 2 ^ 1074) 1 := by
    exact_mod_cast rounded_mono (Nat.mul_le_mul_right (2 ^ 1074) h) 1
  have hnonneg (a : Nat) :
      0 ≤ ((significandOf (a * 2 ^ 1074) 1 : Nat) : Int) * 2 ^ unitOf (a * 2 ^ 1074) 1 :=
    Int.mul_nonneg (Int.natCast_nonneg _) (Int.pow_nonneg (by decide))
  unfold scaledOfInt
  by_cases hi : i < 0
  · by_cases hj : j < 0
    · simp only [if_pos hi, if_pos hj]
      exact Int.neg_le_neg (hsize (by omega))
    · simp only [if_pos hi, if_neg hj]
      have hleft := hnonneg i.natAbs
      have hright := hnonneg j.natAbs
      omega
  · have hj : ¬ j < 0 := by omega
    simp only [if_neg hi, if_neg hj]
    exact hsize (by omega)

end Binary64
end JsonQuery
