import JsonQuery.Proofs.Binary64.Rounding
import JsonQuery.Proofs.Json.Numeral

namespace JsonQuery
namespace Binary64

theorem roundHalfEven_neighbour (n d : Nat) :
    roundHalfEven n d = n / d ∨ roundHalfEven n d = n / d + 1 := by
  unfold roundHalfEven
  split <;> omega

theorem ten_pow_pos (n : Nat) : 0 < 10 ^ n := Nat.pow_pos (by decide)

namespace Interval

/-- Whether the interval holds `digits * 10 ^ exponent`. -/
def HoldsDecimal (i : Interval) (digits : Nat) (exponent : Int) : Prop :=
  i.holds (digits * 10 ^ exponent.toNat * 2 ^ 1076) (10 ^ (-exponent).toNat) = true

/-- Zeros behind the digits, and as much less in the exponent, change nothing. -/
theorem HoldsDecimal.shift {i : Interval} {k : Nat} {e : Int} (h : i.HoldsDecimal k e) (j : Nat) :
    i.HoldsDecimal (k * 10 ^ j) (e - j) := by
  have hpow : 10 ^ j * 10 ^ (e - j).toNat * 10 ^ (-e).toNat =
      10 ^ e.toNat * 10 ^ (-(e - j)).toNat := by
    simp only [← Nat.pow_add]
    congr 1
    omega
  unfold HoldsDecimal at *
  generalize 2 ^ 1076 = p at *
  rw [← holds_mul i _ _ (ten_pow_pos (-e).toNat)]
  rw [← holds_mul i _ _ (ten_pow_pos (-(e - j)).toNat)] at h
  have hterms : k * 10 ^ j * 10 ^ (e - j).toNat * p * 10 ^ (-e).toNat =
      k * 10 ^ e.toNat * p * 10 ^ (-(e - j)).toNat := by
    calc k * 10 ^ j * 10 ^ (e - j).toNat * p * 10 ^ (-e).toNat
        = k * (10 ^ j * 10 ^ (e - j).toNat * 10 ^ (-e).toNat) * p := by ac_rfl
      _ = k * 10 ^ e.toNat * p * 10 ^ (-(e - j)).toNat := by rw [hpow]; ac_rfl
  rwa [hterms, Nat.mul_comm (10 ^ (-(e - j)).toNat)]

theorem onGrid?_holds {i : Interval} {e : Int} {k : Nat} (h : i.onGrid? e = some k) :
    i.HoldsDecimal k e := by
  unfold HoldsDecimal
  unfold onGrid? at h
  generalize 2 ^ 1076 = p at *
  rw [Nat.mul_assoc]
  simp only at h
  split at h
  · rename_i hfloor
    split at h
    · rename_i hnext
      cases h
      rcases roundHalfEven_neighbour (i.value * 10 ^ (-e).toNat) (10 ^ e.toNat * p) with hr | hr
      · rwa [hr]
      · rwa [hr]
    · cases h
      exact hfloor
  · split at h
    · rename_i hnext
      cases h
      exact hnext
    · cases h

/-- A grid on which the value of the interval lies has a hit. -/
theorem onGrid?_isSome {i : Interval} {e : Int} {k scale grid : Nat} (hl : i.low < i.value)
    (hh : i.value < i.high) (hs : (-e).toNat = scale) (hg : e.toNat = grid)
    (hk : i.value * 10 ^ scale = k * (10 ^ grid * 2 ^ 1076)) :
    (i.onGrid? e).isSome = true := by
  have hone : i.holds (1 * i.value) 1 = true := by
    unfold holds
    split
    · exact decide_eq_true (by omega)
    · exact decide_eq_true (by omega)
  have hp : 0 < 2 ^ 1076 := Nat.two_pow_pos 1076
  unfold onGrid?
  rw [hs, hg]
  generalize 2 ^ 1076 = p at *
  have hfloor : i.value * 10 ^ scale / (10 ^ grid * p) = k := by
    rw [hk, Nat.mul_div_cancel _ (Nat.mul_pos (ten_pow_pos _) hp)]
  have hin : i.holds (k * (10 ^ grid * p)) (10 ^ scale) = true := by
    rw [← holds_mul i _ _ (ten_pow_pos scale), Nat.one_mul, Nat.one_mul, hk] at hone
    exact hone
  simp only [hfloor, hin, if_true]
  split <;> rfl

theorem coarsest_holds {i : Interval} (h : (i.onGrid? (-1074)).isSome = true) (steps : Nat) :
    i.HoldsDecimal (i.coarsest (steps + 1)).1 (i.coarsest (steps + 1)).2 := by
  induction steps with
  | zero =>
    obtain ⟨k, hk⟩ := Option.isSome_iff_exists.mp h
    have hleast : ((0 : Nat) : Int) - 1074 = -1074 := rfl
    simp only [coarsest, hleast, hk]
    exact onGrid?_holds hk
  | succ steps ih =>
    rw [coarsest]
    split
    · rename_i hk
      exact onGrid?_holds hk
    · exact ih

end Interval

theorem interval_low (x : Binary64) :
    x.interval.low = (4 * x.significand - x.below) * 2 ^ x.unit := rfl

theorem interval_value (x : Binary64) :
    x.interval.value = 4 * x.significand * 2 ^ x.unit := rfl

theorem interval_high (x : Binary64) :
    x.interval.high = (4 * x.significand + 2) * 2 ^ x.unit := rfl

/-- A number is a multiple of `2 ^ -k`, hence one of `10 ^ -k`. -/
theorem value_eq (x : Binary64) {j k : Nat} (h : j = k + 2) :
    x.interval.value * 10 ^ k = x.significand * 2 ^ x.unit * 5 ^ k * (10 ^ 0 * 2 ^ j) := by
  have h10 : 10 ^ k = 5 ^ k * 2 ^ k := Nat.mul_pow 5 2 k
  rw [interval_value, Nat.pow_zero, Nat.one_mul, mul_two_pow h, h10]
  ac_rfl

theorem onGrid?_least {x : Binary64} (hx : x.magnitude ≠ 0) :
    (x.interval.onGrid? (-1074)).isSome = true := by
  have hpos := significand_pos hx
  have hunit := Nat.two_pow_pos x.unit
  have hb : 0 < x.below := by unfold below; split <;> decide
  have hscale : (-(-1074 : Int)).toNat = 1074 := rfl
  have hgrid : (-1074 : Int).toNat = 0 := rfl
  refine Interval.onGrid?_isSome ?_ ?_ hscale hgrid (x.value_eq (j := 1076) (k := 1074) rfl)
  · rw [interval_low, interval_value]
    exact Nat.mul_lt_mul_of_pos_right (by omega) hunit
  · rw [interval_high, interval_value]
    exact Nat.mul_lt_mul_of_pos_right (by omega) hunit

theorem shortest_eq {x : Binary64} (hx : x.magnitude ≠ 0) :
    x.shortest = ⟨x.negative, (x.interval.coarsest 1384).1, (x.interval.coarsest 1384).2⟩ :=
  if_neg hx

theorem Interval.HoldsDecimal.of_eq {i : Interval} {d : Decimal} {negative : Bool}
    {hit : Nat × Int} (h : i.HoldsDecimal hit.1 hit.2) (hd : d = ⟨negative, hit.1, hit.2⟩) :
    i.HoldsDecimal d.digits d.exponent := by
  subst hd
  exact h

/-- The shortest decimal of a number lies in the number's interval. -/
theorem shortest_holds {x : Binary64} (hx : x.magnitude ≠ 0) :
    x.interval.HoldsDecimal x.shortest.digits x.shortest.exponent := by
  have hsteps (n : Nat) (hn : n ≠ 0) :
      x.interval.HoldsDecimal (x.interval.coarsest n).1 (x.interval.coarsest n).2 := by
    obtain ⟨steps, rfl⟩ := Nat.exists_eq_succ_of_ne_zero hn
    exact Interval.coarsest_holds (onGrid?_least hx) steps
  exact (hsteps 1384 (by decide)).of_eq (shortest_eq hx)

/-- The weak form of what an interval holds. -/
theorem holds_le {i : Interval} {n d : Nat} (h : i.holds n d = true) :
    i.low * d ≤ n ∧ n ≤ i.high * d := by
  unfold Interval.holds at h
  split at h
  · exact of_decide_eq_true h
  · have := of_decide_eq_true h
    exact ⟨Nat.le_of_lt this.1, Nat.le_of_lt this.2⟩

theorem two_le_low {x : Binary64} (hx : x.magnitude ≠ 0) : 2 ≤ x.interval.low := by
  have hpos := significand_pos hx
  have hb := x.below_le
  rw [interval_low]
  exact Nat.le_trans (show 2 ≤ 4 * x.significand - x.below by omega)
    (Nat.le_mul_of_pos_right _ (Nat.two_pow_pos _))

theorem high_le (x : Binary64) {k : Nat} (hk : 2045 ≤ k) :
    x.interval.high ≤ 2 ^ 55 * 2 ^ k := by
  have hlt := x.significand_lt
  rw [interval_high]
  exact Nat.mul_le_mul (by omega) (Nat.pow_le_pow_right (by decide) (Nat.le_trans x.unit_le hk))

theorem digits_lt (n : Nat) : n < 10 ^ (Nat.toDigits 10 n).length :=
  (Nat.length_toDigits_le_iff (by decide) Nat.length_toDigits_pos).mp (Nat.le_refl _)

theorem le_digits {n : Nat} (hn : n ≠ 0) : 10 ^ ((Nat.toDigits 10 n).length - 1) ≤ n := by
  by_cases hlen : (Nat.toDigits 10 n).length - 1 = 0
  · rw [hlen]
    exact Nat.one_le_iff_ne_zero.mpr hn
  · by_contra hcon
    have := (Nat.length_toDigits_le_iff (b := 10) (by decide)
      (Nat.pos_of_ne_zero hlen)).mpr (Nat.lt_of_not_le hcon)
    omega

section Size

variable {x : Binary64} {k : Nat} {e : Int}

theorem holdsDecimal_ne_zero (hx : x.magnitude ≠ 0) (h : x.interval.HoldsDecimal k e) :
    k ≠ 0 := by
  intro hk
  subst hk
  have hle := (holds_le h).1
  have hlow := two_le_low hx
  have := Nat.mul_pos (show 0 < x.interval.low by omega) (ten_pow_pos (-e).toNat)
  simp only [Nat.zero_mul] at hle
  omega

/-- Below `10 ^ -324` there is only zero. -/
theorem not_tiny (hx : x.magnitude ≠ 0) (h : x.interval.HoldsDecimal k e) :
    ¬ e + (Nat.toDigits 10 k).length ≤ -324 := by
  intro htiny
  have hle := (holds_le h).1
  have hbound : 2 ^ 1076 ≤ 2 * 10 ^ 324 := by decide +kernel
  have hdigits := digits_lt k
  generalize (Nat.toDigits 10 k).length = p at *
  have hpow : 10 ^ 324 * (10 ^ p * 10 ^ e.toNat) ≤ 10 ^ (-e).toNat := by
    simp only [← Nat.pow_add]
    exact Nat.pow_le_pow_right (by decide) (by omega)
  have hk : k * 10 ^ e.toNat < 10 ^ p * 10 ^ e.toNat :=
    Nat.mul_lt_mul_of_pos_right hdigits (ten_pow_pos _)
  generalize 10 ^ p * 10 ^ e.toNat = a at *
  generalize 10 ^ 324 = tiny at *
  generalize hp : 2 ^ 1076 = p at *
  have hp0 : 0 < p := hp ▸ Nat.two_pow_pos 1076
  have hlt : a * p < a * p := by
    calc a * p ≤ a * (2 * tiny) := Nat.mul_le_mul_left a hbound
      _ = 2 * (tiny * a) := by ac_rfl
      _ ≤ x.interval.low * 10 ^ (-e).toNat := Nat.mul_le_mul (two_le_low hx) hpow
      _ ≤ k * 10 ^ e.toNat * p := hle
      _ < a * p := Nat.mul_lt_mul_of_pos_right hk hp0
  exact Nat.lt_irrefl _ hlt

/-- Nothing from `10 ^ 310` on is finite. -/
theorem not_huge (hx : x.magnitude ≠ 0) (h : x.interval.HoldsDecimal k e) :
    ¬ 310 < e + (Nat.toDigits 10 k).length := by
  intro hhuge
  have hle := (holds_le h).2
  have hbound : 2 ^ 55 * 2 ^ 2045 < 10 ^ 310 * 2 ^ 1076 := by decide +kernel
  have hhigh := x.high_le (k := 2045) (Nat.le_refl _)
  have hdigits := le_digits (holdsDecimal_ne_zero hx h)
  have hone : 0 < (Nat.toDigits 10 k).length := Nat.length_toDigits_pos
  generalize (Nat.toDigits 10 k).length = p at *
  have hpow : 10 ^ 310 * 10 ^ (-e).toNat ≤ 10 ^ (p - 1) * 10 ^ e.toNat := by
    simp only [← Nat.pow_add]
    exact Nat.pow_le_pow_right (by decide) (by omega)
  have hk : 10 ^ (p - 1) * 10 ^ e.toNat ≤ k * 10 ^ e.toNat := Nat.mul_le_mul_right _ hdigits
  have hd := ten_pow_pos (-e).toNat
  generalize 10 ^ (-e).toNat = d at *
  generalize 10 ^ 310 = huge at *
  generalize 2 ^ 1076 = p at *
  generalize 2 ^ 55 * 2 ^ 2045 = top at *
  have hlt : top * d < top * d := by
    calc top * d < huge * p * d := Nat.mul_lt_mul_of_pos_right hbound hd
      _ = huge * d * p := by ac_rfl
      _ ≤ k * 10 ^ e.toNat * p := Nat.mul_le_mul_right p (Nat.le_trans hpow hk)
      _ ≤ x.interval.high * d := hle
      _ ≤ top * d := Nat.mul_le_mul_right d hhigh
  exact Nat.lt_irrefl _ hlt

end Size

/-- A decimal in the interval of a number is read as the number: it takes neither shortcut, and
its quotient is rounded to the number. -/
theorem toBinary64?_eq {x : Binary64} (hx : x.magnitude ≠ 0) {d : Decimal}
    (hn : d.negative = x.negative) (h : x.interval.HoldsDecimal d.digits d.exponent) :
    d.toBinary64? = some x := by
  obtain ⟨negative, digits, e⟩ := d
  dsimp only at hn h
  subst hn
  have hround := ofRatio?_eq (ten_pow_pos _) h
  have hzero : ¬ (digits = 0 ∨ e + (Nat.toDigits 10 digits).length ≤ -324) :=
    not_or.mpr ⟨holdsDecimal_ne_zero hx h, not_tiny hx h⟩
  unfold Decimal.toBinary64?
  simp only [if_neg hzero, if_neg (not_huge hx h)]
  split
  · rename_i he
    rwa [show (-e).toNat = 0 by omega, Nat.pow_zero] at hround
  · rename_i he
    rwa [show e.toNat = 0 by omega, Nat.pow_zero, Nat.mul_one] at hround

end Binary64
end JsonQuery
