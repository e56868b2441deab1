import JsonQuery.Proofs.Binary64.Shortest

namespace JsonQuery
namespace Binary64
open Numeral

/-- How digits and a power of ten are written: positional near one, else scientific. -/
def layout (negative : Bool) (digits : List Char) (exponent : Int) : Numeral :=
  let point : Int := digits.length + exponent
  let zeros (n : Int) := List.replicate n.toNat '0'
  if 0 < point ∧ point ≤ 16 then
    ⟨negative, digits.take point.toNat ++ zeros exponent,
      some (if (digits.drop point.toNat).isEmpty then ['0'] else digits.drop point.toNat), none⟩
  else if -5 < point ∧ point ≤ 0 then ⟨negative, ['0'], some (zeros (-point) ++ digits), none⟩
  else
    ⟨negative, digits.take 1, if (digits.drop 1).isEmpty then none else some (digits.drop 1),
      some ('e', some (if 0 < point then '+' else '-'), Nat.toDigits 10 (point - 1).natAbs)⟩

/-- The number that the text of a float spells. -/
def numeral (x : Binary64) : Numeral :=
  if x.magnitude = 0 then ⟨x.negative, ['0'], some ['0'], none⟩
  else layout x.negative (Nat.toDigits 10 x.shortest.digits) x.shortest.exponent

theorem text_eq (x : Binary64) : x.text.toList = x.numeral.chars := by
  have hsign : (if x.negative then "-" else "").toList = if x.negative then ['-'] else [] := by
    cases x.negative <;> rfl
  unfold text numeral layout
  by_cases hx : x.magnitude = 0
  · simp only [if_pos hx, String.toList_append, hsign, chars]
    simp
  · simp only [if_neg hx, String.toList_append, hsign, String.toList_ofList]
    generalize Nat.toDigits 10 x.shortest.digits = digits
    generalize x.shortest.exponent = exponent
    by_cases hnear : 0 < digits.length + exponent ∧ digits.length + exponent ≤ 16
    · simp [if_pos hnear, chars]
    · by_cases hsmall : -5 < digits.length + exponent ∧ digits.length + exponent ≤ 0
      · simp [if_neg hnear, if_pos hsmall, chars]
      · simp only [if_neg hnear, if_neg hsmall, chars]
        cases digits.drop 1 <;> simp

section Layout

variable {negative : Bool} {digits : List Char} {exponent : Int}

theorem areDigits_zeros_append (n : Nat) (hd : AreDigits digits) :
    AreDigits (List.replicate n '0' ++ digits) := by
  refine ⟨by simp [hd.1], fun c hc => ?_⟩
  rcases List.mem_append.mp hc with hc | hc
  · rw [List.eq_of_mem_replicate hc]
    rfl
  · exact hd.2 c hc

theorem layout_wellFormed (hd : AreDigits digits) (hz : digits.head? ≠ some '0') :
    (layout negative digits exponent).WellFormed := by
  obtain ⟨hne, hall⟩ := hd
  obtain ⟨first, rest, rfl⟩ := List.exists_cons_of_ne_nil hne
  have hfirst : first.isDigit = true := hall first (by simp)
  have hrest : ∀ c ∈ rest, c.isDigit = true := fun c hc => hall c (by simp [hc])
  have hfirst0 : first ≠ '0' := by simpa using hz
  unfold layout
  simp only
  split
  · rename_i hpoint
    obtain ⟨p, hp⟩ : ∃ p, ((first :: rest).length + exponent).toNat = p + 1 :=
      ⟨((first :: rest).length + exponent).toNat - 1, by omega⟩
    rw [hp]
    refine ⟨⟨by simp, ?_⟩, by simp [hfirst0], ?_, by simp⟩
    · intro c hc
      simp only [List.take_succ_cons, List.cons_append, List.mem_cons, List.mem_append] at hc
      rcases hc with rfl | hc | hc
      · exact hfirst
      · exact hrest c (List.mem_of_mem_take hc)
      · rw [List.eq_of_mem_replicate hc]
        rfl
    · intro ds hds
      cases hds
      split
      · exact ⟨by simp, by simp⟩
      · rename_i hempty
        exact ⟨by simpa using hempty, fun c hc => hrest c (List.mem_of_mem_drop hc)⟩
  · split
    · refine ⟨⟨by simp, by simp⟩, by simp, ?_, by simp⟩
      intro ds hds
      cases hds
      exact areDigits_zeros_append _ ⟨hne, hall⟩
    · refine ⟨⟨by simp, by simpa using hfirst⟩, by simp, ?_, ?_⟩
      · intro ds hds
        dsimp only [List.drop_succ_cons, List.drop_zero] at hds
        split at hds
        · cases hds
        · rename_i hempty
          cases hds
          exact ⟨by simpa using hempty, hrest⟩
      · intro mark sign ds hds
        cases hds
        refine ⟨.inl rfl, ?_, areDigits_toDigits _⟩
        split <;> simp

/-- The layout keeps the value: it at most adds zeros behind the digits. -/
theorem layout_decimal (negative : Bool) (exponent : Int) (hd : AreDigits digits) :
    ∃ j : Nat, (layout negative digits exponent).decimal =
      ⟨negative, natOfDigits digits * 10 ^ j, exponent - j⟩ := by
  have hlen : 0 < digits.length := List.length_pos_iff.mpr hd.1
  unfold layout
  simp only
  split
  · rename_i hpoint
    by_cases hdrop : (digits.drop (digits.length + exponent).toNat).isEmpty = true
    · have hge : digits.length ≤ (digits.length + exponent).toNat := by simpa using hdrop
      refine ⟨exponent.toNat + 1, ?_⟩
      have hdigits : natOfDigits (digits.take (digits.length + exponent).toNat ++
          List.replicate exponent.toNat '0' ++ ['0']) =
            natOfDigits digits * 10 ^ (exponent.toNat + 1) := by
        rw [List.take_of_length_le hge, List.append_assoc, ← List.replicate_succ',
          natOfDigits_append, natOfDigits_zeros, List.length_replicate, Nat.add_zero]
      simp only [decimal, hdrop, if_true, Option.getD_some, hdigits, List.length_singleton]
      congr 1
      omega
    · have hlt : (digits.length + exponent).toNat < digits.length := by simpa using hdrop
      refine ⟨0, ?_⟩
      have hdigits : digits.take (digits.length + exponent).toNat ++
          List.replicate exponent.toNat '0' ++ digits.drop (digits.length + exponent).toNat =
            digits := by
        rw [show exponent.toNat = 0 by omega, List.replicate_zero, List.append_nil,
          List.take_append_drop]
      simp only [decimal, if_neg hdrop, Option.getD_some, hdigits, List.length_drop]
      simp only [Nat.pow_zero, Nat.mul_one]
      congr 1
      omega
  · split
    · rename_i hpoint
      refine ⟨0, ?_⟩
      simp only [decimal, Option.getD_some, natOfDigits_append, List.length_append,
        List.length_replicate, natOfDigits_zeros]
      simp only [Nat.pow_zero, Nat.mul_one]
      congr 1
      · simp [natOfDigits]
      · omega
    · rename_i hpoint hsmall
      refine ⟨0, ?_⟩
      have hfraction : (if (digits.drop 1).isEmpty = true then none
          else some (digits.drop 1)).getD [] = digits.drop 1 := by
        cases digits.drop 1 <;> rfl
      simp only [decimal, hfraction, List.take_append_drop, List.length_drop]
      simp only [Nat.pow_zero, Nat.mul_one]
      congr 1
      by_cases hpositive : 0 < digits.length + exponent
      · rw [if_pos hpositive]
        change (natOfDigits (Nat.toDigits 10 _) : Int) - _ = _
        rw [natOfDigits_toDigits]
        omega
      · rw [if_neg hpositive]
        change -(natOfDigits (Nat.toDigits 10 _) : Int) - _ = _
        rw [natOfDigits_toDigits]
        omega

theorem layout_isInteger : (layout negative digits exponent).isInteger = false := by
  unfold layout
  simp only
  split
  · rfl
  · split <;> simp [isInteger]

end Layout

theorem numeral_wellFormed (x : Binary64) : x.numeral.WellFormed := by
  unfold numeral
  split
  · exact ⟨⟨by simp, by simp⟩, by simp, fun ds h => by cases h; exact ⟨by simp, by simp⟩, by simp⟩
  · rename_i hx
    exact layout_wellFormed (areDigits_toDigits _)
      (head?_toDigits (holdsDecimal_ne_zero hx (shortest_holds hx)))

/-- The text of a number is not that of an integer. -/
theorem numeral_isInteger (x : Binary64) : x.numeral.isInteger = false := by
  unfold numeral
  split
  · rfl
  · exact layout_isInteger

/-- The text of a number reads back as the same number, sign of zero included. -/
theorem numeral_toBinary64? (x : Binary64) : x.numeral.decimal.toBinary64? = some x := by
  unfold numeral
  split
  · rename_i hx
    obtain ⟨negative, magnitude, finite⟩ := x
    cases hx
    rfl
  · rename_i hx
    obtain ⟨j, hj⟩ := layout_decimal x.negative x.shortest.exponent
      (areDigits_toDigits x.shortest.digits)
    rw [hj, natOfDigits_toDigits]
    exact toBinary64?_eq hx rfl ((shortest_holds hx).shift j)

theorem numeral_value? (x : Binary64) (low high : Int) :
    x.numeral.value? low high = some (.float x) := by
  simp [value?, numeral_isInteger, numeral_toBinary64?]

end Binary64

namespace Numeral

/-- An integer beyond the signed words is read as a float. -/
theorem ofInt_value?_float {i : Int} (hl : 2 ^ 63 ≤ i) (hh : i ≤ 2 ^ 64 - 1) :
    ∃ x, Binary64.ofRatio? (decide (i < 0)) i.natAbs 1 = some x ∧
      (ofInt i).value? (-2 ^ 63) (2 ^ 63 - 1) = some (.float x) := by
  have hword : i.natAbs < 2 ^ 64 := by omega
  obtain ⟨x, hx⟩ := Binary64.ofRatio?_word hword (decide (i < 0))
  have hplaces : (Nat.toDigits 10 i.natAbs).length ≤ 20 :=
    (Nat.length_toDigits_le_iff (by decide) (by decide)).mpr (by omega)
  have hdecimal : (ofInt i).decimal = ⟨decide (i < 0), i.natAbs, 0⟩ := by
    simp [decimal, ofInt]
  have hfloat : (ofInt i).decimal.toBinary64? = some x := by
    rw [hdecimal, Decimal.toBinary64?]
    dsimp only
    rw [if_neg (by omega), if_neg (by omega), if_pos (Int.le_refl 0), Int.toNat_zero,
      Nat.pow_zero, Nat.mul_one]
    exact hx
  have hbeyond : ¬ i ≤ 2 ^ 63 - 1 := by omega
  refine ⟨x, hx, ?_⟩
  rw [value?, if_neg, hfloat]
  · rfl
  · simp only [ofInt_integer, decide_eq_false hbeyond, Bool.and_false]
    exact Bool.false_ne_true

/-- The text of an integer of 64 bits, signed or not, is that of a number. -/
theorem ofInt_isNumber {i : Int} (hl : -2 ^ 63 ≤ i) (hh : i ≤ 2 ^ 64 - 1) :
    ∃ x, (ofInt i).value? (-2 ^ 63) (2 ^ 63 - 1) = some x := by
  by_cases hsigned : i ≤ 2 ^ 63 - 1
  · exact ⟨_, ofInt_value? hl hsigned⟩
  · obtain ⟨x, -, hx⟩ := ofInt_value?_float (i := i) (by omega) hh
    exact ⟨_, hx⟩

end Numeral
end JsonQuery
