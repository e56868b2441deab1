import Mathlib.Data.List.Induction
import Mathlib.Data.List.TakeWhile
import JsonQuery.Json.Writer
import JsonQuery.Proofs.Grammar.Spelling
import JsonQuery.Proofs.Text.Read

namespace JsonQuery
namespace Numeral

/-- A part of a number: digits, and at least one. -/
def AreDigits (ds : List Char) : Prop := ds ≠ [] ∧ ∀ c ∈ ds, c.isDigit = true

/-- What the scanner promises of a number, and what a number needs to be scanned as written. -/
structure WellFormed (n : Numeral) : Prop where
  whole : AreDigits n.whole
  noLeadingZero : n.whole.head? = some '0' → n.whole = ['0']
  fraction : ∀ ds, n.fraction = some ds → AreDigits ds
  exponent : ∀ mark sign ds, n.exponent = some (mark, sign, ds) →
    (mark = 'e' ∨ mark = 'E') ∧ (sign = none ∨ sign = some '+' ∨ sign = some '-') ∧ AreDigits ds

/-- A text that does not continue the digits before it. -/
def NoDigit (rest : List Char) : Prop := ∀ c, rest.head? = some c → c.isDigit = false

/-- A text behind which this number does not go on: only one without an exponent is continued by
the mark of an exponent, and only one without a fraction by a point. -/
structure EndsBefore (n : Numeral) (rest : List Char) : Prop where
  noDigit : NoDigit rest
  noMark : n.exponent = none → ∀ c, rest.head? = some c → c ≠ 'e' ∧ c ≠ 'E'
  noPoint : n.exponent = none → n.fraction = none → rest.head? ≠ some '.'

theorem digits_append {ds rest : List Char} (hd : AreDigits ds) (hr : NoDigit rest) :
    digits (ds ++ rest) = ds ∧ afterDigits (ds ++ rest) = rest := takeWhile_front hd.2 hr

theorem AreDigits.isEmpty_eq {ds : List Char} (h : AreDigits ds) : ds.isEmpty = false := by
  simpa using h.1

theorem scanWhole_append {ds rest : List Char} (hd : AreDigits ds)
    (hz : ds.head? = some '0' → ds = ['0']) (hr : NoDigit rest) :
    scanWhole (ds ++ rest) = .ok (ds, rest) := by
  obtain ⟨htake, hdrop⟩ := digits_append hd hr
  unfold scanWhole
  rw [htake, hdrop]
  split
  · exact absurd rfl hd.1
  · rfl
  · rename_i hne
    exact absurd (hz rfl) (fun heq => hne (List.cons.inj heq).2)
  · rfl

/-- The text of the digits behind the point. -/
def fractionChars : Option (List Char) → List Char
  | some ds => '.' :: ds
  | none => []

def exponentChars : Option (Char × Option Char × List Char) → List Char
  | some (mark, sign, ds) => mark :: sign.toList ++ ds
  | none => []

theorem chars_eq (n : Numeral) :
    n.chars = (if n.negative then ['-'] else []) ++ (n.whole ++
      (fractionChars n.fraction ++ exponentChars n.exponent)) := by
  have h : n.chars = (if n.negative then ['-'] else []) ++ n.whole ++
      fractionChars n.fraction ++ exponentChars n.exponent := rfl
  rw [h, List.append_assoc, List.append_assoc]

theorem scanFraction_append {fraction : Option (List Char)} {rest : List Char}
    (hf : ∀ ds, fraction = some ds → AreDigits ds) (hr : NoDigit rest)
    (hp : fraction = none → rest.head? ≠ some '.') :
    scanFraction (fractionChars fraction ++ rest) = .ok (fraction, rest) := by
  cases fraction with
  | none =>
    unfold scanFraction fractionChars
    split
    · rename_i cs heq
      simp only [List.nil_append] at heq
      simp [heq] at hp
    · rfl
  | some ds =>
    obtain ⟨htake, hdrop⟩ := digits_append (hf ds rfl) hr
    simp only [fractionChars, List.cons_append, scanFraction, htake, hdrop,
      (hf ds rfl).isEmpty_eq, Bool.false_eq_true, if_false]

theorem AreDigits.scanSign_eq {ds : List Char} (h : AreDigits ds) (rest : List Char) :
    scanSign (ds ++ rest) = (none, ds ++ rest) := by
  obtain ⟨hne, hall⟩ := h
  cases ds with
  | nil => exact absurd rfl hne
  | cons d tail =>
    have hd := hall d (by simp)
    unfold scanSign
    split
    · rename_i heq; cases heq; cases hd
    · rename_i heq; cases heq; cases hd
    · rfl

theorem scanExponent_append {exponent : Option (Char × Option Char × List Char)}
    {rest : List Char}
    (he : ∀ mark sign ds, exponent = some (mark, sign, ds) → (mark = 'e' ∨ mark = 'E') ∧
      (sign = none ∨ sign = some '+' ∨ sign = some '-') ∧ AreDigits ds) (hr : NoDigit rest)
    (hm : exponent = none → ∀ c, rest.head? = some c → c ≠ 'e' ∧ c ≠ 'E') :
    scanExponent (exponentChars exponent ++ rest) = .ok exponent := by
  match exponent with
  | none =>
    cases rest with
    | nil => rfl
    | cons c cs =>
      obtain ⟨he, hE⟩ := hm rfl c rfl
      simp [exponentChars, scanExponent, he, hE]
  | some (mark, sign, ds) =>
    obtain ⟨hm, hs, hd⟩ := he mark sign ds rfl
    have htake := (digits_append hd hr).1
    have hsign : scanSign (sign.toList ++ ds ++ rest) = (sign, ds ++ rest) := by
      rcases hs with rfl | rfl | rfl
      · exact hd.scanSign_eq rest
      · rfl
      · rfl
    simp only [exponentChars, List.cons_append, scanExponent, if_pos hm, hsign, htake,
      hd.isEmpty_eq, Bool.false_eq_true, if_false]

theorem NoDigit.of_head {c : Char} {cs : List Char} (h : c.isDigit = false) :
    NoDigit (c :: cs) := by
  intro x hx
  cases hx
  exact h

/-- A number is the longest one at the front of its text, whatever ends it. -/
theorem scan_chars {n : Numeral} (h : n.WellFormed) {rest : List Char} (hr : n.EndsBefore rest) :
    scan (n.chars ++ rest) = .ok n := by
  obtain ⟨negative, whole, fraction, exponent⟩ := n
  obtain ⟨hw, hz, hf, he⟩ := h
  obtain ⟨hdigit, hmark, hpoint⟩ := hr
  dsimp only at hw hz hf he hmark hpoint
  have hexp : NoDigit (exponentChars exponent ++ rest) ∧
      (fraction = none → (exponentChars exponent ++ rest).head? ≠ some '.') := by
    match exponent with
    | none => exact ⟨hdigit, hpoint rfl⟩
    | some (mark, sign, ds) =>
      rcases (he mark sign ds rfl).1 with rfl | rfl
      · exact ⟨NoDigit.of_head rfl, by simp [exponentChars]⟩
      · exact ⟨NoDigit.of_head rfl, by simp [exponentChars]⟩
  have hfrac : NoDigit (fractionChars fraction ++ (exponentChars exponent ++ rest)) := by
    match fraction with
    | none => exact hexp.1
    | some ds => exact NoDigit.of_head rfl
  have hwhole := scanWhole_append hw hz hfrac
  have hsign : (whole ++ (fractionChars fraction ++ (exponentChars exponent ++ rest))).head?
      ≠ some '-' := by
    cases whole with
    | nil => exact absurd rfl hw.1
    | cons d ds =>
      intro hd
      have := hw.2 d (by simp)
      simp only [List.cons_append, List.head?_cons, Option.some.injEq] at hd
      subst hd
      cases this
  unfold scan
  simp only [chars_eq, List.append_assoc]
  cases negative with
  | true =>
    simp only [if_true, List.cons_append, List.nil_append, List.head?_cons, beq_self_eq_true,
      List.drop_succ_cons, List.drop_zero, hwhole, scanFraction_append hf hexp.1 hexp.2,
      scanExponent_append he hdigit hmark, bind, Except.bind]
    rfl
  | false =>
    have hhead : ((whole ++ (fractionChars fraction ++ (exponentChars exponent ++ rest))).head?
        == some '-') = false := by simpa using hsign
    simp only [Bool.false_eq_true, if_false, List.nil_append, hhead, hwhole,
      scanFraction_append hf hexp.1 hexp.2, scanExponent_append he hdigit hmark, bind, Except.bind]
    rfl

theorem digits_eq (cs : List Char) :
    cs = digits cs ++ afterDigits cs ∧ (∀ c ∈ digits cs, c.isDigit = true) ∧
      NoDigit (afterDigits cs) := by
  refine ⟨List.takeWhile_append_dropWhile.symm, fun c hc => List.mem_takeWhile_imp hc, ?_⟩
  intro c hc
  have := List.head?_dropWhile_not Char.isDigit cs
  unfold afterDigits at hc
  simpa [hc] using this

theorem scanWhole_sound {cs ds rest : List Char} (h : scanWhole cs = .ok (ds, rest)) :
    cs = ds ++ rest ∧ AreDigits ds ∧ (ds.head? = some '0' → ds = ['0']) ∧ NoDigit rest := by
  obtain ⟨heq, hall, hrest⟩ := digits_eq cs
  unfold scanWhole at h
  split at h
  · cases h
  · rename_i hdigits
    cases h
    rw [hdigits] at heq hall
    exact ⟨heq, ⟨by simp, hall⟩, fun _ => rfl, hrest⟩
  · cases h
  · rename_i hnil _ hlong
    cases h
    refine ⟨heq, ⟨hnil, hall⟩, fun hhead => ?_, hrest⟩
    obtain ⟨tail, htail⟩ := List.head?_eq_some_iff.mp hhead
    exact absurd htail (hlong tail)

theorem scanFraction_sound {cs rest : List Char} {fraction : Option (List Char)}
    (h : scanFraction cs = .ok (fraction, rest)) (hc : NoDigit cs) :
    cs = fractionChars fraction ++ rest ∧ (∀ ds, fraction = some ds → AreDigits ds) ∧
      NoDigit rest ∧ (fraction = none → rest.head? ≠ some '.') := by
  unfold scanFraction at h
  split at h
  · rename_i cs
    obtain ⟨heq, hall, hrest⟩ := digits_eq cs
    split at h
    · cases h
    · rename_i hne
      cases h
      refine ⟨congrArg ('.' :: ·) heq, ?_, hrest, by simp⟩
      rintro ds ⟨⟩
      exact ⟨by simpa using hne, hall⟩
  · rename_i hpoint
    cases h
    refine ⟨rfl, by simp, hc, fun _ hhead => ?_⟩
    obtain ⟨tail, rfl⟩ := List.head?_eq_some_iff.mp hhead
    exact hpoint tail rfl

theorem scanSign_eq (cs : List Char) : cs = (scanSign cs).1.toList ++ (scanSign cs).2 ∧
    ((scanSign cs).1 = none ∨ (scanSign cs).1 = some '+' ∨ (scanSign cs).1 = some '-') := by
  unfold scanSign
  split <;> simp

theorem scanExponent_sound {cs : List Char} {exponent : Option (Char × Option Char × List Char)}
    (h : scanExponent cs = .ok exponent) (hc : NoDigit cs) :
    ∃ rest, cs = exponentChars exponent ++ rest ∧
      (∀ mark sign ds, exponent = some (mark, sign, ds) → (mark = 'e' ∨ mark = 'E') ∧
        (sign = none ∨ sign = some '+' ∨ sign = some '-') ∧ AreDigits ds) ∧ NoDigit rest ∧
      (exponent = none → ∀ c, rest.head? = some c → c ≠ 'e' ∧ c ≠ 'E') := by
  unfold scanExponent at h
  split at h
  · cases h
    exact ⟨[], rfl, by simp, hc, by simp⟩
  · rename_i mark cs
    split at h
    · rename_i hmark
      obtain ⟨hsign, hsigns⟩ := scanSign_eq cs
      obtain ⟨heq, hall, hrest⟩ := digits_eq (scanSign cs).2
      simp only at h
      split at h
      · cases h
      · rename_i hne
        cases h
        refine ⟨afterDigits (scanSign cs).2, ?_, ?_, hrest, by simp⟩
        · simp only [exponentChars, List.cons_append, List.append_assoc, ← heq, ← hsign]
        · rintro mark' sign ds ⟨⟩
          exact ⟨hmark, hsigns, by simpa using hne, hall⟩
    · rename_i hmark
      cases h
      refine ⟨mark :: cs, rfl, by simp, hc, ?_⟩
      rintro - c ⟨⟩
      exact not_or.mp hmark

/-- What is scanned is a number at the front of its text, and the longest. -/
theorem scan_sound {cs : List Char} {n : Numeral} (h : scan cs = .ok n) :
    n.WellFormed ∧ ∃ rest, cs = n.chars ++ rest ∧ n.EndsBefore rest := by
  unfold scan at h
  simp only [bind_ok, pure_ok] at h
  obtain ⟨⟨whole, afterWhole⟩, hwhole, ⟨fraction, afterFraction⟩, hfraction, exponent, hexponent,
    rfl⟩ := h
  obtain ⟨heq, hw, hz, hdigit⟩ := scanWhole_sound hwhole
  obtain ⟨heq', hf, hdigit', hpoint⟩ := scanFraction_sound hfraction hdigit
  obtain ⟨rest, heq'', he, hdigit'', hmark⟩ := scanExponent_sound hexponent hdigit'
  have hsign : cs = (if (cs.head? == some '-') = true then ['-'] else []) ++
      (if (cs.head? == some '-') = true then cs.drop 1 else cs) := by
    cases cs with
    | nil => rfl
    | cons c tail => by_cases hc : c = '-' <;> simp [hc]
  refine ⟨⟨hw, hz, hf, he⟩, rest, ?_, hdigit'', hmark, ?_⟩
  · rw [chars_eq]
    simp only [List.append_assoc]
    rw [← heq'', ← heq', ← heq]
    exact hsign
  · intro hnone hfraction hhead
    have hexp : exponent = none := hnone
    have hafter : afterFraction = rest := by simpa [hexp, exponentChars] using heq''
    exact hpoint hfraction (hafter ▸ hhead)

theorem natOfDigits_eq (ds : List Char) : natOfDigits ds = Nat.ofDigitChars 10 ds 0 := by
  unfold natOfDigits Nat.ofDigitChars
  congr 1
  funext n d
  rw [Nat.mul_comm]

@[simp] theorem natOfDigits_toDigits (n : Nat) : natOfDigits (Nat.toDigits 10 n) = n := by
  rw [natOfDigits_eq, Nat.ofDigitChars_ten_toDigits]

theorem natOfDigits_append (ds es : List Char) :
    natOfDigits (ds ++ es) = natOfDigits ds * 10 ^ es.length + natOfDigits es := by
  simp only [natOfDigits_eq, Nat.ofDigitChars_append]
  rw [Nat.ofDigitChars_eq_ofDigitChars_zero, Nat.mul_comm]

@[simp] theorem natOfDigits_zeros (n : Nat) : natOfDigits (List.replicate n '0') = 0 := by
  rw [natOfDigits_eq, Nat.ofDigitChars_replicate_zero, Nat.mul_zero]

theorem areDigits_toDigits (n : Nat) : AreDigits (Nat.toDigits 10 n) :=
  ⟨Nat.toDigits_ne_nil, fun _ h => Nat.isDigit_of_mem_toDigits (by decide) (by decide) h⟩

theorem head?_toDigits {n : Nat} (h : n ≠ 0) : (Nat.toDigits 10 n).head? ≠ some '0' := by
  induction n using Nat.strongRecOn with
  | ind n ih =>
    rw [Nat.toDigits_eq_if (by decide)]
    split
    · simpa using h
    · rename_i hn
      have hdiv := ih (n / 10) (by omega) (by omega)
      rwa [List.head?_append, Option.or_of_isSome (by simp)]

theorem toDigits_noLeadingZero (n : Nat) :
    (Nat.toDigits 10 n).head? = some '0' → Nat.toDigits 10 n = ['0'] := by
  intro h
  by_cases hn : n = 0
  · rw [hn, Nat.toDigits_zero]
  · exact absurd h (head?_toDigits hn)

theorem digitChar_toNat {d : Char} (h : d.isDigit = true) :
    d.toNat - 48 < 10 ∧ Nat.digitChar (d.toNat - 48) = d := by
  have hbounds : 48 ≤ d.toNat ∧ d.toNat ≤ 57 := by
    simpa [Char.isDigit, UInt32.le_iff_toNat_le] using h
  refine ⟨by omega, Char.toNat_inj.mp ?_⟩
  rw [Nat.toNat_digitChar_of_lt_ten (by omega)]
  omega

theorem natOfDigits_concat (ds : List Char) (d : Char) :
    natOfDigits (ds ++ [d]) = 10 * natOfDigits ds + (d.toNat - 48) := by
  simp [natOfDigits, Nat.mul_comm]

/-- No number is spelled in two ways without leading zeros. -/
theorem toDigits_natOfDigits {ds : List Char} (hd : AreDigits ds)
    (hz : ds.head? = some '0' → ds = ['0']) : Nat.toDigits 10 (natOfDigits ds) = ds := by
  induction ds using List.reverseRecOn with
  | nil => exact absurd rfl hd.1
  | append_singleton ds d ih =>
    obtain ⟨hlt, hchar⟩ := digitChar_toNat (hd.2 d (by simp))
    rw [natOfDigits_concat]
    by_cases hne : ds = []
    · subst hne
      simp [natOfDigits, Nat.toDigits_of_lt_base hlt, hchar]
    · have hhead : ds.head? ≠ some '0' := by
        intro h
        have := hz (by rw [List.head?_append, h]; rfl)
        simp [List.append_eq_singleton_iff, hne] at this
      have hprefix := ih ⟨hne, fun c hc => hd.2 c (by simp [hc])⟩ (fun h => absurd h hhead)
      have hpos : 0 < natOfDigits ds := by
        refine Nat.pos_of_ne_zero (fun h => hhead ?_)
        rw [← hprefix, h, Nat.toDigits_zero]
        rfl
      rw [← Nat.toDigits_append_toDigits (by decide) hpos hlt, hprefix,
        Nat.toDigits_of_lt_base hlt, hchar]

/-- The number that the text of an integer spells. -/
def ofInt (i : Int) : Numeral := ⟨decide (i < 0), Nat.toDigits 10 i.natAbs, none, none⟩

theorem ofInt_chars (i : Int) : (ofInt i).chars = intChars i := by
  simp [ofInt, chars, intChars]

theorem ofInt_wellFormed (i : Int) : (ofInt i).WellFormed where
  whole := areDigits_toDigits _
  noLeadingZero := toDigits_noLeadingZero _
  fraction := by simp [ofInt]
  exponent := by simp [ofInt]

theorem ofInt_integer (i : Int) : (ofInt i).integer = i := by
  simp only [integer, ofInt, natOfDigits_toDigits, decide_eq_true_eq]
  split <;> omega

theorem ofInt_isMinusZero (i : Int) : (ofInt i).isMinusZero = false := by
  by_cases h : i < 0
  · have hne : Nat.toDigits 10 i.natAbs ≠ ['0'] := fun heq =>
      head?_toDigits (n := i.natAbs) (by omega) (by rw [heq]; rfl)
    simpa [isMinusZero, isInteger, ofInt, h] using hne
  · simp [isMinusZero, isInteger, ofInt, h]

theorem ofInt_spellsIndex (i : Int) : (ofInt i).SpellsIndex i :=
  ⟨rfl, ofInt_isMinusZero i, ofInt_integer i⟩

theorem ofInt_value? {low high i : Int} (hl : low ≤ i) (hh : i ≤ high) :
    (ofInt i).value? low high = some (.int i) := by
  have hinteger : (ofInt i).isInteger = true := rfl
  simp [value?, hinteger, ofInt_isMinusZero, ofInt_integer, hl, hh]

end Numeral
end JsonQuery
