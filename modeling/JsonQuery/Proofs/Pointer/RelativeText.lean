import Mathlib
import JsonQuery.Pointer.Relative
import JsonQuery.Proofs.Json.Numeral
import JsonQuery.Proofs.Pointer.Text
import JsonQuery.Proofs.Text.WhiteSpace

namespace JsonQuery
namespace RelativePointer

/-- The characters of the numbers in front of a target. -/
def isNumberChar (c : Char) : Bool := c.isDigit || c == '+' || c == '-'

/-- A text with no white space at its ends, nor between its numbers and the target. -/
structure Tight (cs : List Char) : Prop extends Bare cs where
  behindNumbers : ∀ c, (cs.dropWhile isNumberChar).head? = some c → isWhiteSpace c = false

/-- The numbers fit their words, and trimming takes nothing off the target. -/
structure Readable (r : RelativePointer) : Prop where
  origin : r.origin < 2 ^ 64
  offset : r.offset.natAbs ≤ 2 ^ 63 - 1
  target : ∀ tail, r.target = .pointer tail →
    ∀ c, tail.text.toList.getLast? = some c → isWhiteSpace c = false

def numberChars (r : RelativePointer) : List Char :=
  Nat.toDigits 10 r.origin ++ offsetChars r.offset

/-- A text that does not continue the numbers in front of it. -/
def NoNumber (rest : List Char) : Prop := ∀ c, rest.head? = some c → isNumberChar c = false

theorem number_eq_ok {ds : List Char} (hd : ∀ c ∈ ds, c.isDigit = true) {n : Nat} :
    number ds = .ok n ↔ ds = Nat.toDigits 10 n ∧ n < 2 ^ 64 := by
  unfold number
  constructor
  · intro h
    split at h
    · cases h
    · rename_i hlead
      split at h
      · cases h
      · rename_i hbound
        rw [not_or] at hbound
        cases h
        have hne : ds ≠ [] := by simpa using hbound.1
        have hzero : ds.head? = some '0' → ds = ['0'] := by
          intro hhead
          obtain ⟨tail, rfl⟩ := List.head?_eq_some_iff.mp hhead
          have hshort : ¬ 1 < ('0' :: tail).length := fun hlong => hlead ⟨hlong, hhead⟩
          have htail : tail.length = 0 := by
            rw [List.length_cons] at hshort
            omega
          rw [List.length_eq_zero_iff.mp htail]
        exact ⟨(Numeral.toDigits_natOfDigits ⟨hne, hd⟩ hzero).symm, Nat.not_le.mp hbound.2⟩
  · rintro ⟨rfl, hbound⟩
    have hlead : ¬(1 < (Nat.toDigits 10 n).length ∧ (Nat.toDigits 10 n).head? = some '0') := by
      rintro ⟨hlong, hhead⟩
      rw [Numeral.toDigits_noLeadingZero n hhead] at hlong
      exact absurd hlong (by decide)
    have hempty : ¬((Nat.toDigits 10 n).isEmpty = true ∨
        2 ^ 64 ≤ Numeral.natOfDigits (Nat.toDigits 10 n)) := by
      rw [(Numeral.areDigits_toDigits n).isEmpty_eq, Numeral.natOfDigits_toDigits]
      simpa using hbound
    rw [if_neg hlead, if_neg hempty, Numeral.natOfDigits_toDigits]

theorem NoNumber.noDigit {rest : List Char} (h : NoNumber rest) : Numeral.NoDigit rest := by
  intro c hc
  have := h c hc
  simp only [isNumberChar, Bool.or_eq_false_iff] at this
  exact this.1.1

theorem number_digits {n : Nat} (hn : n < 2 ^ 64) {rest : List Char} (hr : Numeral.NoDigit rest) :
    number (Numeral.digits (Nat.toDigits 10 n ++ rest)) = .ok n ∧
      Numeral.afterDigits (Nat.toDigits 10 n ++ rest) = rest := by
  obtain ⟨hdigits, hafter⟩ := Numeral.digits_append (Numeral.areDigits_toDigits n) hr
  rw [hdigits]
  exact ⟨(number_eq_ok (Numeral.areDigits_toDigits n).2).mpr ⟨rfl, hn⟩, hafter⟩

theorem digits_of_number {cs : List Char} {n : Nat} (h : number (Numeral.digits cs) = .ok n) :
    cs = Nat.toDigits 10 n ++ Numeral.afterDigits cs ∧ n < 2 ^ 64 := by
  obtain ⟨hsplit, hall, -⟩ := Numeral.digits_eq cs
  obtain ⟨hdigits, hn⟩ := (number_eq_ok hall).mp h
  rw [← hdigits]
  exact ⟨hsplit, hn⟩

theorem offsetChars_pos {n : Nat} (h : n ≠ 0) : offsetChars n = '+' :: Nat.toDigits 10 n := by
  have hpos : (0 : Int) < n := by omega
  have hnonneg : ¬ (n : Int) < 0 := by omega
  rw [offsetChars, if_pos hpos, intChars, if_neg hnonneg]
  rfl

theorem offsetChars_neg {n : Nat} (h : n ≠ 0) :
    offsetChars (-n) = '-' :: Nat.toDigits 10 n := by
  have hneg : -(n : Int) < 0 := by omega
  have hpos : ¬ 0 < -(n : Int) := by omega
  rw [offsetChars, if_neg hpos, if_pos hneg, intChars, if_pos hneg, Int.natAbs_neg,
    Int.natAbs_natCast]
  rfl

/-- An offset is written with its sign, and not at all where it is zero. -/
theorem offsetChars_cases (offset : Int) :
    (offset = 0 ∧ offsetChars offset = []) ∨
    ∃ (sign : Char) (n : Nat), (sign = '+' ∨ sign = '-') ∧ n ≠ 0 ∧
      offset = (if sign = '-' then -(n : Int) else n) ∧
      offsetChars offset = sign :: Nat.toDigits 10 n := by
  rcases lt_trichotomy offset 0 with hneg | rfl | hpos
  · obtain ⟨n, rfl⟩ : ∃ n : Nat, offset = -n := ⟨offset.natAbs, by omega⟩
    have hzero : n ≠ 0 := by omega
    exact .inr ⟨'-', n, .inr rfl, hzero, rfl, offsetChars_neg hzero⟩
  · exact .inl ⟨rfl, rfl⟩
  · obtain ⟨n, rfl⟩ : ∃ n : Nat, offset = n := ⟨offset.natAbs, by omega⟩
    have hzero : n ≠ 0 := by omega
    exact .inr ⟨'+', n, .inl rfl, hzero, rfl, offsetChars_pos hzero⟩

theorem scanOffset_sound {cs rest : List Char} {offset : Int}
    (h : scanOffset cs = .ok (offset, rest)) :
    cs = offsetChars offset ++ rest ∧ offset.natAbs ≤ 2 ^ 63 - 1 := by
  cases cs with
  | nil =>
    cases h
    exact ⟨rfl, by decide⟩
  | cons sign cs =>
    rw [scanOffset] at h
    split at h
    · rename_i hsign
      obtain ⟨n, hn, h⟩ := bind_ok.mp h
      obtain ⟨hcs, -⟩ := digits_of_number hn
      split at h
      · cases h
      · rename_i hzero
        split at h
        · cases h
        · rename_i hlarge
          cases h
          rcases hsign with rfl | rfl
          · rw [if_neg (by decide), offsetChars_pos hzero, List.cons_append, ← hcs]
            exact ⟨rfl, by omega⟩
          · rw [if_pos rfl, offsetChars_neg hzero, List.cons_append, ← hcs]
            exact ⟨rfl, by omega⟩
    · cases h
      exact ⟨rfl, by decide⟩

theorem scanOffset_complete {offset : Int} (ho : offset.natAbs ≤ 2 ^ 63 - 1) {rest : List Char}
    (hr : NoNumber rest) : scanOffset (offsetChars offset ++ rest) = .ok (offset, rest) := by
  obtain ⟨rfl, hnil⟩ | ⟨sign, n, hsign, hzero, hoffset, hcons⟩ := offsetChars_cases offset
  -- Nothing is written, and what follows must not be taken for a sign.
  · rw [hnil, List.nil_append]
    cases rest with
    | nil => rfl
    | cons c rest =>
      have hc := hr c rfl
      simp only [isNumberChar, Bool.or_eq_false_iff, beq_eq_false_iff_ne] at hc
      rw [scanOffset, if_neg (by simp [hc.1.2, hc.2])]
  · have hlarge : ¬ 2 ^ 63 ≤ n := by
      rw [hoffset] at ho
      split at ho <;> omega
    obtain ⟨hnumber, hafter⟩ := number_digits (show n < 2 ^ 64 by omega) hr.noDigit
    rw [hcons, List.cons_append, scanOffset, if_pos hsign, hnumber, hafter]
    simp only [bind, Except.bind, if_neg hzero, if_neg hlarge, hoffset]
    rfl

theorem scanStart_sound {cs rest : List Char} {origin : Nat} {offset : Int}
    (h : scanStart cs = .ok (origin, offset, rest)) :
    cs = Nat.toDigits 10 origin ++ offsetChars offset ++ rest ∧
      origin < 2 ^ 64 ∧ offset.natAbs ≤ 2 ^ 63 - 1 := by
  rw [scanStart] at h
  split at h
  · cases h
  · obtain ⟨n, hn, h⟩ := bind_ok.mp h
    obtain ⟨⟨o, after⟩, ho, h⟩ := bind_ok.mp h
    cases h
    obtain ⟨hcs, hbound⟩ := digits_of_number hn
    obtain ⟨hafter, hoffset⟩ := scanOffset_sound ho
    rw [List.append_assoc, ← hafter]
    exact ⟨hcs, hbound, hoffset⟩

theorem isNumberChar_digits (n : Nat) : ∀ c ∈ Nat.toDigits 10 n, isNumberChar c = true := by
  intro c hc
  simp [isNumberChar, (Numeral.areDigits_toDigits n).2 c hc]

theorem scanStart_complete {r : RelativePointer} (h : r.Readable) {rest : List Char}
    (hr : NoNumber rest) : scanStart (r.numberChars ++ rest) = .ok (r.origin, r.offset, rest) := by
  have hne : (r.numberChars ++ rest).isEmpty = false := by
    simp [numberChars, Nat.toDigits_ne_nil]
  have hbehind : Numeral.NoDigit (offsetChars r.offset ++ rest) := by
    obtain ⟨-, hnil⟩ | ⟨sign, n, hsign, -, -, hcons⟩ := offsetChars_cases r.offset
    · rw [hnil]
      exact hr.noDigit
    · rw [hcons]
      intro c hc
      cases hc
      rcases hsign with rfl | rfl <;> rfl
  obtain ⟨hnumber, hafter⟩ := number_digits h.origin hbehind
  rw [numberChars, List.append_assoc] at *
  rw [scanStart, hne, hnumber, hafter]
  simp only [bind, Except.bind, Bool.false_eq_true, if_false, scanOffset_complete h.offset hr]
  rfl

theorem head?_targetChars {target : Target} {c : Char}
    (h : (targetChars target).head? = some c) : c = '/' ∨ c = '#' := by
  cases target with
  | key =>
    cases h
    exact .inr rfl
  | pointer tail =>
    obtain ⟨parts⟩ := tail
    cases parts with
    | nil => cases h
    | cons part parts =>
      cases h
      exact .inl rfl

theorem pointerChars_ne_key (tail : Pointer) : tail.chars ≠ ['#'] := by
  obtain ⟨parts⟩ := tail
  cases parts with
  | nil => exact fun h => by cases h
  | cons part parts => exact fun h => absurd (List.cons.inj h).1 (by decide)

/-- The scanner finds the numbers, and what is left is the text of the target. -/
theorem ofText_eq_ok {t : String} {r : RelativePointer} : ofText t = .ok r ↔
    ∃ rest, scanStart (trimmed t.toList) = .ok (r.origin, r.offset, rest) ∧
      targetChars r.target = trimmed rest := by
  rw [ofText]
  cases hscan : scanStart (trimmed t.toList) with
  | error fault => simp [Except.mapError, bind, Except.bind]
  | ok found =>
    obtain ⟨origin, offset, rest⟩ := found
    obtain ⟨origin', offset', target⟩ := r
    simp only [Except.mapError, bind, Except.bind, Except.ok.injEq, Prod.mk.injEq]
    split
    · rename_i hkey
      constructor
      · intro h
        cases h
        exact ⟨rest, ⟨rfl, rfl, rfl⟩, hkey.symm⟩
      · rintro ⟨_, ⟨rfl, rfl, rfl⟩, htarget⟩
        cases target with
        | key => rfl
        | pointer tail => exact absurd (htarget.trans hkey) (pointerChars_ne_key tail)
    · rename_i hkey
      change (Pointer.ofChars (trimmed rest) >>= fun p =>
        pure (⟨origin, offset, .pointer p⟩ : RelativePointer)) = _ ↔ _
      rw [bind_ok]
      constructor
      · rintro ⟨p, hp, h⟩
        cases h
        exact ⟨rest, ⟨rfl, rfl, rfl⟩, Pointer.ofChars_eq_ok.mp hp⟩
      · rintro ⟨_, ⟨rfl, rfl, rfl⟩, htarget⟩
        cases target with
        | key => exact absurd htarget.symm hkey
        | pointer tail => exact ⟨tail, Pointer.ofChars_eq_ok.mpr htarget, rfl⟩

theorem isWhiteSpace_of_isNumberChar {c : Char} (h : isNumberChar c = true) :
    isWhiteSpace c = false := by
  simp only [isNumberChar, Bool.or_eq_true, beq_iff_eq] at h
  rcases h with (hdigit | rfl) | rfl
  · have hdigits : ∀ n < 10, isWhiteSpace (Nat.digitChar n) = false := by decide
    obtain ⟨hlt, hchar⟩ := Numeral.digitChar_toNat hdigit
    rw [← hchar]
    exact hdigits _ hlt
  · rfl
  · rfl

theorem isNumberChar_of_mem {r : RelativePointer} : ∀ c ∈ r.numberChars, isNumberChar c = true := by
  intro c hc
  rcases List.mem_append.mp hc with horigin | hoffset
  · exact isNumberChar_digits _ c horigin
  · obtain ⟨-, hnil⟩ | ⟨sign, n, hsign, -, -, hcons⟩ := offsetChars_cases r.offset
    · rw [hnil] at hoffset
      cases hoffset
    · rw [hcons] at hoffset
      rcases List.mem_cons.mp hoffset with rfl | hdigit
      · rcases hsign with rfl | rfl <;> rfl
      · exact isNumberChar_digits n c hdigit

theorem bare_targetChars {r : RelativePointer} (h : r.Readable) : Bare (targetChars r.target) where
  front c hc := by rcases head?_targetChars hc with rfl | rfl <;> rfl
  back c hc := by
    cases htarget : r.target with
    | key =>
      rw [htarget] at hc
      cases hc
      rfl
    | pointer tail =>
      rw [htarget] at hc
      exact h.target tail htarget c (by rwa [Pointer.text, String.toList_ofList])

/-- Numbers put no white space at the ends of a text. -/
theorem bare_numberChars_append (r : RelativePointer) {rest : List Char}
    (h : ∀ c, rest.getLast? = some c → isWhiteSpace c = false) :
    Bare (r.numberChars ++ rest) where
  front c hc := by
    obtain ⟨d, ds, hd⟩ := List.exists_cons_of_ne_nil (Nat.toDigits_ne_nil (n := r.origin) (b := 10))
    have hfirst : (r.numberChars ++ rest).head? = some d := by simp [numberChars, hd]
    obtain rfl := Option.some.inj (hfirst.symm.trans hc)
    have hmem : d ∈ r.numberChars := by simp [numberChars, hd]
    exact isWhiteSpace_of_isNumberChar (isNumberChar_of_mem d hmem)
  back c hc := by
    cases hrest : rest.getLast? with
    | none =>
      rw [List.getLast?_eq_none_iff.mp hrest, List.append_nil] at hc
      exact isWhiteSpace_of_isNumberChar (isNumberChar_of_mem c (List.mem_of_getLast? hc))
    | some d =>
      rw [List.getLast?_append, hrest] at hc
      cases hc
      exact h c hrest

theorem noNumber_targetChars (target : Target) : NoNumber (targetChars target) := by
  intro c hc
  rcases head?_targetChars hc with rfl | rfl <;> rfl

theorem noNumber_gap_append {gap : List Char} (hg : Gap gap) (target : Target) :
    NoNumber (gap ++ targetChars target) := by
  cases gap with
  | nil => exact noNumber_targetChars target
  | cons c gap =>
    intro d hd
    cases hd
    by_contra hnumber
    have hwhite := hg c (by simp)
    rw [isWhiteSpace_of_isNumberChar (by simpa using hnumber)] at hwhite
    cases hwhite

/-- What is read is the numbers and the target, with white space only between them and at the
ends. -/
theorem ofText_eq_ok_iff {t : String} {r : RelativePointer} : ofText t = .ok r ↔
    r.Readable ∧ ∃ front gap back, Gap front ∧ Gap gap ∧ Gap back ∧
      t.toList = front ++ (r.numberChars ++ (gap ++ targetChars r.target)) ++ back := by
  rw [ofText_eq_ok]
  constructor
  · rintro ⟨rest, hscan, htarget⟩
    obtain ⟨hnumbers, horigin, hoffset⟩ := scanStart_sound hscan
    obtain ⟨front, back, ht, hfront, hback⟩ := trimmed_split t.toList
    obtain ⟨gap, back', hrest, hgap, hback'⟩ := trimmed_split rest
    have hbare := bare_trimmed rest
    rw [← htarget] at hrest hbare
    refine ⟨⟨horigin, hoffset, fun tail htail c hc => ?_⟩, front, gap, back' ++ back, hfront, hgap,
      hback'.append hback, ?_⟩
    · rw [Pointer.text, String.toList_ofList] at hc
      exact hbare.back c (by rwa [htail])
    · rw [ht, hnumbers, hrest]
      simp only [numberChars, List.append_assoc]
  · rintro ⟨hr, front, gap, back, hfront, hgap, hback, ht⟩
    have htarget := bare_targetChars hr
    by_cases hnil : targetChars r.target = []
    -- Without a target the gap is white space at the end.
    · have hnumbers : Bare (r.numberChars ++ []) := bare_numberChars_append r (by simp)
      have ht' : t.toList = front ++ (r.numberChars ++ []) ++ (gap ++ back) := by
        rw [ht, hnil]
        simp only [List.append_assoc, List.nil_append]
      have htrim : trimmed t.toList = r.numberChars ++ [] := by
        rw [ht', trimmed_eq hfront hnumbers (hgap.append hback)]
      exact ⟨[], by rw [htrim, scanStart_complete hr (by simp [NoNumber])], by rw [hnil]; rfl⟩
    · have hlast (c : Char) (hc : (gap ++ targetChars r.target).getLast? = some c) :
          isWhiteSpace c = false := by
        rw [List.getLast?_append_of_ne_nil _ hnil] at hc
        exact htarget.back c hc
      have htrim : trimmed (gap ++ targetChars r.target) = targetChars r.target := by
        have hnone : Gap [] := by simp [Gap]
        have hcut := trimmed_eq hgap htarget hnone
        rwa [List.append_nil] at hcut
      refine ⟨gap ++ targetChars r.target, ?_, htrim.symm⟩
      rw [ht, trimmed_eq hfront (bare_numberChars_append r hlast) hback,
        scanStart_complete hr (noNumber_gap_append hgap _)]

theorem text_toList (r : RelativePointer) :
    r.text.toList = r.numberChars ++ targetChars r.target := by
  rw [text, String.toList_ofList, chars, numberChars]

theorem dropWhile_numberChars (r : RelativePointer) {rest : List Char} (h : NoNumber rest) :
    (r.numberChars ++ rest).dropWhile isNumberChar = rest :=
  (takeWhile_front isNumberChar_of_mem h).2

theorem tight_text {r : RelativePointer} (h : r.Readable) : Tight r.text.toList := by
  rw [text_toList]
  refine ⟨bare_numberChars_append r (bare_targetChars h).back, fun c hc => ?_⟩
  rw [dropWhile_numberChars r (noNumber_targetChars _)] at hc
  exact (bare_targetChars h).front c hc

/-- Without white space at the places where it may stand, a text is what is written for it. -/
theorem text_eq_of_tight {t : String} {r : RelativePointer} (h : ofText t = .ok r)
    (htight : Tight t.toList) : r.text = t := by
  obtain ⟨hr, front, gap, back, hfront, hgap, hback, ht⟩ := ofText_eq_ok_iff.mp h
  rw [ht] at htight
  obtain rfl : front = [] := hfront.eq_nil (fun c hc => htight.front c (by simp [hc]))
  obtain rfl : back = [] := hback.eq_nil_of_back (fun c hc => htight.back c (by simp [hc]))
  have hrest : (([] ++ (r.numberChars ++ (gap ++ targetChars r.target)) ++ []).dropWhile
      isNumberChar) = gap ++ targetChars r.target := by
    rw [List.nil_append, List.append_nil, dropWhile_numberChars r (noNumber_gap_append hgap _)]
  obtain rfl : gap = [] :=
    hgap.eq_nil (fun c hc => htight.behindNumbers c (by rw [hrest]; simp [hc]))
  rw [← String.toList_inj, text_toList, ht]
  simp only [List.nil_append, List.append_nil]

/-- What is read from a text is read again from its own text, which is the same text unless white
space stands in it where it need not. Of the relative pointers whose numbers fit their words, only
those with white space at the end are not read from their texts. -/
theorem ofText_reads_text :
    (∀ t r, ofText t = .ok r → ofText r.text = .ok r ∧ (r.text = t ↔ Tight t.toList)) ∧
    ∀ r : RelativePointer, ofText r.text = .ok r ↔ r.Readable := by
  have hreads (r : RelativePointer) : ofText r.text = .ok r ↔ r.Readable := by
    refine ⟨fun h => (ofText_eq_ok_iff.mp h).1, fun h => ofText_eq_ok_iff.mpr ⟨h, [], [], [], ?_⟩⟩
    simp [Gap, text_toList]
  refine ⟨fun t r h => ?_, hreads⟩
  have hr := (ofText_eq_ok_iff.mp h).1
  refine ⟨(hreads r).mpr hr, fun htext => htext ▸ tight_text hr, text_eq_of_tight h⟩

/-- A tab in front of the target is read, and is not written again. -/
theorem ofText_reads_text_spaced :
    let r : RelativePointer := ⟨2, -3, .pointer ⟨["a/b", "7"]⟩⟩
    ofText "2-3\t/a~1b/7" = .ok r ∧ ofText r.text = .ok r ∧ r.text ≠ "2-3\t/a~1b/7" := by
  intro r
  have hread : ofText "2-3\t/a~1b/7" = .ok r := by cbv
  obtain ⟨hagain, htight⟩ := ofText_reads_text.1 _ _ hread
  refine ⟨hread, hagain, fun heq => ?_⟩
  have htab := (htight.mp heq).behindNumbers '\t' (by cbv)
  exact absurd htab (by decide)

end RelativePointer
end JsonQuery
