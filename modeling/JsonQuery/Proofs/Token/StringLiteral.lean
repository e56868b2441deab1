import Mathlib
import JsonQuery.Proofs.Text.Quoted
import JsonQuery.Proofs.Token.Lexeme

namespace JsonQuery
namespace Hex

/-- A digit of either case, and what it counts. -/
def IsDigit (c : Char) (v : Nat) : Prop :=
  v < 16 ∧ (c = Nat.digitChar v ∨ c = (Nat.digitChar v).toUpper)

/-- Four digits, and the number that they spell. -/
def Spells (ds : List Char) (n : Nat) : Prop :=
  ∃ a b c d, List.Forall₂ IsDigit ds [a, b, c, d] ∧ n = a * 16 ^ 3 + b * 16 ^ 2 + c * 16 + d

theorem toNat_lt_of_value? {c : Char} {v : Nat} (h : value? c = some v) : c.toNat < 128 := by
  by_contra hlarge
  have hno (d : Char) (hd : d.toNat < 128) : ¬ c ≤ d := by
    rw [Char.le_def, UInt32.le_iff_toNat_le, Char.toNat_val, Char.toNat_val]
    omega
  have hnone : value? c = none := by
    rw [value?, if_neg (fun hc => hno '9' (by decide) hc.2),
      if_neg (fun hc => hno 'f' (by decide) hc.2), if_neg (fun hc => hno 'F' (by decide) hc.2)]
  rw [hnone] at h
  cases h

theorem value?_eq_some {c : Char} {v : Nat} : value? c = some v ↔ IsDigit c v := by
  constructor
  · intro h
    -- A digit is one of the first 128 characters, and these are compared one by one.
    have hsmall : ∀ n < 128, ∀ w ∈ value? (Char.ofNat n), IsDigit (Char.ofNat n) w := by
      unfold IsDigit
      decide +kernel
    have hdigit := hsmall c.toNat (toNat_lt_of_value? h) v (by rwa [Char.ofNat_toNat])
    rwa [Char.ofNat_toNat] at hdigit
  · have hdigits : ∀ w < 16, value? (Nat.digitChar w) = some w ∧
        value? (Nat.digitChar w).toUpper = some w := by decide
    rintro ⟨hv, rfl | rfl⟩
    · exact (hdigits v hv).1
    · exact (hdigits v hv).2

theorem Spells.lt {ds : List Char} {n : Nat} (h : Spells ds n) : n < 0x10000 := by
  obtain ⟨v, w, x, y, h, rfl⟩ := h
  obtain ⟨a, b, c, d, rfl⟩ := List.length_eq_four.mp h.length_eq
  simp only [List.forall₂_cons] at h
  obtain ⟨⟨hv, -⟩, ⟨hw, -⟩, ⟨hx, -⟩, ⟨hy, -⟩, -⟩ := h
  omega

theorem Spells.ne {ds : List Char} {n : Nat} (h : Spells ds n) {other : Char}
    (hother : value? other = none) : ∀ c ∈ ds, c ≠ other := by
  obtain ⟨v, w, x, y, hds, -⟩ := h
  refine ((List.forall₂_and_left ds _).mp (hds.imp (fun c u hc => ⟨?_, hc⟩))).1
  rintro rfl
  rw [value?_eq_some.mpr hc] at hother
  cases hother

theorem four?_eq_some_iff {ds : List Char} {n : Nat} :
    ds.length = 4 ∧ four? ds = some n ↔ Spells ds n := by
  constructor
  · rintro ⟨hlength, h⟩
    obtain ⟨a, b, c, d, rfl⟩ := List.length_eq_four.mp hlength
    simp only [four?, Option.bind_eq_bind, Option.bind_eq_some_iff, value?_eq_some] at h
    obtain ⟨v, hv, w, hw, x, hx, y, hy, hn⟩ := h
    exact ⟨v, w, x, y, by simp [hv, hw, hx, hy], by cases hn; ring⟩
  · rintro ⟨v, w, x, y, h, rfl⟩
    obtain ⟨a, b, c, d, rfl⟩ := List.length_eq_four.mp h.length_eq
    simp only [List.forall₂_cons, ← value?_eq_some] at h
    obtain ⟨hv, hw, hx, hy, -⟩ := h
    refine ⟨rfl, ?_⟩
    simp only [four?, hv, hw, hx, hy, bind, Option.bind, pure, Option.some.injEq]
    ring

end Hex

namespace StringLiteral

/-- One character between two quotes, as it may be written: by itself, behind a backslash, as four
hexadecimal digits or, if it needs more, as two surrogates. -/
inductive Writes (quote : Char) : List Char → Char → Prop
  | plain {x : Char} (notControl : ' ' ≤ x) (notQuote : x ≠ quote) (notBackslash : x ≠ '\\') :
      Writes quote [x] x
  | listed {c x : Char} (h : (c, x) ∈ escapes) : Writes quote ['\\', c] x
  | quote : Writes quote ['\\', quote] quote
  | code {ds : List Char} {x : Char} (digits : Hex.Spells ds x.toNat) :
      Writes quote ('\\' :: 'u' :: ds) x
  | pair {ds es : List Char} {high low : Nat} {x : Char} (digits : Hex.Spells ds high)
      (digits' : Hex.Spells es low) (isHigh : 0xD800 ≤ high ∧ high ≤ 0xDBFF)
      (isLow : 0xDC00 ≤ low ∧ low ≤ 0xDFFF)
      (value : x.toNat = 0x10000 + (high - 0xD800) * 0x400 + (low - 0xDC00)) :
      Writes quote ('\\' :: 'u' :: ds ++ '\\' :: 'u' :: es) x

/-- The text in front of the first quote that stands behind no backslash of its own, and the text
behind that quote. -/
def upToQuote (quote : Char) : List Char → Option (List Char × List Char)
  | [] => none
  | '\\' :: c :: cs => (upToQuote quote cs).map (fun (body, rest) => ('\\' :: c :: body, rest))
  | c :: cs =>
    if c = quote then some ([], cs)
    else (upToQuote quote cs).map (fun (body, rest) => (c :: body, rest))

/-- A text that writes a string piece by piece. -/
def WritesAll (quote : Char) (body xs : List Char) : Prop :=
  ∃ pieces, body = pieces.flatten ∧ List.Forall₂ (Writes quote) pieces xs

variable {quote : Char}

theorem isHighSurrogate_iff {n : Nat} : isHighSurrogate n = true ↔ 0xD800 ≤ n ∧ n ≤ 0xDBFF := by
  simp only [isHighSurrogate, Bool.and_eq_true, decide_eq_true_eq]
  omega

theorem isLowSurrogate_iff {n : Nat} : isLowSurrogate n = true ↔ 0xDC00 ≤ n ∧ n ≤ 0xDFFF := by
  simp only [isLowSurrogate, Bool.and_eq_true, decide_eq_true_eq]
  omega

theorem ofSurrogates_eq {high low : Nat} {x : Char} (hh : isHighSurrogate high = true)
    (hl : isLowSurrogate low = true) :
    ofSurrogates high low = x ↔ x.toNat = 0x10000 + (high - 0xD800) * 0x400 + (low - 0xDC00) := by
  rw [isHighSurrogate_iff] at hh
  rw [isLowSurrogate_iff] at hl
  have hvalid : (0x10000 + (high - 0xD800) * 0x400 + (low - 0xDC00)).isValidChar := by
    refine .inr ⟨?_, ?_⟩ <;> omega
  constructor
  · rintro rfl
    rw [ofSurrogates, Char.toNat_ofNat, if_pos hvalid]
  · intro h
    rw [ofSurrogates, ← h, Char.ofNat_toNat]

/-- Four digits spell a character of their own, if they spell no half of a pair. -/
theorem ofNat_eq {n : Nat} {x : Char} (h : n < 0x10000) :
    isHighSurrogate n = false ∧ isLowSurrogate n = false ∧ Char.ofNat n = x ↔ x.toNat = n := by
  simp only [← Bool.not_eq_true, isHighSurrogate_iff, isLowSurrogate_iff]
  constructor
  · rintro ⟨hhigh, hlow, rfl⟩
    have hvalid : n.isValidChar := by
      unfold Nat.isValidChar
      omega
    rw [Char.toNat_ofNat, if_pos hvalid]
  · rintro rfl
    have hvalid : x.toNat.isValidChar := x.valid
    unfold Nat.isValidChar at hvalid
    exact ⟨by omega, by omega, Char.ofNat_toNat x⟩

theorem Escapes.writes {e : List Char} {x : Char} (h : Escapes quote e x) :
    Writes quote ('\\' :: e) x := by
  cases h with
  | listed h => exact .listed h
  | quote => exact .quote
  | code length hex notHigh notLow =>
    have hds := Hex.four?_eq_some_iff.mp ⟨length, hex⟩
    exact .code (by rwa [(ofNat_eq hds.lt).mp ⟨notHigh, notLow, rfl⟩])
  | pair length length' hex hex' isHigh isLow =>
    exact .pair (Hex.four?_eq_some_iff.mp ⟨length, hex⟩) (Hex.four?_eq_some_iff.mp ⟨length', hex'⟩)
      (isHighSurrogate_iff.mp isHigh) (isLowSurrogate_iff.mp isLow)
      ((ofSurrogates_eq isHigh isLow).mp rfl)

theorem Writes.plain_or_escapes {piece : List Char} {x : Char} (h : Writes quote piece x) :
    (piece = [x] ∧ x ≠ quote ∧ x ≠ '\\' ∧ ¬ x < ' ') ∨
      ∃ e, piece = '\\' :: e ∧ Escapes quote e x := by
  cases h with
  | plain notControl notQuote notBackslash =>
    exact .inl ⟨rfl, notQuote, notBackslash, not_lt.mpr notControl⟩
  | listed h => exact .inr ⟨_, rfl, .listed h⟩
  | quote => exact .inr ⟨_, rfl, .quote⟩
  | code digits =>
    obtain ⟨length, hex⟩ := Hex.four?_eq_some_iff.mpr digits
    obtain ⟨hhigh, hlow, hx⟩ := (ofNat_eq digits.lt).mpr rfl
    exact .inr ⟨_, rfl, hx ▸ .code length hex hhigh hlow⟩
  | pair digits digits' isHigh isLow value =>
    obtain ⟨length, hex⟩ := Hex.four?_eq_some_iff.mpr digits
    obtain ⟨length', hex'⟩ := Hex.four?_eq_some_iff.mpr digits'
    have hhigh := isHighSurrogate_iff.mpr isHigh
    have hlow := isLowSurrogate_iff.mpr isLow
    obtain rfl := (ofSurrogates_eq hhigh hlow).mpr value
    exact .inr ⟨_, rfl, .pair length length' hex hex' hhigh hlow⟩

theorem denotes_iff {body xs : List Char} : Denotes quote body xs ↔ WritesAll quote body xs := by
  constructor
  · intro h
    induction h with
    | nil => exact ⟨[], rfl, .nil⟩
    | @plain c cs xs notQuote notBackslash notControl _ ih =>
      obtain ⟨pieces, rfl, hpieces⟩ := ih
      have hplain : Writes quote [c] c := .plain (not_lt.mp notControl) notQuote notBackslash
      exact ⟨[c] :: pieces, rfl, .cons hplain hpieces⟩
    | @escape e cs xs x first _ ih =>
      obtain ⟨pieces, rfl, hpieces⟩ := ih
      exact ⟨('\\' :: e) :: pieces, rfl, .cons first.writes hpieces⟩
  · rintro ⟨pieces, rfl, hpieces⟩
    induction hpieces with
    | nil => exact .nil
    | @cons piece x pieces xs hpiece _ ih =>
      rw [List.flatten_cons]
      rcases hpiece.plain_or_escapes with ⟨rfl, hquote, hbackslash, hcontrol⟩ | ⟨e, rfl, he⟩
      · exact .plain hquote hbackslash hcontrol ih
      · exact .escape he ih

theorem upToQuote_plain {front : List Char} (h : ∀ c ∈ front, c ≠ quote ∧ c ≠ '\\')
    (cs : List Char) :
    upToQuote quote (front ++ cs) = (upToQuote quote cs).map (fun r => (front ++ r.1, r.2)) := by
  induction front with
  | nil => simp
  | cons c front ih =>
    obtain ⟨hquote, hbackslash⟩ := h c (by simp)
    have hfront := ih (fun d hd => h d (List.mem_cons_of_mem c hd))
    rw [List.cons_append, upToQuote, if_neg hquote, hfront, Option.map_map]
    · rfl
    · rintro d ds rfl
      exact absurd rfl hbackslash

theorem upToQuote_backslash (c : Char) (cs : List Char) :
    upToQuote quote ('\\' :: c :: cs) =
      (upToQuote quote cs).map (fun r => ('\\' :: c :: r.1, r.2)) := by
  rw [upToQuote]

theorem upToQuote_digits {ds : List Char} {n : Nat} (h : Hex.Spells ds n)
    (hq : quote = '\'' ∨ quote = '"') (cs : List Char) :
    upToQuote quote (ds ++ cs) = (upToQuote quote cs).map (fun r => (ds ++ r.1, r.2)) := by
  refine upToQuote_plain (fun c hc => ⟨h.ne ?_ c hc, h.ne (by decide) c hc⟩) cs
  rcases hq with rfl | rfl <;> decide

theorem upToQuote_piece {piece : List Char} {x : Char} (h : Writes quote piece x)
    (hq : quote = '\'' ∨ quote = '"') (cs : List Char) :
    upToQuote quote (piece ++ cs) = (upToQuote quote cs).map (fun r => (piece ++ r.1, r.2)) := by
  cases h with
  | plain notControl notQuote notBackslash => exact upToQuote_plain (by simp [*]) cs
  | listed h => exact upToQuote_backslash _ cs
  | quote => exact upToQuote_backslash _ cs
  | code digits =>
    simp only [List.cons_append, upToQuote_backslash, upToQuote_digits digits hq, Option.map_map,
      Function.comp_def]
  | pair digits digits' _ _ _ =>
    simp only [List.cons_append, List.append_assoc, upToQuote_backslash,
      upToQuote_digits digits hq, upToQuote_digits digits' hq, Option.map_map, Function.comp_def]

theorem upToQuote_body {body xs : List Char} (h : WritesAll quote body xs)
    (hq : quote = '\'' ∨ quote = '"') (rest : List Char) :
    upToQuote quote (body ++ quote :: rest) = some (body, rest) := by
  obtain ⟨pieces, rfl, hpieces⟩ := h
  induction hpieces with
  | nil => rcases hq with rfl | rfl <;> rfl
  | cons hpiece _ ih =>
    rw [List.flatten_cons, List.append_assoc, upToQuote_piece hpiece hq, ih]
    rfl

theorem upToQuote_eq_some {cs body rest : List Char} (h : upToQuote quote cs = some (body, rest)) :
    cs = body ++ quote :: rest := by
  induction cs using upToQuote.induct quote generalizing body with
  | case1 => cases h
  | case2 c cs ih =>
    rw [upToQuote_backslash, Option.map_eq_some_iff] at h
    obtain ⟨⟨body', rest'⟩, hr, heq⟩ := h
    cases heq
    rw [ih hr]
    rfl
  | case3 cs hpair =>
    rw [upToQuote, if_pos rfl] at h
    · cases h
      rfl
    · exact hpair
  | case4 c cs hpair hquote ih =>
    rw [upToQuote, if_neg hquote, Option.map_eq_some_iff] at h
    · obtain ⟨⟨body', rest'⟩, hr, heq⟩ := h
      cases heq
      rw [ih hr]
      rfl
    · exact hpair

/-- A way to write each character: by itself where that is allowed, else behind a backslash, and
control characters by their digits. -/
def written (quote c : Char) : List Char :=
  if c = quote ∨ c = '\\' then ['\\', c]
  else if c < ' ' then '\\' :: 'u' :: Hex.four c.toNat
  else [c]

theorem writes_written (c : Char) : Writes quote (written quote c) c := by
  unfold written
  split
  · rename_i h
    rcases h with rfl | rfl
    · exact .quote
    · exact .listed (by decide)
  · rename_i h
    rw [not_or] at h
    split
    · rename_i hcontrol
      have hc : c.toNat < 32 := hcontrol
      have hfour := Hex.four?_four (show c.toNat < 65536 by omega) []
      rw [List.append_nil] at hfour
      exact .code (Hex.four?_eq_some_iff.mp ⟨rfl, hfour⟩)
    · rename_i hcontrol
      exact .plain (not_lt.mp hcontrol) h.1 h.2

theorem exists_writesAll (xs : List Char) : ∃ body, WritesAll quote body xs := by
  refine ⟨_, xs.map (written quote), rfl, List.forall₂_map_left_iff.mpr ?_⟩
  exact List.forall₂_same.mpr (fun c _ => writes_written c)

end StringLiteral

namespace Token
open StringLiteral

/-- Between quotes stands what is made of raw characters and escapes, and nothing else; it is read
as the characters that these write, and the quote behind it ends the token. Each string can be
written between quotes of either kind, and all that write it are the same token. -/
theorem scanString_writes {quote : Char} (hq : quote = '\'' ∨ quote = '"') :
    (∀ cs kind n, scanString quote cs = .ok (kind, n) ↔ ∃ body rest s,
      upToQuote quote cs = some (body, rest) ∧ WritesAll quote body s.toList ∧
        kind = .string s ∧ n = body.length + 1) ∧
    ∀ s : String, (∃ body, WritesAll quote body s.toList) ∧
      ∀ body rest, WritesAll quote body s.toList →
        scanOne .any quote (body ++ quote :: rest) = .ok (.string s, body.length + 1) := by
  have hcomplete {body xs : List Char} (h : WritesAll quote body xs) (rest : List Char) :
      scanString quote (body ++ quote :: rest) =
        .ok (.string (String.ofList xs), body.length + 1) := by
    rw [scanString, scanTail_complete (denotes_iff.mpr h) hq, Nat.add_assoc, Nat.add_comm 1]
    rfl
  refine ⟨fun cs kind n => ⟨fun h => ?_, ?_⟩, fun s => ⟨exists_writesAll _, fun body rest h => ?_⟩⟩
  · cases hscan : scanTail quote 1 cs with
    | error fault => rw [scanString, hscan] at h; cases h
    | ok r =>
      rw [scanString, hscan] at h
      cases h
      obtain ⟨body, rest, rfl, hstop, hbody⟩ := scanTail_sound hscan
      have hwrites := denotes_iff.mp hbody
      exact ⟨body, rest, _, upToQuote_body hwrites hq rest, by rwa [String.toList_ofList], rfl,
        by omega⟩
  · rintro ⟨body, rest, s, hcut, hwrites, rfl, rfl⟩
    rw [upToQuote_eq_some hcut, hcomplete hwrites, String.ofList_toList]
  · have hquote (cs : List Char) : scanOne .any quote cs = scanString quote cs := by
      rcases hq with rfl | rfl <;> rfl
    rw [hquote, hcomplete h, String.ofList_toList]

/-- Two surrogates and an escaped quote, the digits in both cases. -/
theorem scanString_writes_surrogates :
    scanString '"' "\\uD834\\udd1e\\\"\" == 'a'".toList = .ok (.string "𝄞\"", 15) := by
  have hcut : upToQuote '"' "\\uD834\\udd1e\\\"\" == 'a'".toList =
      some ("\\uD834\\udd1e\\\"".toList, " == 'a'".toList) := by cbv
  have hhigh : Hex.Spells ['D', '8', '3', '4'] 0xD834 := Hex.four?_eq_some_iff.mp ⟨rfl, rfl⟩
  have hlow : Hex.Spells ['d', 'd', '1', 'e'] 0xDD1E := Hex.four?_eq_some_iff.mp ⟨rfl, rfl⟩
  have hpair : Writes '"' ('\\' :: 'u' :: ['D', '8', '3', '4'] ++
      '\\' :: 'u' :: ['d', 'd', '1', 'e']) '𝄞' :=
    .pair hhigh hlow (by decide) (by decide) (by decide)
  have hbody : WritesAll '"' "\\uD834\\udd1e\\\"".toList "𝄞\"".toList :=
    ⟨[_, _], by cbv, .cons hpair (.cons .quote .nil)⟩
  exact ((scanString_writes (.inr rfl)).1 _ _ _).mpr ⟨_, _, _, hcut, hbody, rfl, by cbv⟩

end Token
end JsonQuery
