import JsonQuery.Proofs.Regexp.Grammar
import JsonQuery.Proofs.Regexp.Reading
import JsonQuery.Proofs.Text.Read
import JsonQuery.Regexp.Writer

namespace JsonQuery
open Engine (CharSet Pattern Lexeme Escape scanItem scanEscape scanRange scanMember scanInClass upTo
  scanGreed scanBounds)

namespace Engine

theorem upTo_append {stop : Char} {cs : List Char} (h : ∀ c ∈ cs, (c != stop) = true)
    (rest : List Char) : upTo stop (cs ++ stop :: rest) = some (cs, rest) := by
  obtain ⟨htake, hdrop⟩ := takeWhile_stop h (bne_self_eq_false stop) rest
  rw [upTo, hdrop, htake]

theorem scanGreed_of_ne {rest : List Char} (h : rest.head? ≠ some '?') (low : Nat)
    (high : Option Nat) : scanGreed low high rest = (.repetition low high true, rest) := by
  rw [scanGreed, if_neg h]

theorem scanRange_of_ne {rest : List Char} (h : rest.head? ≠ some '-') (low : Escape) :
    scanRange low rest = low.set?.map (fun s => (.member s, rest)) := by
  unfold scanRange
  split
  · exact absurd rfl h
  · rfl

/-- Where no bracket and no operation starts, a member of the class does. -/
theorem scanInClass_of_notMem {c : Char} (h : c ∉ [']', '[', '&', '-', '~']) (rest : List Char) :
    scanInClass (c :: rest) = scanMember (c :: rest) := by
  unfold scanInClass
  split <;> simp_all

theorem scanOpenClass_of_notMem {c : Char} (h : c ∉ ['^', '-', ']']) (negated : Bool)
    (rest : List Char) :
    scanOpenClass ((if negated then ['^'] else []) ++ c :: rest) =
      (.openClass negated [], c :: rest) := by
  simp only [List.mem_cons, List.not_mem_nil, or_false, not_or] at h
  cases negated <;> simp [scanOpenClass, h]

end Engine

namespace Regexp

/-- A character that is special in the notation stands for itself behind a backslash. -/
theorem scanEscape_special {c : Char} (h : c ∈ special) (rest : List Char) :
    scanEscape (c :: rest) = some (.literal c, rest) := by
  simp only [special, List.mem_cons, List.not_mem_nil, or_false] at h
  rcases h with rfl | rfl | rfl | rfl | rfl | rfl | rfl | rfl | rfl | rfl | rfl | rfl | rfl | rfl |
    rfl | rfl | rfl | rfl <;> rfl

/-- The set that a property spells. -/
def propertySpelled (complement : Bool) (p : Property) : CharSet :=
  .complementIf complement (.property p.name)

theorem scanEscape_property (complement : Bool) {p : Property} (hp : p ∈ Property.all)
    (rest : List Char) :
    scanEscape ((if complement then 'P' else 'p') :: '\x7b' :: (p.name ++ '\x7d' :: rest)) =
      some (.set (propertySpelled complement p), rest) := by
  have hname : Engine.scanName ('\x7b' :: (p.name ++ '\x7d' :: rest)) = some (p.name, rest) :=
    Engine.upTo_append (Property.name_ne_brace p hp) rest
  cases complement <;> simp [scanEscape, hname, propertySpelled]

namespace Symbol

/-- The text of a symbol starts with a backslash, or is a character that is not special. -/
theorem chars_cases (s : Symbol) : (∃ c, s.chars = ['\\', c] ∧
    ∀ rest, scanEscape (c :: rest) = some (.literal s.char, rest)) ∨
      ∃ c, s = .plain c ∧ c ∉ special ∧ s.chars = [c] := by
  cases s with
  | plain c =>
    by_cases h : c ∈ special
    · exact .inl ⟨c, by simp [chars, h], scanEscape_special h⟩
    · exact .inr ⟨c, rfl, h, by simp [chars, h]⟩
  | lineFeed => exact .inl ⟨'n', rfl, fun _ => rfl⟩
  | carriageReturn => exact .inl ⟨'r', rfl, fun _ => rfl⟩
  | tab => exact .inl ⟨'t', rfl, fun _ => rfl⟩

theorem scan_chars (s : Symbol) (rest : List Char) :
    Engine.scan (s.chars ++ rest) = some (.pattern (.literal s.char), rest) := by
  rcases s.chars_cases with ⟨c, hchars, hescape⟩ | ⟨c, rfl, hc, hchars⟩
  · rw [hchars]
    simp [Engine.scan, hescape, Escape.pattern]
  · rw [hchars]
    unfold Engine.scan
    simp only [special, List.mem_cons, List.not_mem_nil, or_false, not_or] at hc
    simp only [List.singleton_append]
    split <;> simp_all [char]

theorem scanItem_chars (s : Symbol) (rest : List Char) :
    scanItem (s.chars ++ rest) = some (.literal s.char, rest) := by
  rcases s.chars_cases with ⟨c, hchars, hescape⟩ | ⟨c, rfl, hc, hchars⟩
  · rw [hchars]
    exact hescape rest
  · have hne : c ≠ '\\' := by
      rintro rfl
      exact hc (by decide)
    rw [hchars, List.singleton_append, scanItem, if_neg hne]
    rfl

end Symbol

namespace ClassItem

def spelled : ClassItem → CharSet
  | .single s => .single s.char
  | .range low high => .range low.char high.char
  | .property complement p => propertySpelled complement p

/-- What the first character of an item is not. -/
theorem chars_head (item : ClassItem) : ∃ c rest, item.chars = c :: rest ∧
    c ∉ [']', '[', '&', '-', '~', '^'] := by
  have hsymbol (s : Symbol) : ∃ c rest, s.chars = c :: rest ∧
      c ∉ [']', '[', '&', '-', '~', '^'] := by
    rcases s.chars_cases with ⟨c, hchars, -⟩ | ⟨c, -, hc, hchars⟩
    · exact ⟨'\\', [c], hchars, by decide⟩
    · refine ⟨c, [], hchars, ?_⟩
      simp only [special, List.mem_cons, List.not_mem_nil, or_false, not_or] at hc ⊢
      simp [hc]
  cases item with
  | single s => exact hsymbol s
  | range low high =>
    obtain ⟨c, rest, hchars, hc⟩ := hsymbol low
    exact ⟨c, rest ++ '-' :: high.chars, by simp [chars, hchars], hc⟩
  | property complement p => exact ⟨'\\', _, rfl, by decide⟩

theorem scanInClass_chars {item : ClassItem} {cs : List Char} (h : item.Spells cs)
    {rest : List Char} (hr : rest.head? ≠ some '-') :
    scanInClass (item.chars ++ rest) = some (.member item.spelled, rest) := by
  have hmember : scanInClass (item.chars ++ rest) = scanMember (item.chars ++ rest) := by
    obtain ⟨c, tail, hchars, hc⟩ := item.chars_head
    rw [hchars]
    refine Engine.scanInClass_of_notMem (fun hmem => hc ?_) _
    simp only [List.mem_cons, List.not_mem_nil, or_false] at hmem ⊢
    tauto
  rw [hmember, scanMember]
  cases item with
  | single s =>
    rw [chars, s.scanItem_chars, Option.bind_some, Engine.scanRange_of_ne hr]
    rfl
  | range low high =>
    have hchars : low.chars ++ '-' :: high.chars ++ rest =
        low.chars ++ ('-' :: (high.chars ++ rest)) := by simp
    rw [chars, hchars, low.scanItem_chars, Option.bind_some]
    obtain ⟨c, tail, hhigh, hc⟩ := (ClassItem.single high).chars_head
    have hscan := high.scanItem_chars rest
    rw [chars] at hhigh
    rw [hhigh, List.cons_append] at hscan ⊢
    have hne : ¬ (c = ']' ∨ c = '-') := by
      rintro (rfl | rfl) <;> exact hc (by decide)
    simp [scanRange, hne, hscan, spelled]
  | property complement p =>
    have hscan : scanItem (propertyChars complement p ++ rest) =
        some (.set (propertySpelled complement p), rest) := by
      have hescape := scanEscape_property complement h.1 rest
      simpa [propertyChars, scanItem] using hescape
    rw [chars, hscan, Option.bind_some, Engine.scanRange_of_ne hr]
    rfl

end ClassItem

namespace Quantifier

/-- The repetition that a quantifier spells, if it is one. -/
def spelled : Quantifier → Option (Nat × Option Nat)
  | .once => none
  | .star => some (0, none)
  | .plus => some (1, none)
  | .optional => some (0, some 1)
  | .exactly n => some (Numeral.natOfDigits n, some (Numeral.natOfDigits n))
  | .atLeast n => some (Numeral.natOfDigits n, none)
  | .between n m => some (Numeral.natOfDigits n, some (Numeral.natOfDigits m))

theorem scan_chars {q : Quantifier} {cs : List Char} (h : q.Spells cs) {low : Nat}
    {high : Option Nat} (hq : q.spelled = some (low, high)) {rest : List Char}
    (hr : rest.head? ≠ some '?') :
    Engine.scan (q.chars ++ rest) = some (.repetition low high true, rest) := by
  have hbrace (bounds : List Char) (hb : scanBounds (bounds ++ '\x7d' :: rest) =
      some ((low, high), rest)) : Engine.scan ('\x7b' :: bounds ++ '\x7d' :: rest) =
        some (.repetition low high true, rest) := by
    simp [Engine.scan, hb, Engine.scanGreed_of_ne hr]
  cases q with
  | once => cases hq
  | star | plus | optional =>
    cases hq
    simp [Engine.scan, chars, Engine.scanGreed_of_ne hr]
  | exactly n =>
    cases hq
    obtain ⟨htake, hdrop⟩ := takeWhile_stop h.1.2 (by decide : '\x7d'.isDigit = false) rest
    have hscan := hbrace n (by simp [scanBounds, htake, hdrop, h.1.1])
    simpa [chars] using hscan
  | atLeast n =>
    cases hq
    obtain ⟨htake, hdrop⟩ := takeWhile_stop h.1.2 (by decide : ','.isDigit = false)
      ('\x7d' :: rest)
    have hscan := hbrace (n ++ [',']) (by simp [scanBounds, htake, hdrop, h.1.1])
    simpa [chars] using hscan
  | between n m =>
    cases hq
    obtain ⟨htake, hdrop⟩ := takeWhile_stop h.1.2 (by decide : ','.isDigit = false)
      (m ++ '\x7d' :: rest)
    obtain ⟨htake', hdrop'⟩ := takeWhile_stop h.2.1.2
      (by decide : '\x7d'.isDigit = false) rest
    have hscan := hbrace (n ++ ',' :: m)
      (by simp [scanBounds, htake, hdrop, htake', hdrop', h.1.1, h.2.1.1])
    simpa [chars] using hscan

end Quantifier
end Regexp
end JsonQuery
