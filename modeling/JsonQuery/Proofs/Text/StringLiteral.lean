import JsonQuery.Text.StringLiteral

namespace JsonQuery
namespace Hex

/-- Only the first four characters count. -/
theorem four?_append {ds : List Char} (h : ds.length = 4) (rest : List Char) :
    four? (ds ++ rest) = four? ds := by
  match ds, h with
  | [_, _, _, _], _ => rfl

theorem four?_eq_some {cs : List Char} {n : Nat} (h : four? cs = some n) :
    ∃ ds rest, cs = ds ++ rest ∧ ds.length = 4 ∧ four? ds = some n := by
  match cs, h with
  | a :: b :: c :: d :: rest, h => exact ⟨[a, b, c, d], rest, rfl, rfl, h⟩

end Hex

namespace StringLiteral

/-- The characters that stand for others behind a backslash, with these. -/
def escapes : List (Char × Char) :=
  [('b', '\x08'), ('f', '\x0c'), ('n', '\n'), ('r', '\r'), ('t', '\t'), ('/', '/'), ('\\', '\\')]

/-- What stands behind a backslash for a character: one of the escapes, the quote around the
literal, or four hexadecimal digits, twice for a character that takes two surrogates. -/
inductive Escapes (quote : Char) : List Char → Char → Prop
  | listed {c x : Char} (h : (c, x) ∈ escapes) : Escapes quote [c] x
  | quote : Escapes quote [quote] quote
  | code {ds : List Char} {code : Nat} (length : ds.length = 4) (hex : Hex.four? ds = some code)
      (notHigh : isHighSurrogate code = false) (notLow : isLowSurrogate code = false) :
      Escapes quote ('u' :: ds) (Char.ofNat code)
  | pair {ds es : List Char} {high low : Nat} (length : ds.length = 4) (length' : es.length = 4)
      (hex : Hex.four? ds = some high) (hex' : Hex.four? es = some low)
      (isHigh : isHighSurrogate high = true) (isLow : isLowSurrogate low = true) :
      Escapes quote ('u' :: ds ++ '\\' :: 'u' :: es) (ofSurrogates high low)

/-- What the text between two quotes stands for. -/
inductive Denotes (quote : Char) : List Char → List Char → Prop
  | nil : Denotes quote [] []
  | plain {c : Char} {cs xs : List Char} (notQuote : c ≠ quote) (notBackslash : c ≠ '\\')
      (notControl : ¬ c < ' ') (rest : Denotes quote cs xs) : Denotes quote (c :: cs) (c :: xs)
  | escape {e cs xs : List Char} {x : Char} (first : Escapes quote e x)
      (rest : Denotes quote cs xs) : Denotes quote ('\\' :: e ++ cs) (x :: xs)

/-- A literal between quotes of either kind. -/
def Spells (cs value : List Char) : Prop :=
  ∃ quote body, (quote = '\'' ∨ quote = '"') ∧ cs = quote :: body ++ [quote] ∧
    Denotes quote body value

variable {quote : Char}

theorem scanUnicode_sound {cs : List Char} {x : Char} {n : Nat}
    (h : scanUnicode cs = .ok (x, n)) :
    ∃ e rest, cs = e ++ rest ∧ e.length = n ∧ Escapes quote ('u' :: e) x := by
  unfold scanUnicode at h
  split at h
  · cases h
  · rename_i code hcode
    obtain ⟨ds, rest, rfl, hlength, hds⟩ := Hex.four?_eq_some hcode
    rw [List.drop_left' hlength] at h
    split at h
    · rename_i hhigh
      split at h
      · rename_i rest' _
        split at h
        · cases h
        · rename_i low hlow
          obtain ⟨es, more, rfl, hlength', hes⟩ := Hex.four?_eq_some hlow
          split at h
          · rename_i hislow
            simp only [Except.ok.injEq, Prod.mk.injEq] at h
            obtain ⟨rfl, rfl⟩ := h
            exact ⟨ds ++ '\\' :: 'u' :: es, more, by simp, by simp [hlength, hlength'],
              .pair hlength hlength' hds hes hhigh hislow⟩
          · cases h
      · cases h
    · rename_i hhigh
      split at h
      · cases h
      · rename_i hlow
        cases h
        exact ⟨ds, rest, rfl, hlength, .code hlength hds (by simpa using hhigh)
          (by simpa using hlow)⟩

theorem scanEscape_sound {cs : List Char} {x : Char} {n : Nat}
    (h : scanEscape quote cs = .ok (x, n)) :
    ∃ e rest, cs = e ++ rest ∧ e.length = n ∧ Escapes quote e x := by
  unfold scanEscape at h
  split at h
  case h_9 cs =>
    cases hu : scanUnicode cs with
    | error fault => rw [hu] at h; cases h
    | ok r =>
      rw [hu] at h
      cases h
      obtain ⟨e, rest, rfl, hlength, he⟩ := scanUnicode_sound hu
      exact ⟨'u' :: e, rest, rfl, by simp [hlength], he⟩
  case h_10 c rest _ _ _ _ _ _ _ _ =>
    split at h
    · rename_i hc
      cases h
      subst hc
      exact ⟨[c], rest, rfl, rfl, .quote⟩
    · cases h
  all_goals cases h
  all_goals exact ⟨[_], _, rfl, rfl, .listed (by decide)⟩

theorem scanEscape_complete {e : List Char} {x : Char} (h : Escapes quote e x)
    (hq : quote = '\'' ∨ quote = '"') (rest : List Char) :
    scanEscape quote (e ++ rest) = .ok (x, e.length) := by
  cases h with
  | listed h =>
    simp only [escapes, List.mem_cons, Prod.mk.injEq, List.not_mem_nil, or_false] at h
    rcases h with ⟨rfl, rfl⟩ | ⟨rfl, rfl⟩ | ⟨rfl, rfl⟩ | ⟨rfl, rfl⟩ | ⟨rfl, rfl⟩ | ⟨rfl, rfl⟩ |
      ⟨rfl, rfl⟩ <;> rfl
  | quote => rcases hq with rfl | rfl <;> rfl
  | @code ds code length hex notHigh notLow =>
    simp only [List.cons_append, scanEscape, scanUnicode, Hex.four?_append length, hex, notHigh,
      notLow, Bool.false_eq_true, if_false, Except.map, List.length_cons, length]
  | @pair ds es high low length length' hex hex' isHigh isLow =>
    simp only [List.cons_append, List.append_assoc, scanEscape, scanUnicode,
      Hex.four?_append length, hex, isHigh, if_true, List.drop_left' length,
      Hex.four?_append length', hex', isLow, Except.map, List.length_cons, List.length_append,
      length, length']

/-- Only a literal is scanned to its end, and to what it denotes. -/
theorem scanTail_sound {i stop : Nat} {cs xs : List Char}
    (h : scanTail quote i cs = .ok (xs, stop)) :
    ∃ body rest, cs = body ++ quote :: rest ∧ stop = i + body.length + 1 ∧
      Denotes quote body xs := by
  induction i, cs using scanTail.induct quote generalizing xs stop with
  | case1 i =>
    rw [scanTail] at h
    cases h
  | case2 i rest =>
    rw [scanTail, if_pos rfl] at h
    cases h
    exact ⟨[], rest, rfl, rfl, .nil⟩
  | case3 i rest fault hescape hquote =>
    rw [scanTail, if_neg hquote, if_pos rfl, hescape] at h
    cases h
  | case4 i rest x n hescape hquote ih =>
    rw [scanTail, if_neg hquote, if_pos rfl, hescape] at h
    cases hs : scanTail quote (i + 1 + n) (rest.drop n) with
    | error fault => simp only [hs] at h; cases h
    | ok r =>
      simp only [hs] at h
      cases h
      obtain ⟨e, tail, rfl, rfl, he⟩ := scanEscape_sound hescape
      obtain ⟨body, more, hbody, hstop, hdenotes⟩ := ih hs
      rw [List.drop_left] at hbody
      subst hbody
      exact ⟨'\\' :: e ++ body, more, by simp, by simp [hstop]; omega, .escape he hdenotes⟩
  | case5 i c rest hquote hslash hcontrol =>
    rw [scanTail, if_neg hquote, if_neg hslash, if_pos hcontrol] at h
    cases h
  | case6 i c rest hquote hslash hcontrol ih =>
    rw [scanTail, if_neg hquote, if_neg hslash, if_neg hcontrol] at h
    cases hs : scanTail quote (i + 1) rest with
    | error fault => rw [hs] at h; cases h
    | ok r =>
      rw [hs] at h
      cases h
      obtain ⟨body, more, rfl, hstop, hdenotes⟩ := ih hs
      exact ⟨c :: body, more, rfl, by simp [hstop]; omega, .plain hquote hslash hcontrol hdenotes⟩

theorem scanTail_complete {body xs : List Char} (h : Denotes quote body xs)
    (hq : quote = '\'' ∨ quote = '"') (i : Nat) (rest : List Char) :
    scanTail quote i (body ++ quote :: rest) = .ok (xs, i + body.length + 1) := by
  induction h generalizing i with
  | nil => rw [List.nil_append, scanTail, if_pos rfl]; rfl
  | @plain c cs xs hquote hslash hcontrol _ ih =>
    rw [List.cons_append, scanTail, if_neg hquote, if_neg hslash, if_neg hcontrol, ih]
    simp only [Except.map, List.length_cons, Nat.add_assoc, Nat.add_comm 1]
  | @escape e cs xs x he _ ih =>
    have hslash : ('\\' : Char) ≠ quote := by rcases hq with rfl | rfl <;> decide
    rw [List.cons_append, List.cons_append, List.append_assoc, scanTail]
    simp only [if_neg hslash, if_true, scanEscape_complete he hq, List.drop_left, ih, Except.map,
      List.length_cons, List.length_append]
    congr 2
    omega

/-- A literal that starts a text is the only one that does, whatever it denotes. -/
theorem Spells.unique {cs cs' xs xs' rest rest' : List Char} (h : Spells cs xs)
    (h' : Spells cs' xs') (heq : cs ++ rest = cs' ++ rest') : cs = cs' := by
  obtain ⟨quote, body, hq, rfl, hbody⟩ := h
  obtain ⟨quote', body', -, rfl, hbody'⟩ := h'
  simp only [List.cons_append, List.append_assoc, List.cons.injEq, List.nil_append] at heq
  obtain ⟨rfl, heq⟩ := heq
  have hscan := scanTail_complete hbody hq 0 rest
  rw [heq, scanTail_complete hbody' hq 0 rest'] at hscan
  simp only [Except.ok.injEq, Prod.mk.injEq] at hscan
  have hsame := (List.append_inj heq (by omega)).1
  rw [hsame]

end StringLiteral
end JsonQuery
