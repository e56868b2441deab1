import JsonQuery.Pointer.Basic
import JsonQuery.Proofs.Text.Read

namespace JsonQuery
namespace Pointer

theorem unescape_cons {c : Char} (h : c ≠ '~') (cs : List Char) :
    unescape (c :: cs) = (unescape cs).map (c :: ·) := by
  rw [unescape, if_neg h]
  · rintro cs rfl rfl
    exact absurd rfl h
  · rintro cs rfl rfl
    exact absurd rfl h

theorem unescape_flatMap (cs : List Char) : unescape (cs.flatMap escapeChar) = some cs := by
  induction cs with
  | nil => rfl
  | cons c cs ih =>
    by_cases htilde : c = '~'
    · subst htilde
      simp [escapeChar, unescape, ih]
    · by_cases hslash : c = '/'
      · subst hslash
        simp [escapeChar, unescape, ih]
      · have hself : escapeChar c = [c] := by simp [escapeChar, htilde, hslash]
        rw [List.flatMap_cons, hself, List.singleton_append, unescape_cons htilde, ih]
        rfl

/-- An escaped part holds no slash. -/
theorem slash_notMem_flatMap (cs : List Char) : '/' ∉ cs.flatMap escapeChar := by
  rw [List.mem_flatMap]
  rintro ⟨c, -, hc⟩
  unfold escapeChar at hc
  split at hc
  · simp at hc
  · split at hc
    · simp at hc
    · rename_i hslash
      exact hslash (List.mem_singleton.mp hc).symm

theorem splitSlashes_of_notMem {cs : List Char} (h : '/' ∉ cs) : splitSlashes cs = [cs] := by
  induction cs with
  | nil => rfl
  | cons c cs ih =>
    rw [List.mem_cons, not_or] at h
    rw [splitSlashes, if_neg (Ne.symm h.1), ih h.2]
    rfl

theorem splitSlashes_append {cs : List Char} (h : '/' ∉ cs) (rest : List Char) :
    splitSlashes (cs ++ '/' :: rest) = cs :: splitSlashes rest := by
  induction cs with
  | nil => rfl
  | cons c cs ih =>
    rw [List.mem_cons, not_or] at h
    rw [List.cons_append, splitSlashes, if_neg (Ne.symm h.1), ih h.2]
    rfl

/-- Parts without slashes are found again between the slashes that join them. -/
theorem splitSlashes_join {part : List Char} {parts : List (List Char)}
    (h : ∀ p ∈ part :: parts, '/' ∉ p) :
    splitSlashes (part ++ parts.flatMap ('/' :: ·)) = part :: parts := by
  induction parts generalizing part with
  | nil =>
    rw [List.flatMap_nil, List.append_nil]
    exact splitSlashes_of_notMem (h part (by simp))
  | cons next parts ih =>
    rw [List.flatMap_cons, List.cons_append, splitSlashes_append (h part (by simp)),
      ih (fun p hp => h p (List.mem_cons_of_mem part hp))]

theorem join_splitSlashes (cs : List Char) :
    (splitSlashes cs).flatMap ('/' :: ·) = '/' :: cs := by
  induction cs with
  | nil => rfl
  | cons c cs ih =>
    rw [splitSlashes]
    split
    · rename_i hc
      rw [List.flatMap_cons, ih, hc]
      rfl
    · cases hparts : splitSlashes cs with
      | nil => simp [hparts] at ih
      | cons part parts =>
        rw [hparts, List.flatMap_cons, List.cons_append, List.cons.injEq] at ih
        rw [List.modifyHead_cons, List.flatMap_cons, List.cons_append, List.cons_append, ih.2]

theorem slash_notMem_splitSlashes (cs : List Char) : ∀ part ∈ splitSlashes cs, '/' ∉ part := by
  induction cs with
  | nil => simp [splitSlashes]
  | cons c cs ih =>
    rw [splitSlashes]
    split
    · simpa using ih
    · rename_i hc
      cases hparts : splitSlashes cs with
      | nil => simp
      | cons part parts =>
        rw [hparts] at ih
        intro q hq
        rcases List.mem_cons.mp hq with rfl | hq
        · simpa [Ne.symm hc] using ih part (by simp)
        · exact ih q (List.mem_cons_of_mem part hq)

/-- The parts of a text are the only texts without slashes that it is made of. -/
theorem splitSlashes_eq_iff {cs : List Char} {parts : List (List Char)} :
    splitSlashes cs = parts ↔
      '/' :: cs = parts.flatMap ('/' :: ·) ∧ ∀ part ∈ parts, '/' ∉ part := by
  constructor
  · rintro rfl
    exact ⟨(join_splitSlashes cs).symm, slash_notMem_splitSlashes cs⟩
  · rintro ⟨hjoin, hs⟩
    cases parts with
    | nil => simp at hjoin
    | cons part parts =>
      obtain rfl := (List.cons.inj hjoin).2
      exact splitSlashes_join hs

/-- The text behind the first slash splits into the escaped parts. -/
theorem splitSlashes_chars (part : String) (parts : List String) :
    splitSlashes (part.toList.flatMap escapeChar ++ parts.flatMap partChars) =
      (part :: parts).map (fun p => p.toList.flatMap escapeChar) := by
  have hjoin : parts.flatMap partChars =
      (parts.map (fun p => p.toList.flatMap escapeChar)).flatMap ('/' :: ·) := by
    rw [List.flatMap_map]
    rfl
  rw [hjoin, splitSlashes_join, List.map_cons]
  rw [← List.map_cons (f := fun p : String => p.toList.flatMap escapeChar)]
  simp only [List.mem_map]
  rintro _ ⟨p, -, rfl⟩
  exact slash_notMem_flatMap _

theorem unescapeParts_map (parts : List String) :
    unescapeParts (parts.map (fun p => p.toList.flatMap escapeChar)) = .ok parts := by
  induction parts with
  | nil => rfl
  | cons part parts ih =>
    rw [List.map_cons, unescapeParts, unescape_flatMap]
    simp [ih, Except.map]

theorem ofChars_chars (p : Pointer) : ofChars p.chars = .ok p := by
  obtain ⟨parts⟩ := p
  cases parts with
  | nil => rfl
  | cons part parts =>
    have hchars : chars ⟨part :: parts⟩ =
        '/' :: (part.toList.flatMap escapeChar ++ parts.flatMap partChars) := rfl
    rw [hchars, ofChars, if_pos rfl, splitSlashes_chars, unescapeParts_map]
    rfl

/-- A pointer is read back from its text. -/
theorem ofText_text (p : Pointer) : ofText p.text = .ok p := by
  rw [ofText, text, String.toList_ofList, ofChars_chars]

/-- Each tilde has `0` or `1` behind it. -/
def WellEscaped (cs : List Char) : Prop :=
  ∀ front rest, cs = front ++ '~' :: rest → rest.head? = some '0' ∨ rest.head? = some '1'

theorem wellEscaped_nil : WellEscaped [] := by
  intro front rest h
  simp at h

theorem wellEscaped_cons {c : Char} {cs : List Char} : WellEscaped (c :: cs) ↔
    (c = '~' → cs.head? = some '0' ∨ cs.head? = some '1') ∧ WellEscaped cs := by
  constructor
  · intro h
    refine ⟨fun hc => h [] cs (by rw [hc]; rfl), fun front rest hcs => ?_⟩
    exact h (c :: front) rest (by rw [hcs]; rfl)
  · rintro ⟨hc, hcs⟩ front rest h
    cases front with
    | nil =>
      obtain ⟨rfl, rfl⟩ := List.cons.inj h
      exact hc rfl
    | cons d front => exact hcs front rest (List.cons.inj h).2

theorem wellEscaped_append {cs rest : List Char} (hzero : rest.head? ≠ some '0')
    (hone : rest.head? ≠ some '1') :
    WellEscaped (cs ++ rest) ↔ WellEscaped cs ∧ WellEscaped rest := by
  induction cs with
  | nil => simp [wellEscaped_nil]
  | cons c cs ih =>
    have hhead : (cs ++ rest).head? = some '0' ∨ (cs ++ rest).head? = some '1' ↔
        cs.head? = some '0' ∨ cs.head? = some '1' := by
      cases cs with
      | nil => simp [hzero, hone]
      | cons d cs => rfl
    rw [List.cons_append, wellEscaped_cons, wellEscaped_cons, ih, hhead, and_assoc]

/-- A slash keeps the parts of a pointer apart: an escape does not reach from one into the next. -/
theorem wellEscaped_join {parts : List (List Char)} :
    WellEscaped (parts.flatMap ('/' :: ·)) ↔ ∀ part ∈ parts, WellEscaped part := by
  induction parts with
  | nil => simp [wellEscaped_nil]
  | cons part parts ih =>
    have hrest (c : Char) (hc : c ≠ '/') : (parts.flatMap ('/' :: ·)).head? ≠ some c := by
      cases parts with
      | nil => simp
      | cons next parts => simpa using hc.symm
    rw [List.flatMap_cons, wellEscaped_append (hrest '0' (by decide)) (hrest '1' (by decide)),
      wellEscaped_cons, ih, List.forall_mem_cons]
    simp

theorem isSome_unescape_iff {cs : List Char} : (unescape cs).isSome ↔ WellEscaped cs := by
  fun_induction unescape cs with
  | case1 => simp [wellEscaped_nil]
  | case2 cs ih => simp [wellEscaped_cons, ← ih]
  | case3 cs ih => simp [wellEscaped_cons, ← ih]
  | case4 cs hzero hone =>
    refine iff_of_false (by simp) (fun h => ?_)
    rcases (wellEscaped_cons.mp h).1 rfl with h0 | h1
    · obtain ⟨ds, rfl⟩ := List.head?_eq_some_iff.mp h0
      exact hzero ds rfl rfl
    · obtain ⟨ds, rfl⟩ := List.head?_eq_some_iff.mp h1
      exact hone ds rfl rfl
  | case5 c cs _ _ hc ih => simp [wellEscaped_cons, ← ih, hc]

/-- What is unescaped is escaped again as it was: slashes and tildes have one escape each. -/
theorem escape_unescape {cs xs : List Char} (hs : '/' ∉ cs) (h : unescape cs = some xs) :
    xs.flatMap escapeChar = cs := by
  fun_induction unescape cs generalizing xs with
  | case1 =>
    cases h
    rfl
  | case2 cs ih | case3 cs ih =>
    obtain ⟨ys, hys, rfl⟩ := Option.map_eq_some_iff.mp h
    rw [List.flatMap_cons, ih (by simp_all) hys]
    rfl
  | case4 cs => cases h
  | case5 c cs _ _ hc ih =>
    obtain ⟨ys, hys, rfl⟩ := Option.map_eq_some_iff.mp h
    rw [List.mem_cons, not_or] at hs
    rw [List.flatMap_cons, ih hs.2 hys, escapeChar, if_neg hc, if_neg (Ne.symm hs.1)]
    rfl

/-- Parts that are read are written as they were. -/
theorem flatMap_unescapeParts {parts : List (List Char)} {ps : List String}
    (hs : ∀ part ∈ parts, '/' ∉ part) (h : unescapeParts parts = .ok ps) :
    ps.flatMap partChars = parts.flatMap ('/' :: ·) := by
  induction parts generalizing ps with
  | nil =>
    cases h
    rfl
  | cons part parts ih =>
    rw [List.forall_mem_cons] at hs
    rw [unescapeParts] at h
    cases hpart : unescape part with
    | none => simp [hpart] at h
    | some cs =>
      simp only [hpart, map_eq_ok] at h
      obtain ⟨qs, hqs, rfl⟩ := h
      rw [List.flatMap_cons, List.flatMap_cons, ih hs.2 hqs, partChars, String.toList_ofList,
        escape_unescape hs.1 hpart]

theorem exists_map_eq_ok {ε α β : Type} {x : Except ε α} {f : α → β} :
    (∃ b, x.map f = .ok b) ↔ ∃ a, x = .ok a := by
  cases x <;> simp [Except.map]

theorem exists_unescapeParts_iff {parts : List (List Char)} :
    (∃ ps, unescapeParts parts = .ok ps) ↔ ∀ part ∈ parts, WellEscaped part := by
  induction parts with
  | nil => simp [unescapeParts]
  | cons part parts ih =>
    rw [unescapeParts, List.forall_mem_cons, ← isSome_unescape_iff, ← ih]
    cases unescape part with
    | none => simp
    | some cs => simp [exists_map_eq_ok]

/-- Reading parts fails at the first of them that is not well escaped. -/
theorem unescapeParts_eq_error {parts : List (List Char)} {e : PointerError} :
    unescapeParts parts = .error e ↔ ∃ before part after, parts = before ++ part :: after ∧
      (∀ p ∈ before, WellEscaped p) ∧ ¬WellEscaped part ∧
        e = .badEscape (String.ofList part) := by
  induction parts with
  | nil => simp [unescapeParts]
  | cons part parts ih =>
    rw [unescapeParts]
    cases hpart : unescape part with
    | none =>
      have hbad : ¬WellEscaped part := by simp [← isSome_unescape_iff, hpart]
      constructor
      · intro h
        cases h
        exact ⟨[], part, parts, rfl, by simp, hbad, rfl⟩
      · rintro ⟨before, bad, after, heq, hbefore, -, rfl⟩
        cases before with
        | nil =>
          obtain ⟨rfl, rfl⟩ := List.cons.inj heq
          rfl
        | cons first before =>
          obtain ⟨rfl, -⟩ := List.cons.inj heq
          exact absurd (hbefore part (by simp)) hbad
    | some cs =>
      have hgood : WellEscaped part := by simp [← isSome_unescape_iff, hpart]
      simp only [map_eq_error, ih]
      constructor
      · rintro ⟨before, bad, after, rfl, hbefore, hbad⟩
        exact ⟨part :: before, bad, after, rfl, by simpa [hgood] using hbefore, hbad⟩
      · rintro ⟨before, bad, after, heq, hbefore, hbad⟩
        cases before with
        | nil =>
          obtain ⟨rfl, rfl⟩ := List.cons.inj heq
          exact absurd hgood hbad.1
        | cons first before =>
          obtain ⟨rfl, rfl⟩ := List.cons.inj heq
          exact ⟨before, bad, after, rfl, (List.forall_mem_cons.mp hbefore).2, hbad⟩

/-- A text is read as a pointer only if it is its text. -/
theorem ofChars_eq_ok {cs : List Char} {p : Pointer} : ofChars cs = .ok p ↔ p.chars = cs := by
  constructor
  · intro h
    cases cs with
    | nil =>
      cases h
      rfl
    | cons c cs =>
      rw [ofChars] at h
      split at h
      · rename_i hc
        obtain ⟨ps, hps, rfl⟩ := map_eq_ok.mp h
        rw [chars, flatMap_unescapeParts (slash_notMem_splitSlashes cs) hps, join_splitSlashes, hc]
      · cases h
  · rintro rfl
    exact ofChars_chars p

theorem ofChars_eq_error {cs : List Char} {e : PointerError} : ofChars cs = .error e ↔
    (cs ≠ [] ∧ cs.head? ≠ some '/' ∧ e = .missingSlash) ∨
      ∃ before part after, cs = (before ++ part :: after).flatMap ('/' :: ·) ∧
        (∀ p ∈ before ++ part :: after, '/' ∉ p) ∧ (∀ p ∈ before, WellEscaped p) ∧
          ¬WellEscaped part ∧ e = .badEscape (String.ofList part) := by
  cases cs with
  | nil => simp [ofChars]
  | cons c cs =>
    rw [ofChars]
    split
    · rename_i hc
      subst hc
      simp [map_eq_error, unescapeParts_eq_error, splitSlashes_eq_iff, and_assoc]
    · rename_i hc
      constructor
      · intro h
        cases h
        exact .inl ⟨by simp, by simpa using hc, rfl⟩
      · rintro (⟨-, -, rfl⟩ | ⟨before, part, after, hjoin, -⟩)
        · rfl
        · cases before with
          | nil => exact absurd (List.cons.inj hjoin).1 hc
          | cons first before => exact absurd (List.cons.inj hjoin).1 hc

/-- A text is a pointer if it is empty or starts with a slash, and its tildes are escapes. -/
theorem exists_ofChars_iff {cs : List Char} : (∃ p, ofChars cs = .ok p) ↔
    (cs = [] ∨ cs.head? = some '/') ∧ WellEscaped cs := by
  cases cs with
  | nil => simp [ofChars, wellEscaped_nil]
  | cons c cs =>
    rw [ofChars]
    split
    · rename_i hc
      have hparts : WellEscaped ('/' :: cs) ↔ ∀ part ∈ splitSlashes cs, WellEscaped part := by
        rw [← join_splitSlashes, wellEscaped_join]
      simp [hc, hparts, exists_map_eq_ok, exists_unescapeParts_iff]
    · rename_i hc
      simp [hc]

theorem text_injective : text.Injective := by
  intro p q h
  have hread := ofText_text p
  rw [h, ofText_text q] at hread
  exact (Except.ok.inj hread).symm

/-- Pointers and their texts stand for each other, and what is the text of no pointer is refused:
for its start, or else for its first part with a tilde that is no escape. -/
theorem ofText_eq_iff :
    (∀ t p, ofText t = .ok p ↔ p.text = t) ∧
    (∀ t, (∃ p, ofText t = .ok p) ↔
      (t = "" ∨ t.toList.head? = some '/') ∧ WellEscaped t.toList) ∧
    ∀ t e, ofText t = .error e ↔
      (t ≠ "" ∧ t.toList.head? ≠ some '/' ∧ e = .missingSlash) ∨
        ∃ before part after, t.toList = (before ++ part :: after).flatMap ('/' :: ·) ∧
          (∀ p ∈ before ++ part :: after, '/' ∉ p) ∧ (∀ p ∈ before, WellEscaped p) ∧
            ¬WellEscaped part ∧ e = .badEscape (String.ofList part) := by
  refine ⟨fun t p => ?_, fun t => ?_, fun t e => ?_⟩
  · rw [ofText, ofChars_eq_ok, text, ← String.toList_inj, String.toList_ofList]
  · rw [← String.toList_eq_nil_iff]
    exact exists_ofChars_iff
  · rw [Ne, ← String.toList_eq_nil_iff]
    exact ofChars_eq_error

end Pointer
end JsonQuery
