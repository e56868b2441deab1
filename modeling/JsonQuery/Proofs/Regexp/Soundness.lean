import Mathlib.Data.List.TakeWhile
import JsonQuery.Proofs.Regexp.Grammar
import JsonQuery.Proofs.Text.Read

namespace JsonQuery
namespace Regexp

/-- What can be said of everything that a reader takes: `holds` of the part and its text. -/
def Yields {α : Type} {bound : Nat} (x : Except Fault (Read α Char bound)) (cs : List Char)
    (holds : α → List Char → Prop) : Prop :=
  ∀ r, x = .ok r → ∃ text, cs = text ++ r.rest ∧ holds r.value text

theorem fail_ne_ok {α : Type} {cause : Cause} {rest : List Char} {a : α} :
    fail cause rest ≠ .ok a := by simp [fail]

theorem Property.ofName?_eq_some {name : List Char} {p : Property} (h : ofName? name = some p) :
    p ∈ all ∧ p.name = name :=
  ⟨List.mem_of_find?_eq_some h, by simpa using List.find?_some h⟩

theorem readProperty_sound (cs : List Char) : Yields (readProperty cs) cs (fun p text =>
    p.Spells false ('\\' :: 'p' :: text) ∧ p.Spells true ('\\' :: 'P' :: text)) := by
  intro r h
  unfold readProperty at h
  split at h
  · rename_i rest
    simp only at h
    split at h
    · exact absurd h fail_ne_ok
    · rename_i c rest' hrest
      split at h
      · rename_i p hp
        cases h
        obtain ⟨hmem, hname⟩ := Property.ofName?_eq_some hp
        refine ⟨'\x7b' :: p.name ++ ['\x7d'], ?_, ⟨hmem, rfl⟩, ⟨hmem, rfl⟩⟩
        rw [hname]
        simpa using (eq_of_dropWhile_ne hrest).2
      · exact absurd h fail_ne_ok
  · exact absurd h fail_ne_ok

theorem readEscape_sound (inClass : Bool) (cs : List Char) :
    Yields (readEscape inClass cs) cs (fun s text => s.SpellsEscaped ('\\' :: text)) := by
  intro r h
  unfold readEscape at h
  split at h
  · exact absurd h fail_ne_ok
  · cases h
    exact ⟨['n'], rfl, rfl⟩
  · cases h
    exact ⟨['r'], rfl, rfl⟩
  · cases h
    exact ⟨['t'], rfl, rfl⟩
  · rename_i c rest _ _ _
    split at h
    · rename_i hc
      cases h
      exact ⟨[c], rfl, hc, rfl⟩
    · exact absurd h fail_ne_ok

theorem readClassSymbol_sound (cs : List Char) :
    Yields (readClassSymbol cs) cs (fun s text => s.Spells IsClassNormal text) := by
  intro r h
  unfold readClassSymbol at h
  split at h
  · exact absurd h fail_ne_ok
  · rename_i rest
    split at h
    · exact absurd h fail_ne_ok
    · simp only [bind_ok, pure_ok] at h
      obtain ⟨s, hs, rfl⟩ := h
      obtain ⟨text, htext, hspells⟩ := readEscape_sound true rest s hs
      exact ⟨'\\' :: text, by simp [htext], .inr hspells⟩
  · rename_i c rest hbackslash
    split at h
    · exact absurd h fail_ne_ok
    · rename_i hc
      cases h
      refine ⟨[c], rfl, .inl ⟨c, rfl, ?_, rfl⟩⟩
      simp only [IsClassNormal, List.mem_cons, List.not_mem_nil, or_false, not_or]
      simp only [not_or] at hc
      exact ⟨hc.2.2, hc.1, hbackslash, hc.2.1⟩

theorem readClassRange_sound (cs : List Char) :
    Yields (readClassRange cs) cs ClassItem.Spells := by
  intro r h
  unfold readClassRange at h
  simp only [bind_ok] at h
  obtain ⟨low, hlow, h⟩ := h
  obtain ⟨text, htext, hspells⟩ := readClassSymbol_sound cs low hlow
  split at h
  · rename_i rest hrest
    split at h
    · rw [pure_ok] at h
      subst h
      exact ⟨text, htext, hspells⟩
    · simp only [bind_ok, pure_ok] at h
      obtain ⟨high, hhigh, rfl⟩ := h
      obtain ⟨text', htext', hspells'⟩ := readClassSymbol_sound rest high hhigh
      exact ⟨text ++ '-' :: text', by simp [htext, hrest, htext'], text, text', rfl, hspells,
        hspells'⟩
  · rw [pure_ok] at h
    subst h
    exact ⟨text, htext, hspells⟩

namespace ClassItem

/-- The items that follow some others: any number of them, a hyphen as the last one, and the closing
bracket. If there were none before, there is one now. -/
def Follow (done items : List ClassItem) (cs : List Char) : Prop :=
  ∃ middle last inner right, items = done ++ middle ++ last ∧ cs = inner ++ right ++ [']'] ∧
    SpellsAll middle inner ∧ SpellsLast last right ∧ (done = [] → middle ≠ [])

/-- One item, and what follows it. -/
theorem Follow.cons {done items : List ClassItem} {item : ClassItem} {text cs : List Char}
    (hitem : item.Spells text) (h : Follow (done ++ [item]) items cs) :
    Follow done items (text ++ cs) := by
  obtain ⟨middle, last, inner, right, rfl, rfl, hmiddle, hlast, -⟩ := h
  exact ⟨item :: middle, last, text ++ inner, right, by simp, by simp,
    ⟨text, inner, rfl, hitem, hmiddle⟩, hlast, by simp⟩

end ClassItem

theorem readItems_sound (done : List ClassItem) (cs : List Char) :
    Yields (readItems done cs) cs (ClassItem.Follow done) := by
  have hitem {item : ClassItem} {text : List Char} {rest : List Char} {bound : Nat}
      {r : Read (List ClassItem) Char bound} (hspells : item.Spells text)
      (hcs : cs = text ++ rest)
      (h : ∃ text, rest = text ++ r.rest ∧ ClassItem.Follow (done ++ [item]) r.value text) :
      ∃ text, cs = text ++ r.rest ∧ ClassItem.Follow done r.value text := by
    obtain ⟨text', rfl, hfollow⟩ := h
    exact ⟨text ++ text', by simp [hcs], hfollow.cons hspells⟩
  intro r h
  unfold readItems at h
  split at h
  · exact absurd h fail_ne_ok
  · split at h
    · exact absurd h fail_ne_ok
    · rename_i hdone
      cases h
      exact ⟨[']'], rfl, [], [], [], [], by simp, rfl, rfl, .inl ⟨rfl, rfl⟩, by
        simpa using hdone⟩
  · split at h
    · exact absurd h fail_ne_ok
    · rename_i hdone
      cases h
      exact ⟨['-', ']'], rfl, [], [ClassItem.hyphen], [], ['-'], by simp [ClassItem.hyphen], rfl,
        rfl, .inr ⟨rfl, rfl⟩, by simpa using hdone⟩
  · exact absurd h fail_ne_ok
  · rename_i rest
    simp only [bind_ok, pure_ok] at h
    obtain ⟨p, hp, items, hitems, rfl⟩ := h
    obtain ⟨text, htext, hspells, -⟩ := readProperty_sound rest p hp
    have hproperty : ClassItem.Spells (.property false p.value) ('\\' :: 'p' :: text) := hspells
    have := p.below
    exact hitem hproperty (congrArg (_ :: _ :: ·) htext) (readItems_sound _ p.rest items hitems)
  · rename_i rest
    simp only [bind_ok, pure_ok] at h
    obtain ⟨p, hp, items, hitems, rfl⟩ := h
    obtain ⟨text, htext, -, hspells⟩ := readProperty_sound rest p hp
    have hproperty : ClassItem.Spells (.property true p.value) ('\\' :: 'P' :: text) := hspells
    have := p.below
    exact hitem hproperty (congrArg (_ :: _ :: ·) htext) (readItems_sound _ p.rest items hitems)
  · rename_i c rest _ _ _ _ _
    simp only [bind_ok, pure_ok] at h
    obtain ⟨item, hread, items, hitems, rfl⟩ := h
    obtain ⟨text, htext, hspells⟩ := readClassRange_sound (c :: rest) item hread
    have := item.below
    exact hitem hspells htext (readItems_sound _ item.rest items hitems)
  termination_by cs.length
  decreasing_by all_goals simp_all <;> omega

theorem readClassBody_sound (negated : Bool) (cs : List Char) :
    Yields (readClassBody negated cs) cs (fun a text => ∃ items body, a = .bracket negated items ∧
      text = body ++ [']'] ∧ ClassItem.SpellsBody items body) := by
  intro r h
  unfold readClassBody at h
  split at h
  · rename_i rest
    simp only [bind_ok, pure_ok] at h
    obtain ⟨items, hitems, rfl⟩ := h
    obtain ⟨_, htext, middle, last, inner, right, hvalue, rfl, hmiddle, hlast, -⟩ :=
      readItems_sound _ rest items hitems
    exact ⟨'-' :: (inner ++ right ++ [']']), congrArg ('-' :: ·) htext, items.value,
      ['-'] ++ inner ++ right, rfl, rfl, ClassItem.hyphen, middle, last, ['-'], inner, right,
      hvalue, rfl, .inl ⟨rfl, rfl⟩, hmiddle, hlast⟩
  · simp only [bind_ok, pure_ok] at h
    obtain ⟨items, hitems, rfl⟩ := h
    obtain ⟨_, htext, middle, last, inner, right, hvalue, rfl, hmiddle, hlast, hne⟩ :=
      readItems_sound [] cs items hitems
    cases middle with
    | nil => exact absurd rfl (hne rfl)
    | cons first middle =>
      obtain ⟨left, inner, rfl, hfirst, hmiddle⟩ := hmiddle
      exact ⟨_, htext, items.value, left ++ inner ++ right, rfl, rfl, first, middle, last, left,
        inner, right, hvalue, rfl, .inr hfirst, hmiddle, hlast⟩

theorem readClass_sound (cs : List Char) :
    Yields (readClass cs) cs (fun a text => a.Spells ('[' :: text)) := by
  intro r h
  unfold readClass at h
  split at h
  · rename_i rest
    simp only [bind_ok, pure_ok] at h
    obtain ⟨a, ha, rfl⟩ := h
    obtain ⟨_, htext, items, body, hvalue, rfl, hbody⟩ := readClassBody_sound true rest a ha
    refine ⟨'^' :: (body ++ [']']), congrArg ('^' :: ·) htext, ?_⟩
    rw [hvalue]
    exact ⟨body, hbody, rfl⟩
  · rename_i hmark
    obtain ⟨_, htext, items, body, hvalue, rfl, hbody⟩ := readClassBody_sound false cs r h
    refine ⟨body ++ [']'], htext, ?_⟩
    rw [hvalue]
    refine ⟨body, hbody, rfl, ?_⟩
    intro hhead
    cases body with
    | nil => cases hhead
    | cons c body =>
      cases hhead
      exact hmark _ htext

theorem areDigits_takeWhile {cs : List Char} (h : (cs.takeWhile Char.isDigit).isEmpty = false) :
    Numeral.AreDigits (cs.takeWhile Char.isDigit) :=
  ⟨by simpa using h, fun _ hc => List.mem_takeWhile_imp hc⟩

theorem readBounds_sound (cs : List Char) :
    Yields (readBounds cs) cs (fun q text => q.Spells ('\x7b' :: text)) := by
  intro r h
  have hsplit := List.takeWhile_append_dropWhile (p := Char.isDigit) (l := cs)
  simp only [readBounds] at h
  split at h
  · exact absurd h fail_ne_ok
  · rename_i hlow
    have hlow := areDigits_takeWhile (by simpa using hlow)
    split at h
    · rename_i rest hrest
      cases h
      rw [hrest] at hsplit
      exact ⟨cs.takeWhile Char.isDigit ++ ['\x7d'], by simpa using hsplit.symm, hlow, rfl⟩
    · rename_i rest hrest
      rw [hrest] at hsplit
      have hsplit' := List.takeWhile_append_dropWhile (p := Char.isDigit) (l := rest)
      split at h
      · rename_i rest' hrest'
        cases h
        rw [hrest'] at hsplit'
        refine ⟨cs.takeWhile Char.isDigit ++ ',' :: rest.takeWhile Char.isDigit ++ ['\x7d'], ?_, ?_⟩
        · rw [← hsplit'] at hsplit
          simpa using hsplit.symm
        · dsimp only
          split
          · rename_i hhigh
            rw [List.isEmpty_iff] at hhigh
            exact ⟨hlow, by simp [hhigh]⟩
          · rename_i hhigh
            exact ⟨hlow, areDigits_takeWhile (by simpa using hhigh), by simp⟩
      · exact absurd h fail_ne_ok
    · exact absurd h fail_ne_ok

theorem readQuantifier_sound (cs : List Char) :
    Yields (readQuantifier cs) cs Quantifier.Spells := by
  intro r h
  unfold readQuantifier at h
  split at h
  · cases h
    exact ⟨['*'], rfl, rfl⟩
  · cases h
    exact ⟨['+'], rfl, rfl⟩
  · cases h
    exact ⟨['?'], rfl, rfl⟩
  · rename_i rest
    simp only [bind_ok, pure_ok] at h
    obtain ⟨q, hq, rfl⟩ := h
    obtain ⟨text, htext, hspells⟩ := readBounds_sound rest q hq
    exact ⟨'\x7b' :: text, congrArg ('\x7b' :: ·) htext, hspells⟩
  · cases h
    exact ⟨[], rfl, rfl⟩

-- What is read is spelled by the text that is taken. The induction is on the text, along the
-- recursion of the readers.
mutual

theorem readChoice_sound (cs : List Char) : Yields (readChoice cs) cs Regexp.Spells := by
  intro r h
  rw [readChoice] at h
  simp only [bind_ok] at h
  obtain ⟨branch, hbranch, h⟩ := h
  obtain ⟨left, hleft, hspells⟩ := readBranch_sound cs branch hbranch
  split at h
  · rename_i rest hrest
    simp only [bind_ok, pure_ok] at h
    obtain ⟨others, hothers, rfl⟩ := h
    have hshorter : rest.length < cs.length := by
      have hbelow := branch.below
      rw [hrest, List.length_cons] at hbelow
      exact Nat.lt_of_succ_lt_succ hbelow
    obtain ⟨right, hright, hspells'⟩ := readChoice_sound rest others hothers
    exact ⟨left ++ '|' :: right, by simp [hleft, hrest, hright], left, right, rfl, hspells,
      hspells'⟩
  · rw [pure_ok] at h
    subst h
    exact ⟨left, hleft, hspells⟩
  termination_by (cs.length, 2)

theorem readBranch_sound (cs : List Char) : Yields (readBranch cs) cs Branch.Spells := by
  intro r h
  rw [readBranch.eq_def] at h
  split at h
  · cases h
    exact ⟨[], rfl, rfl⟩
  · rename_i c rest
    split at h
    · cases h
      exact ⟨[], rfl, rfl⟩
    · simp only [bind_ok, pure_ok] at h
      obtain ⟨atom, hatom, quantifier, hquantifier, others, hothers, rfl⟩ := h
      obtain ⟨text, htext, hspells⟩ := readAtom_sound c rest atom hatom
      obtain ⟨text', htext', hspells'⟩ := readQuantifier_sound atom.rest quantifier hquantifier
      have := atom.below
      have := quantifier.below
      obtain ⟨text'', htext'', hspells''⟩ := readBranch_sound quantifier.rest others hothers
      exact ⟨c :: text ++ text' ++ text'', by simp [htext, htext', htext''], c :: text, text',
        text'', rfl, hspells, hspells', hspells''⟩
  termination_by (cs.length, 1)
  decreasing_by all_goals grind

theorem readAtom_sound (c : Char) (cs : List Char) :
    Yields (readAtom c cs) cs (fun a text => a.Spells (c :: text)) := by
  intro r h
  rw [readAtom.eq_def] at h
  split at h
  · rename_i hc
    simp only [bind_ok] at h
    obtain ⟨inner, hinner, h⟩ := h
    obtain ⟨text, htext, hspells⟩ := readChoice_sound cs inner hinner
    split at h
    · rename_i rest hrest
      rw [pure_ok] at h
      subst h
      exact ⟨text ++ [')'], by simp [htext, hrest], text, by rw [hc]; rfl, hspells⟩
    · exact absurd h fail_ne_ok
  · split at h
    · rename_i hc
      cases h
      exact ⟨[], rfl, by rw [hc]; rfl⟩
    · split at h
      · rename_i hc
        rw [hc]
        exact readClass_sound cs r h
      · split at h
        · rename_i hc
          split at h
          · rename_i rest
            simp only [bind_ok, pure_ok] at h
            obtain ⟨p, hp, rfl⟩ := h
            obtain ⟨text, htext, hspells, -⟩ := readProperty_sound rest p hp
            exact ⟨'p' :: text, congrArg ('p' :: ·) htext, by rw [hc]; exact hspells⟩
          · rename_i rest
            simp only [bind_ok, pure_ok] at h
            obtain ⟨p, hp, rfl⟩ := h
            obtain ⟨text, htext, -, hspells⟩ := readProperty_sound rest p hp
            exact ⟨'P' :: text, congrArg ('P' :: ·) htext, by rw [hc]; exact hspells⟩
          · simp only [bind_ok, pure_ok] at h
            obtain ⟨s, hs, rfl⟩ := h
            obtain ⟨text, htext, hspells⟩ := readEscape_sound false cs s hs
            exact ⟨text, htext, by rw [hc]; exact .inr hspells⟩
        · split at h
          · exact absurd h fail_ne_ok
          · rename_i hgroup hdot hclass hescape hother
            cases h
            refine ⟨[], rfl, .inl ⟨c, rfl, ?_, rfl⟩⟩
            simp only [List.mem_cons, List.not_mem_nil, or_false, not_or] at hother
            simp [IsNormal, *]
  termination_by (cs.length + 1, 0)

end

theorem readAll_sound {cs : List Char} {r : Regexp} (h : readAll cs = .ok r) : r.Spells cs := by
  unfold readAll at h
  simp only [bind_ok] at h
  obtain ⟨read, hread, h⟩ := h
  obtain ⟨text, htext, hspells⟩ := readChoice_sound cs read hread
  split at h
  · rename_i hrest
    rw [pure_ok] at h
    subst h
    obtain rfl : text = cs := by simpa [hrest] using htext.symm
    exact hspells
  · exact absurd h fail_ne_ok

/-- An expression that is read from a pattern is spelled by it. -/
theorem ofPattern_spells {pattern : String} {r : Regexp} (h : ofPattern pattern = .ok r) :
    r.Spells pattern.toList := by
  cases hread : readAll pattern.toList with
  | error f => simp [ofPattern, hread, Except.mapError] at h
  | ok r' =>
    have heq : r' = r := by simpa [ofPattern, hread, Except.mapError] using h
    exact heq ▸ readAll_sound hread

end Regexp
end JsonQuery
