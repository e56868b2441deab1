import Mathlib
import JsonQuery.Proofs.Regexp.Completeness

namespace JsonQuery
namespace Regexp

/-- A reader that gives up with at most `n` characters still to be read. -/
def GivesUpWithin {α : Type} (x : Except Fault α) (n : Nat) : Prop :=
  ∀ f, x = .error f → f.left ≤ n

namespace GivesUpWithin

variable {α β : Type} {x : Except Fault α} {m n : Nat}

theorem ok (a : α) : GivesUpWithin (.ok a) n := by
  rintro _ ⟨⟩

theorem fail {cause : Cause} {rest : List Char} (h : rest.length ≤ n) :
    GivesUpWithin (fail cause rest : Except Fault α) n := by
  rintro _ ⟨⟩
  exact h

theorem bind {f : α → Except Fault β} (hx : GivesUpWithin x n)
    (hf : ∀ a, GivesUpWithin (f a) n) : GivesUpWithin (x >>= f) n := by
  cases x with
  | error fault =>
    rintro _ ⟨⟩
    exact hx fault rfl
  | ok a => exact hf a

theorem mono (hx : GivesUpWithin x m) (h : m ≤ n) : GivesUpWithin x n :=
  fun f hf => Nat.le_trans (hx f hf) h

theorem ite {p : Prop} [Decidable p] {y : Except Fault α} (hx : p → GivesUpWithin x n)
    (hy : ¬ p → GivesUpWithin y n) : GivesUpWithin (if p then x else y) n := by
  split
  · exact hx ‹_›
  · exact hy ‹_›

end GivesUpWithin

theorem readProperty_givesUp (cs : List Char) : GivesUpWithin (readProperty cs) cs.length := by
  unfold readProperty
  split
  · rename_i rest
    dsimp only
    split
    · exact .fail (Nat.zero_le _)
    · rename_i c rest' hrest
      have hshorter := length_dropWhile_le (· != '\x7d') rest
      rw [hrest, List.length_cons] at hshorter
      split
      · exact .ok _
      · exact .fail (by rw [List.length_cons]; omega)
  · exact .fail (Nat.le_refl _)

theorem readEscape_givesUp (inClass : Bool) (cs : List Char) :
    GivesUpWithin (readEscape inClass cs) cs.length := by
  unfold readEscape
  split
  · exact .fail (Nat.zero_le _)
  · exact .ok _
  · exact .ok _
  · exact .ok _
  · exact .ite (fun _ => .ok _) (fun _ => .fail (by simp))

theorem readClassSymbol_givesUp (cs : List Char) :
    GivesUpWithin (readClassSymbol cs) cs.length := by
  unfold readClassSymbol
  split
  · exact .fail (Nat.zero_le _)
  · rename_i rest
    refine .ite (fun _ => .fail (by simp)) (fun _ => ?_)
    exact ((readEscape_givesUp true rest).mono (by simp)).bind (fun _ => .ok _)
  · exact .ite (fun _ => .fail (Nat.le_refl _)) (fun _ => .ok _)

theorem readClassRange_givesUp (cs : List Char) : GivesUpWithin (readClassRange cs) cs.length := by
  refine (readClassSymbol_givesUp cs).bind (fun low => ?_)
  have hlow := low.below
  split
  · rename_i rest hrest
    rw [hrest, List.length_cons] at hlow
    refine .ite (fun _ => .ok _) (fun _ => ?_)
    exact ((readClassSymbol_givesUp rest).mono (by omega)).bind (fun _ => .ok _)
  · exact .ok _

theorem readItems_givesUp (done : List ClassItem) (cs : List Char) :
    GivesUpWithin (readItems done cs) cs.length := by
  unfold readItems
  split
  · exact .fail (Nat.zero_le _)
  · exact .ite (fun _ => .fail (Nat.le_refl _)) (fun _ => .ok _)
  · exact .ite (fun _ => .fail (Nat.le_refl _)) (fun _ => .ok _)
  · exact .fail (Nat.le_refl _)
  · rename_i rest
    refine ((readProperty_givesUp rest).mono (by simp; omega)).bind (fun p => ?_)
    have hp := p.below
    exact ((readItems_givesUp _ p.rest).mono (by simp; omega)).bind (fun _ => .ok _)
  · rename_i rest
    refine ((readProperty_givesUp rest).mono (by simp; omega)).bind (fun p => ?_)
    have hp := p.below
    exact ((readItems_givesUp _ p.rest).mono (by simp; omega)).bind (fun _ => .ok _)
  · rename_i c rest _ _ _ _ _
    refine (readClassRange_givesUp (c :: rest)).bind (fun item => ?_)
    have hitem := item.below
    exact ((readItems_givesUp _ item.rest).mono (by omega)).bind (fun _ => .ok _)
  termination_by cs.length
  decreasing_by all_goals simp_all <;> omega

theorem readClassBody_givesUp (negated : Bool) (cs : List Char) :
    GivesUpWithin (readClassBody negated cs) cs.length := by
  unfold readClassBody
  split
  · exact ((readItems_givesUp _ _).mono (by simp)).bind (fun _ => .ok _)
  · exact (readItems_givesUp _ _).bind (fun _ => .ok _)

theorem readClass_givesUp (cs : List Char) : GivesUpWithin (readClass cs) cs.length := by
  unfold readClass
  split
  · exact ((readClassBody_givesUp _ _).mono (by simp)).bind (fun _ => .ok _)
  · exact readClassBody_givesUp _ _

theorem readBounds_givesUp (cs : List Char) : GivesUpWithin (readBounds cs) cs.length := by
  have hlow := length_dropWhile_le Char.isDigit cs
  unfold readBounds
  refine .ite (fun _ => .fail (Nat.le_refl _)) (fun _ => ?_)
  split
  · exact .ok _
  · rename_i rest hrest
    rw [hrest, List.length_cons] at hlow
    have hhigh := length_dropWhile_le Char.isDigit rest
    dsimp only
    split
    · exact .ok _
    · exact .fail (by omega)
  · exact .fail hlow

theorem readQuantifier_givesUp (cs : List Char) : GivesUpWithin (readQuantifier cs) cs.length := by
  unfold readQuantifier
  split
  · exact .ok _
  · exact .ok _
  · exact .ok _
  · rename_i rest
    exact ((readBounds_givesUp rest).mono (by simp)).bind (fun _ => .ok _)
  · exact .ok _

-- No reader goes back, so that one gives up with no more than its own text before it. The induction
-- is on the text, along the recursion of the readers.
mutual

theorem readChoice_givesUp (cs : List Char) : GivesUpWithin (readChoice cs) cs.length := by
  rw [readChoice]
  refine (readBranch_givesUp cs).bind (fun branch => ?_)
  have hbranch := branch.below
  split
  · rename_i rest hrest
    rw [hrest, List.length_cons] at hbranch
    have hshorter : rest.length < cs.length := Nat.lt_of_succ_lt_succ hbranch
    exact ((readChoice_givesUp rest).mono hshorter.le).bind (fun _ => .ok _)
  · exact .ok _
  termination_by (cs.length, 2)

theorem readBranch_givesUp (cs : List Char) : GivesUpWithin (readBranch cs) cs.length := by
  rw [readBranch.eq_def]
  split
  · exact .ok _
  · rename_i c rest
    refine .ite (fun _ => .ok _) (fun _ => ?_)
    refine (readAtom_givesUp c rest).bind (fun atom => ?_)
    have hatom := atom.below
    refine ((readQuantifier_givesUp atom.rest).mono (by simp; omega)).bind (fun quantifier => ?_)
    have hquantifier := quantifier.below
    exact ((readBranch_givesUp quantifier.rest).mono (by simp; omega)).bind (fun _ => .ok _)
  termination_by (cs.length, 1)
  decreasing_by all_goals grind

theorem readAtom_givesUp (c : Char) (cs : List Char) :
    GivesUpWithin (readAtom c cs) (c :: cs).length := by
  have hcs : cs.length ≤ (c :: cs).length := by simp
  rw [readAtom.eq_def]
  refine .ite (fun _ => ?_) (fun _ => .ite (fun _ => .ok _) (fun _ => .ite (fun _ => ?_)
    (fun _ => .ite (fun _ => ?_) (fun _ => .ite (fun _ => .fail (Nat.le_refl _))
      (fun _ => .ok _)))))
  · refine ((readChoice_givesUp cs).mono hcs).bind (fun inner => ?_)
    have hinner := inner.below
    split
    · exact .ok _
    · exact .fail (by simp; omega)
  · exact (readClass_givesUp cs).mono hcs
  · split
    · exact ((readProperty_givesUp _).mono (by simp; omega)).bind (fun _ => .ok _)
    · exact ((readProperty_givesUp _).mono (by simp; omega)).bind (fun _ => .ok _)
    · exact ((readEscape_givesUp false _).mono hcs).bind (fun _ => .ok _)
  termination_by (cs.length + 1, 0)

end

theorem readAll_givesUp (cs : List Char) : GivesUpWithin (readAll cs) cs.length := by
  refine (readChoice_givesUp cs).bind (fun r => ?_)
  have hr := r.below
  split
  · exact .ok _
  · exact .fail (by omega)

/-- A pattern is accepted if and only if RFC 9485 derives it. If not, as many characters of it are in
front of the position of the error as its reader took, and not more than there are. -/
theorem ofPattern_accepts (pattern : String) :
    ((∃ r, ofPattern pattern = .ok r) ↔ ∃ r : Regexp, r.Spells pattern.toList) ∧
    ∀ e, ofPattern pattern = .error e → e.position ≤ pattern.toList.length ∧
      ∃ f, readAll pattern.toList = .error f ∧ e.cause = f.cause ∧
        e.position + f.left = pattern.toList.length := by
  refine ⟨exists_congr (fun r => ofPattern_eq_ok_iff), fun e he => ?_⟩
  cases hread : readAll pattern.toList with
  | ok r =>
    simp only [ofPattern, hread] at he
    cases he
  | error f =>
    have hleft := readAll_givesUp _ f hread
    simp only [ofPattern, hread] at he
    cases he
    exact ⟨Nat.sub_le _ _, f, rfl, rfl, Nat.sub_add_cancel hleft⟩

/-- Two hyphens are a class, each at one of its ends. Behind another character they are no range. -/
theorem ofPattern_accepts_hyphens :
    (∃ r : Regexp, r.Spells "[--]".toList) ∧ (¬ ∃ r : Regexp, r.Spells "[a--]".toList) ∧
      ∃ e, ofPattern "[a--]" = .error e ∧ e.position ≤ 5 ∧ e.position + 2 = 5 := by
  have hyphens : ∃ r, ofPattern "[--]" = .ok r := ⟨_, by cbv⟩
  obtain ⟨e, he, hposition⟩ : ∃ e, ofPattern "[a--]" = .error e ∧ e.position + 2 = 5 :=
    ⟨_, by cbv, rfl⟩
  obtain ⟨hiff, hbound⟩ := ofPattern_accepts "[a--]"
  refine ⟨(ofPattern_accepts "[--]").1.mp hyphens, fun hspells => ?_, e, he, (hbound e he).1,
    hposition⟩
  obtain ⟨r, hr⟩ := hiff.mpr hspells
  rw [he] at hr
  cases hr

end Regexp
end JsonQuery
