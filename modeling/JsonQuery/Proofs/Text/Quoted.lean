import JsonQuery.Text.Quoted
import JsonQuery.Text.StringLiteral

namespace JsonQuery
namespace Hex

theorem value?_digitChar {n : Nat} (h : n < 16) : value? (Nat.digitChar n) = some n := by
  decide +revert

/-- Four digits hold every number below `16 ^ 4`. -/
theorem four?_four {n : Nat} (h : n < 65536) (rest : List Char) :
    four? (four n ++ rest) = some n := by
  have hvalue (m : Nat) : value? (Nat.digitChar (m % 16)) = some (m % 16) :=
    value?_digitChar (Nat.mod_lt m (by decide))
  simp only [four, List.map_cons, List.map_nil, List.cons_append, List.nil_append, four?, hvalue,
    bind, Option.bind, pure, Option.some.injEq]
  omega

end Hex

namespace Quoted
open StringLiteral

theorem scanUnicode_four {c : Char} (h : c < ' ') (rest : List Char) :
    scanUnicode (Hex.four c.toNat ++ rest) = .ok (c, 4) := by
  have hc : c.toNat < 32 := h
  have hhigh : isHighSurrogate c.toNat = false := by
    simp only [isHighSurrogate, Bool.and_eq_false_imp, decide_eq_true_eq]
    omega
  have hlow : isLowSurrogate c.toNat = false := by
    simp only [isLowSurrogate, Bool.and_eq_false_imp, decide_eq_true_eq]
    omega
  simp only [scanUnicode, Hex.four?_four (show c.toNat < 65536 by omega), hhigh, hlow,
    Bool.false_eq_true, if_false, Char.ofNat_toNat]

/-- A character is written by itself, or as an escape that is read back as it. -/
theorem escape_cases (c : Char) :
    (escape c = [c] ∧ c ≠ '\'' ∧ c ≠ '\\' ∧ ¬ c < ' ') ∨
    ∃ tail, escape c = '\\' :: tail ∧
      ∀ rest, scanEscape '\'' (tail ++ rest) = .ok (c, tail.length) := by
  by_cases hcontrol : c < ' ' ∧ c ≠ '\x08' ∧ c ≠ '\x0c' ∧ c ≠ '\n' ∧ c ≠ '\r' ∧ c ≠ '\t'
  · obtain ⟨hlt, hb, hf, hn, hr, ht⟩ := hcontrol
    have hquote : c ≠ '\'' := by rintro rfl; exact absurd hlt (by decide)
    have hslash : c ≠ '\\' := by rintro rfl; exact absurd hlt (by decide)
    refine .inr ⟨'u' :: Hex.four c.toNat, ?_, fun rest => ?_⟩
    · simp [escape, hb, hf, hn, hr, ht, hquote, hslash, hlt]
    · simp only [List.cons_append, scanEscape, scanUnicode_four hlt]
      rfl
  · unfold escape
    repeat' split
    all_goals subst_vars
    all_goals first
      | exact .inr ⟨_, rfl, fun _ => rfl⟩
      | simp_all

theorem scanTail_escape (c : Char) (i : Nat) (rest : List Char) :
    scanTail '\'' i (escape c ++ rest) =
      (scanTail '\'' (i + (escape c).length) rest).map (fun (xs, stop) => (c :: xs, stop)) := by
  rcases escape_cases c with ⟨hc, hquote, hslash, hcontrol⟩ | ⟨tail, hc, hread⟩
  · rw [hc, List.singleton_append, scanTail]
    simp only [if_neg hquote, if_neg hslash, if_neg hcontrol, List.length_singleton]
  · have hslash : ('\\' : Char) ≠ '\'' := by decide
    rw [hc, List.cons_append, scanTail]
    simp only [if_neg hslash, if_true, hread rest, List.drop_left, List.length_cons]
    rw [Nat.add_assoc, Nat.add_comm 1]

/-- A string between single quotes is read back as written, whatever stands behind it. -/
theorem scanTail_chars (cs rest : List Char) (i : Nat) :
    scanTail '\'' i (cs.flatMap escape ++ '\'' :: rest) =
      .ok (cs, i + (cs.flatMap escape).length + 1) := by
  induction cs generalizing i with
  | nil =>
    rw [List.flatMap_nil, List.nil_append, scanTail, if_pos rfl]
    rfl
  | cons c cs ih =>
    rw [List.flatMap_cons, List.append_assoc, scanTail_escape, ih, List.length_append]
    simp only [Except.map, Nat.add_assoc]

end Quoted
end JsonQuery
