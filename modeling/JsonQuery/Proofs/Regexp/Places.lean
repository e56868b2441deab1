import Mathlib.Data.Nat.Bitwise
import Mathlib.Data.Set.Basic
import JsonQuery.Regexp.Matching

namespace JsonQuery
namespace Regexp
namespace Places

/-- The places that a number stands for. -/
def members (s : Places) : Set Nat := {i | s.testBit i = true}

theorem mem_members {s : Places} {i : Nat} : i ∈ s.members ↔ s.testBit i = true := Iff.rfl

variable (s t : Places)

@[simp] theorem members_union : (s.union t).members = s.members ∪ t.members := by
  ext i
  simp [members, union, Nat.testBit_or]

@[simp] theorem members_diff : (s.diff t).members = s.members \ t.members := by
  ext i
  simp only [Set.mem_sdiff, mem_members, diff, Nat.testBit_xor, Nat.testBit_and]
  cases s.testBit i <;> cases t.testBit i <;> decide

@[simp] theorem members_start : start.members = {0} := by
  ext i
  exact Nat.testBit_one_eq_true_iff_self_eq_zero

@[simp] theorem members_all (cs : List Char) : (all cs).members = {i | i ≤ cs.length} := by
  ext i
  rw [mem_members, all, Nat.testBit_two_pow_sub_one, decide_eq_true_iff, Nat.lt_succ_iff]
  rfl

theorem ne_zero_iff {s : Places} : s ≠ 0 ↔ ∃ i, i ∈ s.members := by
  constructor
  · exact Nat.exists_testBit_of_ne_zero
  · rintro ⟨i, hi⟩ rfl
    simp [members] at hi

/-- One bit for each character, the first lowest. -/
def bits (p : Char → Bool) : List Char → Nat
  | [] => 0
  | c :: cs => Nat.bit (p c) (bits p cs)

/-- The words hold the bits of a text, above what is in the first word already. -/
theorem foldr_words (p : Char → Bool) (bit word : Nat) (cs : List Char) :
    (words p bit word cs).foldr (fun word places => word + 0x100000000 * places) 0 =
      word + bit * bits p cs := by
  induction cs generalizing bit word with
  | nil => simp [words, bits]
  | cons c cs ih =>
    have hfirst : (if p c then word + bit else word) = word + bit * (p c).toNat := by
      cases p c <;> simp
    simp only [words, bits, Nat.bit_val, hfirst]
    split
    · rename_i hlast
      rw [List.foldr_cons, ih, hlast]
      omega
    · rw [ih, Nat.mul_add, Nat.mul_left_comm, Nat.mul_assoc, Nat.add_assoc, Nat.add_comm (2 * _)]

theorem before_eq (p : Char → Bool) (cs : List Char) : before p cs = bits p cs := by
  rw [before, foldr_words, Nat.zero_add, Nat.one_mul]

theorem members_before (p : Char → Bool) (cs : List Char) :
    (before p cs).members = {i | ∃ c, cs[i]? = some c ∧ p c = true} := by
  ext i
  rw [mem_members, before_eq]
  change _ ↔ ∃ c, cs[i]? = some c ∧ p c = true
  induction cs generalizing i with
  | nil => simp [bits]
  | cons c cs ih =>
    cases i with
    | zero => simp [bits]
    | succ i => simpa [bits, Nat.testBit_bit_succ] using ih i

/-- A step leads one place on. -/
theorem members_step :
    members (2 * (s &&& t)) = {j | ∃ i ∈ s.members, i ∈ t.members ∧ j = i + 1} := by
  ext j
  cases j with
  | zero => simp [mem_members]
  | succ j =>
    rw [mem_members, Nat.testBit_add_one, Nat.mul_div_cancel_left _ (by decide), Nat.testBit_and]
    simp [mem_members, and_comm]

end Places

namespace Subject

/-- What is known of the places of a character is where it stands. -/
def Sound (t : Subject) : Prop := ∀ c, t.beforeSymbol c = .before (· == c) t.chars

theorem sound_ofChars (symbols cs : List Char) : (ofChars symbols cs).Sound := by
  intro c
  unfold beforeSymbol
  split
  · rename_i places h
    obtain ⟨front, back, heq, -⟩ := List.lookup_eq_some_iff.mp h
    have hmem : (c, places) ∈ (ofChars symbols cs).known := by simp [heq]
    obtain ⟨d, -, hd⟩ := List.mem_map.mp hmem
    cases hd
    rfl
  · rfl

end Subject
end Regexp
end JsonQuery
