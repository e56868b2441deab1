import Mathlib.Computability.Language
import JsonQuery.Json.Numeral
import JsonQuery.Regexp.Basic

namespace JsonQuery
namespace Regexp
open Computability

/-- The texts that are one character of a set. -/
def oneOf (s : Set Char) : Language Char := {w | ∃ c ∈ s, w = [c]}

/-- The texts that consist of at least `low` texts of a language, and of at most `high` if there is
an upper bound. -/
def repeated (low : Nat) (high : Option Nat) (l : Language Char) : Language Char :=
  {w | ∃ k, low ≤ k ∧ (∀ m ∈ high, k ≤ m) ∧ w ∈ l ^ k}

namespace Property

/-- The characters of a category, or of the categories of a group. -/
def members (p : Property) : Set Char := {c | p.holds c = true}

end Property

namespace ClassItem

def members : ClassItem → Set Char
  | .single s => {s.char}
  | .range low high => {c | low.char ≤ c ∧ c ≤ high.char}
  | .property complement p => if complement then p.membersᶜ else p.members

end ClassItem

namespace Quantifier

/-- The texts that a quantifier makes of those of its atom. -/
def apply (l : Language Char) : Quantifier → Language Char
  | .once => l
  | .star => l∗
  | .plus => l * l∗
  | .optional => 1 + l
  | .exactly n => l ^ Numeral.natOfDigits n
  | .atLeast n => l ^ Numeral.natOfDigits n * l∗
  | .between n m => repeated (Numeral.natOfDigits n) (some (Numeral.natOfDigits m)) l

end Quantifier
end Regexp

mutual

/-- The texts that an expression matches as a whole, by RFC 9485. -/
def Regexp.language : Regexp → Language Char
  | .last b => b.language
  | .alt b r => b.language + r.language

def Branch.language : Branch → Language Char
  | .done => 1
  | .piece a q b => q.apply a.language * b.language

def Atom.language : Atom → Language Char
  | .symbol s => {[s.char]}
  | .dot => Regexp.oneOf {'\n', '\r'}ᶜ
  | .property complement p => Regexp.oneOf (if complement then p.membersᶜ else p.members)
  | .bracket negated items =>
    let members := {c | ∃ item ∈ items, c ∈ item.members}
    Regexp.oneOf (if negated then membersᶜ else members)
  | .group r => r.language

end

namespace Regexp
open Computability

section Repetition

variable (l : Language Char)

theorem repeated_exactly (n : Nat) : repeated n (some n) l = l ^ n := by
  ext w
  constructor
  · rintro ⟨k, hlow, hhigh, hw⟩
    obtain rfl := Nat.le_antisymm (hhigh n rfl) hlow
    exact hw
  · intro hw
    exact ⟨n, Nat.le_refl n, by simp, hw⟩

/-- Without an upper bound, what goes beyond the lower one is any number of texts. -/
theorem repeated_none (n : Nat) : repeated n none l = l ^ n * l∗ := by
  rw [Language.kstar_eq_iSup_pow, Language.mul_iSup]
  ext w
  rw [Language.mem_iSup]
  constructor
  · rintro ⟨k, hlow, -, hw⟩
    obtain ⟨j, rfl⟩ := Nat.exists_eq_add_of_le hlow
    exact ⟨j, pow_add l n j ▸ hw⟩
  · rintro ⟨j, hw⟩
    exact ⟨n + j, Nat.le_add_right n j, by simp, (pow_add l n j).symm ▸ hw⟩

theorem repeated_zero_none : repeated 0 none l = l∗ := by
  rw [repeated_none, pow_zero, one_mul]

/-- At most so many texts are so many of which each may be left out. -/
theorem repeated_zero_some (n : Nat) : repeated 0 (some n) l = (1 + l) ^ n := by
  induction n with
  | zero =>
    rw [repeated_exactly, pow_zero, pow_zero]
  | succ n ih =>
    rw [pow_succ, ← ih, mul_add, mul_one]
    ext w
    rw [Language.mem_add]
    constructor
    · rintro ⟨k, hlow, hhigh, hw⟩
      rcases Nat.lt_or_eq_of_le (hhigh (n + 1) rfl) with hk | rfl
      · refine .inl ⟨k, hlow, ?_, hw⟩
        rintro _ ⟨⟩
        exact Nat.le_of_lt_succ hk
      · rw [pow_succ] at hw
        obtain ⟨left, hleft, right, hright, rfl⟩ := Language.mem_mul.mp hw
        exact .inr (Language.append_mem_mul ⟨n, Nat.zero_le n, by simp, hleft⟩ hright)
    · rintro (⟨k, hlow, hhigh, hw⟩ | hw)
      · refine ⟨k, hlow, ?_, hw⟩
        rintro _ ⟨⟩
        exact Nat.le_succ_of_le (hhigh n rfl)
      · obtain ⟨left, ⟨k, hlow, hhigh, hleft⟩, right, hright, rfl⟩ := Language.mem_mul.mp hw
        refine ⟨k + 1, Nat.zero_le _, ?_, ?_⟩
        · rintro _ ⟨⟩
          exact Nat.succ_le_succ (hhigh n rfl)
        · rw [pow_succ]
          exact Language.append_mem_mul hleft hright

theorem repeated_some {n m : Nat} (h : n ≤ m) :
    repeated n (some m) l = l ^ n * (1 + l) ^ (m - n) := by
  rw [← repeated_zero_some]
  ext w
  constructor
  · rintro ⟨k, hlow, hhigh, hw⟩
    obtain ⟨j, rfl⟩ := Nat.exists_eq_add_of_le hlow
    have hj : j ≤ m - n := by
      have := hhigh m rfl
      omega
    rw [pow_add] at hw
    obtain ⟨left, hleft, right, hright, rfl⟩ := Language.mem_mul.mp hw
    exact Language.append_mem_mul hleft ⟨j, Nat.zero_le j, by simpa using hj, hright⟩
  · intro hw
    obtain ⟨left, hleft, right, ⟨j, -, hhigh, hright⟩, rfl⟩ := Language.mem_mul.mp hw
    have hj := hhigh (m - n) rfl
    refine ⟨n + j, Nat.le_add_right n j, ?_, ?_⟩
    · rintro _ ⟨⟩
      omega
    · rw [pow_add]
      exact Language.append_mem_mul hleft hright

theorem repeated_zero_one : repeated 0 (some 1) l = 1 + l := by
  rw [repeated_zero_some, pow_one]

end Repetition
end Regexp
end JsonQuery
