import Mathlib
import JsonQuery.Json.Comparison
import JsonQuery.Text.Utf8

namespace JsonQuery
namespace Utf8

/-- The bytes of a text, as numbers. -/
def encoding (s : String) : List Nat := s.toByteArray.data.toList.map UInt8.toNat

theorem encoding_eq (s : String) : encoding s = s.toList.flatMap bytes := by
  rw [encoding, ← String.utf8Encode_toList, List.utf8Encode, List.data_toByteArray,
    List.map_flatMap]
  rfl

/-- How many bytes follow the first byte of a code point. -/
def following (n : Nat) : Nat :=
  if n ≤ 0x7F then 0 else if n ≤ 0x7FF then 1 else if n ≤ 0xFFFF then 2 else 3

/-- What the first byte has above its bits of the code point, to tell how many bytes follow. -/
def mark : Nat → Nat
  | 0 => 0
  | 1 => 0xC0
  | 2 => 0xE0
  | _ => 0xF0

def first (n : Nat) : Nat := n / 64 ^ following n + mark (following n)

/-- The last bytes of an encoding, each of which carries six bits of the code point. -/
def continuation (n : Nat) : Nat → List Nat
  | 0 => []
  | count + 1 => (n / 64 ^ count % 64 + 0x80) :: continuation n count

theorem bytes_eq (c : Char) : bytes c =
    first c.toNat :: continuation c.toNat (following c.toNat) := by
  have hc : c.toNat < 0x110000 := by
    rcases c.valid with h | h <;> (change c.val.toNat < _; omega)
  have hval : c.val.toNat = c.toNat := rfl
  unfold bytes String.utf8EncodeChar first following
  rw [hval]
  generalize c.toNat = n at *
  dsimp only
  -- One case for each length. The remainders by which the first byte is cut do not matter.
  split_ifs
  all_goals
    simp [mark, continuation]
    omega

/-- The first of two sequences has the smaller number where they differ. What stands behind that
place does not matter, so that neither is the front of the other. -/
inductive Below : List Nat → List Nat → Prop where
  | here {x y : Nat} (xs ys : List Nat) : x < y → Below (x :: xs) (y :: ys)
  | behind (x : Nat) {xs ys : List Nat} : Below xs ys → Below (x :: xs) (x :: ys)

theorem Below.append_lt {xs ys : List Nat} (h : Below xs ys) (as bs : List Nat) :
    xs ++ as < ys ++ bs := by
  induction h with
  | here xs ys hlt => exact List.cons_lt_cons_iff.mpr (.inl hlt)
  | behind x _ ih => exact List.cons_lt_cons_iff.mpr (.inr ⟨rfl, ih⟩)

/-- The bytes behind the first are the digits of a number, the largest place in front. -/
theorem below_continuation {n m count : Nat} (h : n % 64 ^ count < m % 64 ^ count) :
    Below (continuation n count) (continuation m count) := by
  induction count with
  | zero =>
    rw [pow_zero, Nat.mod_one, Nat.mod_one] at h
    exact absurd h (Nat.lt_irrefl 0)
  | succ count ih =>
    rw [Nat.mod_pow_succ, Nat.mod_pow_succ] at h
    rw [continuation, continuation]
    rcases lt_trichotomy (n / 64 ^ count % 64) (m / 64 ^ count % 64) with hlt | heq | hgt
    · exact .here _ _ (Nat.add_lt_add_right hlt 0x80)
    · rw [heq] at h ⊢
      exact .behind _ (ih (by omega))
    -- A larger digit would make up for all that stand behind it.
    · have hdigits := Nat.mul_le_mul_left (64 ^ count) (Nat.succ_le_of_lt hgt)
      have hrest : m % 64 ^ count < 64 ^ count := Nat.mod_lt _ (by positivity)
      rw [Nat.mul_succ] at hdigits
      omega

theorem following_le {n m : Nat} (h : n ≤ m) : following n ≤ following m := by
  unfold following
  split_ifs <;> omega

/-- Encodings of different lengths differ in their first bytes. -/
theorem first_lt {n m : Nat} (h : following n < following m) : first n < first m := by
  unfold first
  unfold following at *
  split_ifs at * <;> simp only [mark] <;> omega

theorem below_bytes {c d : Char} (h : c < d) : Below (bytes c) (bytes d) := by
  have hlt : c.toNat < d.toNat := h
  rw [bytes_eq, bytes_eq]
  rcases (following_le hlt.le).lt_or_eq with hless | hsame
  · exact .here _ _ (first_lt hless)
  · rw [first, first, hsame]
    have hdiv : c.toNat / 64 ^ following d.toNat ≤ d.toNat / 64 ^ following d.toNat :=
      Nat.div_le_div_right hlt.le
    rcases hdiv.lt_or_eq with hless | hhead
    · exact .here _ _ (Nat.add_lt_add_right hless _)
    · rw [hhead]
      have hc := Nat.div_add_mod c.toNat (64 ^ following d.toNat)
      have hd := Nat.div_add_mod d.toNat (64 ^ following d.toNat)
      rw [hhead] at hc
      exact .behind _ (below_continuation (by omega))

theorem strictMono_flatMap_bytes : StrictMono (fun cs : List Char => cs.flatMap bytes) := by
  intro cs ds h
  induction h with
  | nil => simp [bytes_eq]
  | cons _ ih => exact List.append_left_lt ih
  | rel hlt => exact (below_bytes hlt).append_lt _ _

theorem encoding_lt_iff {s t : String} : encoding s < encoding t ↔ s < t := by
  rw [encoding_eq, encoding_eq, String.lt_iff_toList_lt]
  exact strictMono_flatMap_bytes.lt_iff_lt

end Utf8

namespace Comparison

/-- Two texts have the order of their bytes, and of their code points: of two different characters
the larger one has the larger byte where their encodings first differ. -/
theorem less_string_iff (s t : String) :
    (Utf8.encoding s < Utf8.encoding t ↔ s.toList.map Char.toNat < t.toList.map Char.toNat) ∧
    (less (some (.string s)) (some (.string t)) = true ↔ Utf8.encoding s < Utf8.encoding t) := by
  have hcodes : StrictMono (List.map Char.toNat) :=
    fun _ _ h => List.map_lt (fun _ _ hlt => hlt) h
  rw [Utf8.encoding_lt_iff, hcodes.lt_iff_lt, ← String.lt_iff_toList_lt]
  exact ⟨Iff.rfl, decide_eq_true_iff⟩

/-- Above the surrogates the order is not that of units of 16 bits. -/
example : less (some (.string "\uffff")) (some (.string "😀")) = true := by decide

end Comparison
end JsonQuery
