import Mathlib
import JsonQuery.Proofs.Regexp.Language
import JsonQuery.Proofs.Regexp.Places
import JsonQuery.Regexp.Limits

namespace JsonQuery
namespace Regexp
open Computability

/-- A text of a language that stands in another text, between two of its places. -/
def Between (cs : List Char) (l : Language Char) (i j : Nat) : Prop :=
  ∃ front word back, cs = front ++ word ++ back ∧ front.length = i ∧
    (front ++ word).length = j ∧ word ∈ l

section Between

variable {cs : List Char} {l m : Language Char} {i j k : Nat}

theorem Between.le (h : Between cs l i j) : i ≤ j ∧ j ≤ cs.length := by
  obtain ⟨front, word, back, rfl, rfl, rfl, -⟩ := h
  simp only [List.length_append]
  omega

theorem Between.mono (h : Between cs l i j) (hl : l ≤ m) : Between cs m i j := by
  obtain ⟨front, word, back, hsplit, hi, hj, hword⟩ := h
  exact ⟨front, word, back, hsplit, hi, hj, hl hword⟩

theorem between_one : Between cs 1 i j ↔ i = j ∧ i ≤ cs.length := by
  constructor
  · rintro ⟨front, word, back, rfl, rfl, rfl, rfl⟩
    simp
  · rintro ⟨rfl, hi⟩
    exact ⟨cs.take i, [], cs.drop i, by simp, by simp [hi], by simp [hi], Language.nil_mem_one⟩

theorem between_add : Between cs (l + m) i j ↔ Between cs l i j ∨ Between cs m i j := by
  constructor
  · rintro ⟨front, word, back, hsplit, hi, hj, hword | hword⟩
    · exact .inl ⟨front, word, back, hsplit, hi, hj, hword⟩
    · exact .inr ⟨front, word, back, hsplit, hi, hj, hword⟩
  · rintro (h | h)
    · exact h.mono le_self_add
    · exact h.mono le_add_self

theorem between_mul : Between cs (l * m) i k ↔ ∃ j, Between cs l i j ∧ Between cs m j k := by
  constructor
  · rintro ⟨front, word, back, rfl, hi, hk, hword⟩
    obtain ⟨left, hleft, right, hright, rfl⟩ := Language.mem_mul.mp hword
    exact ⟨(front ++ left).length, ⟨front, left, right ++ back, by simp, hi, rfl, hleft⟩,
      front ++ left, right, back, by simp, rfl, by simpa using hk, hright⟩
  · rintro ⟨j, ⟨front, left, back, hsplit, hi, hj, hleft⟩,
      front', right, back', hsplit', hj', hk, hright⟩
    have hsame : front ++ left ++ back = front' ++ (right ++ back') := by
      rw [← hsplit, hsplit', List.append_assoc]
    obtain ⟨rfl, rfl⟩ := List.append_inj hsame (hj.trans hj'.symm)
    exact ⟨front, left ++ right, back', by rw [hsplit]; simp, hi, by simpa using hk,
      Language.append_mem_mul hleft hright⟩

theorem between_oneOf {s : Set Char} :
    Between cs (oneOf s) i j ↔ (∃ c, cs[i]? = some c ∧ c ∈ s) ∧ j = i + 1 := by
  constructor
  · rintro ⟨front, word, back, rfl, rfl, rfl, c, hc, rfl⟩
    exact ⟨⟨c, by simp, hc⟩, by simp⟩
  · rintro ⟨⟨c, hc, hs⟩, rfl⟩
    obtain ⟨hi, rfl⟩ := List.getElem?_eq_some_iff.mp hc
    refine ⟨cs.take i, [cs[i]], cs.drop (i + 1), by simp, by simp; omega, by simp; omega,
      _, hs, rfl⟩

/-- The whole text. -/
theorem between_whole : Between cs l 0 cs.length ↔ cs ∈ l := by
  constructor
  · rintro ⟨front, word, back, hsplit, hi, hj, hword⟩
    obtain rfl := List.length_eq_zero_iff.mp hi
    have hback : back = [] := by
      have hlength := congrArg List.length hsplit
      simp only [List.length_append, List.length_nil] at hlength hj
      exact List.length_eq_zero_iff.mp (by omega)
    rw [hback, List.nil_append, List.append_nil] at hsplit
    exact hsplit ▸ hword
  · exact fun h => ⟨[], cs, [], by simp, rfl, by simp, h⟩

theorem exists_between : (∃ i j, Between cs l i j) ↔ ∃ t, t <:+: cs ∧ t ∈ l := by
  constructor
  · rintro ⟨_, _, front, word, back, hsplit, -, -, hword⟩
    exact ⟨word, ⟨front, back, hsplit.symm⟩, hword⟩
  · rintro ⟨word, ⟨front, back, hsplit⟩, hword⟩
    exact ⟨_, _, front, word, back, hsplit.symm, rfl, rfl, hword⟩

end Between

/-- The places to which texts of a language lead from those of a set. -/
def after (cs : List Char) (l : Language Char) (s : Set Nat) : Set Nat :=
  {j | ∃ i ∈ s, Between cs l i j}

/-- The places of a text. -/
def inside (cs : List Char) : Set Nat := {i | i ≤ cs.length}

section After

variable {cs : List Char} (l m : Language Char) (s t : Set Nat)

theorem after_subset : after cs l s ⊆ inside cs := by
  rintro j ⟨i, -, h⟩
  exact h.le.2

theorem after_subset_after {s t : Set Nat} (h : s ⊆ t) : after cs l s ⊆ after cs l t := by
  rintro j ⟨i, hi, hbetween⟩
  exact ⟨i, h hi, hbetween⟩

theorem after_one {s : Set Nat} (hs : s ⊆ inside cs) : after cs 1 s = s := by
  ext j
  constructor
  · rintro ⟨i, hi, h⟩
    obtain ⟨rfl, -⟩ := between_one.mp h
    exact hi
  · exact fun hj => ⟨j, hj, between_one.mpr ⟨rfl, hs hj⟩⟩

theorem after_mul : after cs (l * m) s = after cs m (after cs l s) := by
  ext k
  constructor
  · rintro ⟨i, hi, h⟩
    obtain ⟨j, hij, hjk⟩ := between_mul.mp h
    exact ⟨j, ⟨i, hi, hij⟩, hjk⟩
  · rintro ⟨j, ⟨i, hi, hij⟩, hjk⟩
    exact ⟨i, hi, between_mul.mpr ⟨j, hij, hjk⟩⟩

theorem after_add : after cs (l + m) s = after cs l s ∪ after cs m s := by
  ext j
  simp only [after, between_add, Set.mem_union]
  constructor
  · rintro ⟨i, hi, h | h⟩
    · exact .inl ⟨i, hi, h⟩
    · exact .inr ⟨i, hi, h⟩
  · rintro (⟨i, hi, h⟩ | ⟨i, hi, h⟩)
    · exact ⟨i, hi, .inl h⟩
    · exact ⟨i, hi, .inr h⟩

theorem after_union : after cs l (s ∪ t) = after cs l s ∪ after cs l t := by
  ext j
  constructor
  · rintro ⟨i, hi | hi, h⟩
    · exact .inl ⟨i, hi, h⟩
    · exact .inr ⟨i, hi, h⟩
  · rintro (⟨i, hi, h⟩ | ⟨i, hi, h⟩)
    · exact ⟨i, .inl hi, h⟩
    · exact ⟨i, .inr hi, h⟩

/-- A set of places that leads to itself is left by no number of steps. -/
theorem after_pow_of_closed {s : Set Nat} (hs : s ⊆ inside cs) (h : after cs l s ⊆ s) (n : Nat) :
    after cs ((1 + l) ^ n) s = s := by
  have hstep : after cs (1 + l) s = s := by
    rw [after_add, after_one hs, Set.union_eq_left.mpr h]
  induction n with
  | zero => rw [pow_zero, after_one hs]
  | succ n ih => rw [pow_succ, after_mul, ih, hstep]

end After

section Repetition

variable (l : Language Char)

/-- In a text, there is no use for more repetitions than it has characters. -/
theorem between_kstar {cs : List Char} {i j : Nat} :
    Between cs l∗ i j ↔ Between cs ((1 + l) ^ cs.length) i j := by
  constructor
  · rintro ⟨front, word, back, hsplit, hi, hj, hword⟩
    refine ⟨front, word, back, hsplit, hi, hj, ?_⟩
    obtain ⟨parts, rfl, hparts⟩ := Language.mem_kstar_iff_exists_nonempty.mp hword
    have hcount : parts.length ≤ parts.flatten.length := by
      rw [List.length_flatten, ← List.length_map (f := List.length)]
      refine List.length_le_sum_of_one_le _ (fun n hn => ?_)
      obtain ⟨part, hpart, rfl⟩ := List.mem_map.mp hn
      exact List.length_pos_of_ne_nil (hparts part hpart).2
    have hfits : parts.length ≤ cs.length := by
      rw [hsplit]
      simp only [List.length_append]
      omega
    rw [← repeated_zero_some]
    exact ⟨parts.length, Nat.zero_le _, by simpa using hfits,
      Language.mem_pow.mpr ⟨parts, rfl, rfl, fun part hpart => (hparts part hpart).1⟩⟩
  · rintro ⟨front, word, back, hsplit, hi, hj, hword⟩
    refine ⟨front, word, back, hsplit, hi, hj, ?_⟩
    rw [← repeated_zero_some] at hword
    obtain ⟨k, -, -, hword⟩ := hword
    have hle : l ^ k ≤ l∗ := pow_le_kstar
    exact hle hword

end Repetition

/-- A walk that leads, in a text, from places to those behind the texts of a language. -/
def Follows (cs : List Char) (w : Walk) (l : Language Char) : Prop :=
  ∀ s : Places, s.members ⊆ inside cs → (w.ends s).members = after cs l s.members

namespace Follows

variable {cs : List Char} {v w : Walk} {l m : Language Char}

theorem stay : Follows cs .stay 1 := by
  intro s hs
  rw [Walk.ends, after_one hs]

theorem step {p : Char → Bool} {members : Set Char} (h : ∀ c, p c = true ↔ c ∈ members) :
    Follows cs (.step (.before p cs)) (oneOf members) := by
  intro s _
  ext j
  rw [Walk.ends, Places.members_step, Places.members_before]
  constructor
  · rintro ⟨i, hi, ⟨c, hc, hp⟩, rfl⟩
    exact ⟨i, hi, between_oneOf.mpr ⟨⟨c, hc, (h c).mp hp⟩, rfl⟩⟩
  · rintro ⟨i, hi, hbetween⟩
    obtain ⟨⟨c, hc, hmem⟩, rfl⟩ := between_oneOf.mp hbetween
    exact ⟨i, hi, ⟨c, hc, (h c).mpr hmem⟩, rfl⟩

theorem either (hv : Follows cs v l) (hw : Follows cs w m) : Follows cs (.either v w) (l + m) := by
  intro s hs
  rw [Walk.ends, Places.members_union, hv s hs, hw s hs, after_add]

theorem seq (hv : Follows cs v l) (hw : Follows cs w m) : Follows cs (.seq v w) (l * m) := by
  intro s hs
  have hinside : (v.ends s).members ⊆ inside cs := by
    rw [hv s hs]
    exact after_subset l _
  rw [Walk.ends, hw _ hinside, hv s hs, after_mul]

/-- Whoever leaves early would go on in a circle. -/
theorem iterate_eq (f : Places → Places) (n : Nat) (s : Places) : Walk.iterate f n s = f^[n] s := by
  induction n generalizing s with
  | zero => rfl
  | succ n ih =>
    rw [Walk.iterate, Function.iterate_succ_apply]
    split
    · rename_i hfixed
      rw [hfixed, Function.iterate_fixed hfixed]
    · exact ih (f s)

theorem times (h : Follows cs w l) (n : Nat) : Follows cs (.times n w) (l ^ n) := by
  intro s hs
  rw [Walk.ends, iterate_eq]
  induction n generalizing s with
  | zero => rw [pow_zero, after_one hs, Function.iterate_zero, id]
  | succ n ih =>
    have hinside : (w.ends s).members ⊆ inside cs := by
      rw [h s hs]
      exact after_subset l _
    rw [Function.iterate_succ_apply, ih _ hinside, h s hs, pow_succ', after_mul]

/-- What is reached, if all but the fresh places lead only to reached ones. -/
theorem reach_eq (h : Follows cs w l) (n : Nat) {reached fresh : Places}
    (hr : reached.members ⊆ inside cs) (hf : fresh.members ⊆ reached.members)
    (hold : after cs l (reached.members \ fresh.members) ⊆ reached.members) :
    (Walk.reach w.ends n reached fresh).members = after cs ((1 + l) ^ n) reached.members := by
  induction n generalizing reached fresh with
  | zero => rw [Walk.reach, pow_zero, after_one hr]
  | succ n ih =>
    have hends : (w.ends fresh).members = after cs l fresh.members := h fresh (hf.trans hr)
    have hsplit : after cs l reached.members =
        after cs l (reached.members \ fresh.members) ∪ after cs l fresh.members := by
      rw [← after_union, Set.sdiff_union_of_subset hf]
    have hnew : reached.members ∪ ((w.ends fresh).diff reached).members =
        after cs (1 + l) reached.members := by
      rw [Places.members_diff, hends, Set.union_sdiff_self, after_add, after_one hr, hsplit]
      rw [← Set.union_assoc, Set.union_eq_left.mpr hold]
    rw [Walk.reach, pow_succ', after_mul]
    generalize (w.ends fresh).diff reached = next at hnew
    split
    · rename_i hnone
      have hempty : next.members = ∅ :=
        Set.eq_empty_iff_forall_notMem.mpr (fun i hi => Places.ne_zero_iff.mpr ⟨i, hi⟩ hnone)
      rw [hempty, Set.union_empty] at hnew
      have hclosed : after cs l reached.members ⊆ reached.members := by
        rw [after_add, after_one hr] at hnew
        exact Set.union_eq_left.mp hnew.symm
      rw [← hnew, after_pow_of_closed l hr hclosed]
    · rw [← hnew, ← Places.members_union]
      refine ih ?_ ?_ ?_
      · rw [Places.members_union, hnew]
        exact after_subset _ _
      · rw [Places.members_union]
        exact Set.subset_union_right
      · have hall : after cs l reached.members ⊆ (reached.union next).members := by
          rw [Places.members_union, hnew, after_add]
          exact Set.subset_union_right
        refine (after_subset_after l ?_).trans hall
        rw [Places.members_union, Set.sdiff_subset_iff, Set.union_comm]

theorem upTo (h : Follows cs w l) (n : Nat) : Follows cs (.upTo n w) ((1 + l) ^ n) := by
  intro s hs
  have hnothing : after cs l (s.members \ s.members) ⊆ s.members := by
    rw [Set.sdiff_self]
    rintro j ⟨i, hi, -⟩
    exact hi.elim
  exact reach_eq h n hs Set.Subset.rfl hnothing

theorem upTo_kstar (h : Follows cs w l) : Follows cs (.upTo cs.length w) l∗ := by
  intro s hs
  rw [h.upTo cs.length s hs]
  ext j
  simp only [after, between_kstar]

theorem repeated (h : Follows cs w l) {q : Quantifier} (hq : q.isSound = true) :
    Follows cs (Walk.repeated cs w q) (q.apply l) := by
  cases q with
  | once => exact h
  | star => exact h.upTo_kstar
  | plus => exact h.seq h.upTo_kstar
  | optional =>
    have hone := h.upTo 1
    rwa [pow_one] at hone
  | exactly n => exact h.times _
  | atLeast n => exact (h.times _).seq h.upTo_kstar
  | between n m =>
    have hle : Numeral.natOfDigits n ≤ Numeral.natOfDigits m := by
      simp only [Quantifier.isSound, Bool.and_eq_true, decide_eq_true_eq] at hq
      exact hq.2
    rw [Quantifier.apply, repeated_some l hle]
    exact (h.times _).seq (h.upTo _)

end Follows

theorem ClassItem.holds_iff {item : ClassItem} {c : Char} :
    item.holds c = true ↔ c ∈ item.members := by
  cases item with
  | single s => simp [holds, members]
  | range low high => simp [holds, members]
  | property complement p => cases complement <;> simp [holds, members, Property.members]

theorem classHolds_iff {negated : Bool} {items : List ClassItem} {c : Char} :
    classHolds negated items c = true ↔
      c ∈ (if negated then {c | ∃ item ∈ items, c ∈ item.members}ᶜ
        else {c | ∃ item ∈ items, c ∈ item.members}) := by
  have hany : items.any (fun item => item.holds c) = true ↔ ∃ item ∈ items, c ∈ item.members := by
    simp only [List.any_eq_true, ClassItem.holds_iff]
  cases negated <;> simp [classHolds, ← hany]

end Regexp

section Matching
open Regexp (Subject Follows)

variable {t : Subject}

-- The walk of an expression leads behind the texts of its language. The induction is on the
-- expression.
mutual

theorem Regexp.walk_follows (ht : t.Sound) : ∀ {r : Regexp}, r.isSound = true →
    Follows t.chars (r.walk t) r.language
  | .last b, h => Branch.walk_follows ht (b := b) h
  | .alt b r, h => by
    obtain ⟨hb, hr⟩ := Bool.and_eq_true_iff.mp h
    exact (Branch.walk_follows ht hb).either (Regexp.walk_follows ht hr)

theorem Branch.walk_follows (ht : t.Sound) : ∀ {b : Branch}, b.isSound = true →
    Follows t.chars (b.walk t) b.language
  | .done, _ => .stay
  | .piece a q b, h => by
    simp only [Branch.isSound, Bool.and_eq_true] at h
    obtain ⟨⟨ha, hq⟩, hb⟩ := h
    exact ((Atom.walk_follows ht ha).repeated hq).seq (Branch.walk_follows ht hb)

theorem Atom.walk_follows (ht : t.Sound) : ∀ {a : Atom}, a.isSound = true →
    Follows t.chars (a.walk t) a.language
  | .symbol s, _ => by
    have hone : ({[s.char]} : Language Char) = Regexp.oneOf {s.char} := by
      ext w
      constructor
      · rintro rfl
        exact ⟨_, rfl, rfl⟩
      · rintro ⟨_, rfl, rfl⟩
        rfl
    rw [Atom.walk, Atom.language, ht, hone]
    exact .step (by simp)
  | .dot, _ => .step (by simp)
  | .property complement p, _ => .step (by
      intro c
      cases complement <;> simp [Regexp.Property.members])
  | .bracket negated items, _ => .step (fun c => Regexp.classHolds_iff)
  | .group r, h => Regexp.walk_follows ht (r := r) h

end
end Matching

namespace Regexp

variable {r : Regexp}

theorem members_ends (h : r.isSound = true) {cs : List Char} {s : Places}
    (hs : s.members ⊆ inside cs) : (r.ends cs s).members = after cs r.language s.members :=
  walk_follows (Subject.sound_ofChars r.symbols cs) h s hs

/-- The whole text matches if it belongs to the language. -/
theorem matchesAll_iff (h : r.isSound = true) (cs : List Char) :
    r.matchesAll cs = true ↔ cs ∈ r.language := by
  have hstart : Places.start.members ⊆ inside cs := by
    rw [Places.members_start]
    rintro _ rfl
    exact Nat.zero_le _
  have hends : cs.length ∈ (r.ends cs .start).members ↔ cs ∈ r.language := by
    rw [members_ends h hstart, Places.members_start]
    simp [after, between_whole]
  exact hends

/-- Some part matches if a text of the language stands somewhere in the text. -/
theorem matchesPart_iff (h : r.isSound = true) (cs : List Char) :
    r.matchesPart cs = true ↔ ∃ part, part <:+: cs ∧ part ∈ r.language := by
  have hall : (Places.all cs).members = inside cs := Places.members_all cs
  have hends := members_ends h hall.subset
  rw [matchesPart, bne_iff_ne, Places.ne_zero_iff, hends, hall, ← exists_between]
  constructor
  · rintro ⟨j, i, -, hbetween⟩
    exact ⟨i, j, hbetween⟩
  · rintro ⟨i, j, hbetween⟩
    obtain ⟨hij, hj⟩ := hbetween.le
    exact ⟨j, i, hij.trans hj, hbetween⟩

end Regexp
end JsonQuery
