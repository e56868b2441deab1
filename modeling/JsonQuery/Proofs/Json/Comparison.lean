import Mathlib
import JsonQuery.Proofs.Binary64.Order
import JsonQuery.Proofs.Json.Equality

namespace JsonQuery
namespace Number

theorem order_swap (a b : Number) : order a b = (order b a).swap := by
  cases a with
  | int m =>
    cases b with
    | int n =>
      rw [order_int, order_int]
      exact Std.OrientedOrd.eq_swap
    | float y =>
      rw [order_float_right, order_float_left]
      exact Std.OrientedOrd.eq_swap
  | float x =>
    rw [order_float_left, order_float_right]
    exact Std.OrientedOrd.eq_swap

/-- No transitive one, since two integers that equal one float may differ. -/
instance : Std.OrientedCmp order where
  eq_swap := order_swap _ _

theorem equalValue_self (a : Number) : a.equalValue a = true :=
  beq_iff_eq.mpr Std.ReflCmp.compare_self

theorem equalValue_comm (a b : Number) : a.equalValue b = b.equalValue a := by
  rw [equalValue, equalValue, Bool.eq_iff_iff, beq_iff_eq, beq_iff_eq]
  exact Std.OrientedCmp.eq_comm

/-- Integers that differ may be read as one float, but not in the other order. -/
theorem scaled_le_of_lt {a b : Number} (h : order a b = .lt) : a.scaled ≤ b.scaled := by
  cases a with
  | int m =>
    cases b with
    | int n =>
      rw [order_int, compare_lt_iff_lt] at h
      exact Binary64.scaledOfInt_mono h.le
    | float y =>
      rw [order_float_right, compare_lt_iff_lt] at h
      exact h.le
  | float x =>
    rw [order_float_left, compare_lt_iff_lt] at h
    exact h.le

theorem order_of_scaled_lt {a b : Number} (h : a.scaled < b.scaled) : order a b = .lt := by
  cases a with
  | int m =>
    cases b with
    | int n =>
      rw [order_int, compare_lt_iff_lt]
      by_contra hge
      exact absurd (Binary64.scaledOfInt_mono (not_lt.mp hge)) (not_le.mpr h)
    | float y => rwa [order_float_right, compare_lt_iff_lt]
  | float x => rwa [order_float_left, compare_lt_iff_lt]

/-- Where an integer is compared exactly on one side and as a float on the other, it lies on the
same side of the float as any integer beyond it. -/
theorem order_lt_trans {a b c : Number} (hab : order a b = .lt) (hbc : order b c = .lt) :
    order a c = .lt := by
  have hle := scaled_le_of_lt hab
  have hle' := scaled_le_of_lt hbc
  cases b with
  | float y =>
    rw [order_float_right, compare_lt_iff_lt] at hab
    exact order_of_scaled_lt (hab.trans_le hle')
  | int n =>
    cases a with
    | float x =>
      rw [order_float_left, compare_lt_iff_lt] at hab
      exact order_of_scaled_lt (hab.trans_le hle')
    | int m =>
      cases c with
      | float z =>
        rw [order_float_right, compare_lt_iff_lt] at hbc
        exact order_of_scaled_lt (hle.trans_lt hbc)
      | int k =>
        rw [order_int, compare_lt_iff_lt] at *
        exact lt_trans hab hbc

/-- Two numbers that equal a third are equal, unless they are different integers. -/
theorem order_eq_trans_iff {a b c : Number} (hab : order a b = .eq) (hbc : order b c = .eq) :
    order a c = .eq ↔ ∀ m n, a = .int m → c = .int n → m = n := by
  cases a with
  | int m =>
    cases c with
    | int n => simp
    | float z =>
      cases b <;> simp_all [scaled]
  | float x =>
    cases b <;> cases c <;> simp_all [scaled]

/-- What stands between two different integers that equal it is the float nearest both. -/
theorem between_integers {b : Number} {m n : Int} (hm : order (.int m) b = .eq)
    (hn : order b (.int n) = .eq) (hne : m ≠ n) : ∃ x : Binary64,
      b = .float x ∧ Binary64.scaledOfInt m = x.scaled ∧ Binary64.scaledOfInt n = x.scaled := by
  cases b with
  | int k =>
    rw [order_int, compare_eq_iff_eq] at hm hn
    exact absurd (hm.trans hn) hne
  | float x =>
    rw [order_float_right, compare_eq_iff_eq] at hm
    rw [order_float_left, compare_eq_iff_eq] at hn
    exact ⟨x, rfl, hm, hn.symm⟩

end Number

namespace Json

theorem equalValue_self {v : Json} (h : v.UniqueNames) : v.equalValue v = true :=
  equalBy_self Number.equalValue_self h

theorem equalValue_comm {v w : Json} (hv : v.UniqueNames) (hw : w.UniqueNames) :
    v.equalValue w = w.equalValue v :=
  equalBy_comm Number.equalValue_comm hv hw

/-- Equal values have equal values at each place. -/
theorem equalValue_at {v w : Json} (hv : v.UniqueNames) (h : v.equalValue w = true) {l : Location}
    {a : Json} (ha : v.at? l = some a) : ∃ b, w.at? l = some b ∧ a.equalValue b = true := by
  induction l generalizing v w with
  | nil =>
    cases ha
    exact ⟨w, rfl, h⟩
  | cons step l ih =>
    obtain ⟨c, hc, ha⟩ := Option.bind_eq_some_iff.mp ha
    obtain ⟨d, hd, hcd⟩ := (equalBy_iff.mp h).2 step c ((mem_children_iff hv).mpr hc)
    obtain ⟨b, hb, hab⟩ := ih (uniqueNames_child hv hc) hcd ha
    exact ⟨b, by rw [at?, hd, Option.bind_some, hb], hab⟩

/-- Two values with different integers at one place. -/
def DifferAt (a c : Json) (l : Location) (m n : Int) : Prop :=
  a.at? l = some (.number (.int m)) ∧ c.at? l = some (.number (.int n)) ∧ m ≠ n

theorem not_differAt_of_equalValue {a c : Json} (ha : a.UniqueNames) (h : a.equalValue c = true)
    (l : Location) (m n : Int) : ¬ DifferAt a c l m n := by
  intro hdiffer
  obtain ⟨hm, hn, hne⟩ := hdiffer
  obtain ⟨b, hb, hequal⟩ := equalValue_at ha h hm
  rw [hn] at hb
  cases hb
  simp only [equalValue, equalBy, Number.equalValue, Number.order_int, beq_iff_eq,
    compare_eq_iff_eq] at hequal
  exact hne hequal

theorem equalTop_trans {a b c : Json} (hab : equalTop Number.equalValue a b = true)
    (hbc : equalTop Number.equalValue b c = true) (h : ∀ m n, ¬ DifferAt a c [] m n) :
    equalTop Number.equalValue a c = true := by
  cases a <;> cases b <;> cases c <;> simp_all [equalTop]
  rename_i x y z
  simp only [Number.equalValue, beq_iff_eq] at *
  refine (Number.order_eq_trans_iff hab hbc).mpr (fun m n hx hz => ?_)
  subst hx hz
  by_contra hne
  exact h m n ⟨rfl, rfl, hne⟩

theorem equalValue_trans {a b c : Json} (ha : a.UniqueNames) (hb : b.UniqueNames)
    (hab : a.equalValue b = true) (hbc : b.equalValue c = true)
    (h : ∀ l m n, ¬ DifferAt a c l m n) : a.equalValue c = true := by
  obtain ⟨htop, hchildren⟩ := equalBy_iff.mp hab
  obtain ⟨htop', hchildren'⟩ := equalBy_iff.mp hbc
  refine equalBy_iff.mpr ⟨equalTop_trans htop htop' (h []), fun step x hx => ?_⟩
  obtain ⟨y, hy, hxy⟩ := hchildren step x hx
  obtain ⟨z, hz, hyz⟩ := hchildren' step y ((mem_children_iff hb).mpr hy)
  have hx' := (mem_children_iff ha).mp hx
  refine ⟨z, hz, equalValue_trans (uniqueNames_child ha hx') (uniqueNames_child hb hy) hxy hyz ?_⟩
  intro l m n hdiffer
  obtain ⟨hm, hn, hne⟩ := hdiffer
  refine h (step :: l) m n ⟨?_, ?_, hne⟩
  · rw [at?, hx', Option.bind_some, hm]
  · rw [at?, hz, Option.bind_some, hn]
termination_by sizeOf a
decreasing_by exact sizeOf_children hx

/-- Values that equal a third are equal, unless they hold two different integers at one place. There
the third holds the float nearest both, since only two integers are compared exactly. -/
theorem equalValue_trans_iff {a b c : Json} (ha : a.UniqueNames) (hb : b.UniqueNames)
    (hab : a.equalValue b = true) (hbc : b.equalValue c = true) :
    (a.equalValue c = true ↔ ∀ l m n, ¬ DifferAt a c l m n) ∧
    ∀ l m n, DifferAt a c l m n → ∃ x : Binary64, b.at? l = some (.number (.float x)) ∧
      Binary64.scaledOfInt m = x.scaled ∧ Binary64.scaledOfInt n = x.scaled := by
  refine ⟨⟨not_differAt_of_equalValue ha, equalValue_trans ha hb hab hbc⟩, ?_⟩
  intro l m n hdiffer
  obtain ⟨hm, hn, hne⟩ := hdiffer
  obtain ⟨v, hv, hmv⟩ := equalValue_at ha hab hm
  obtain ⟨w, hw, hvn⟩ := equalValue_at hb hbc hv
  rw [hn] at hw
  cases hw
  cases v with
  | number y =>
    simp only [equalValue, equalBy, Number.equalValue, beq_iff_eq] at hmv hvn
    obtain ⟨x, rfl, hx⟩ := Number.between_integers hmv hvn hne
    exact ⟨x, hv, hx⟩
  | _ => cases hmv

/-- The float of the largest integer up to which all are exact. -/
def exactLimit : Json := .number (.float ⟨false, 0x4340000000000000, by decide⟩)

/-- The float `2 ^ 53` equals both integers that round to it, and these differ. -/
theorem equalValue_not_transitive :
    (Json.number (.int (2 ^ 53))).equalValue exactLimit = true ∧
    exactLimit.equalValue (.number (.int (2 ^ 53 + 1))) = true ∧
    (Json.number (.int (2 ^ 53))).equalValue (.number (.int (2 ^ 53 + 1))) = false := by
  decide +kernel

theorem equalValue_trans_iff_nested :
    let a := Json.object [("n", .array [.number (.int (2 ^ 53))]), ("s", .null)]
    let b := Json.object [("s", .null), ("n", .array [exactLimit])]
    let c := Json.object [("n", .array [.number (.int (2 ^ 53 + 1))]), ("s", .null)]
    a.UniqueNames ∧ b.UniqueNames ∧ a.equalValue b = true ∧ b.equalValue c = true ∧
      a.equalValue c = false ∧
      ∃ x : Binary64, b.at? [.name "n", .index 0] = some (.number (.float x)) ∧
        Binary64.scaledOfInt (2 ^ 53) = x.scaled ∧
        Binary64.scaledOfInt (2 ^ 53 + 1) = x.scaled := by
  intro a b c
  have ha : a.UniqueNames := by simp [a, UniqueNames, UniqueMembers, UniqueItems]
  have hb : b.UniqueNames := by simp [b, exactLimit, UniqueNames, UniqueMembers, UniqueItems]
  have hab : a.equalValue b = true := by decide +kernel
  have hbc : b.equalValue c = true := by decide +kernel
  have hdiffer : DifferAt a c [.name "n", .index 0] (2 ^ 53) (2 ^ 53 + 1) :=
    ⟨rfl, rfl, by decide⟩
  obtain ⟨hiff, hbetween⟩ := equalValue_trans_iff ha hb hab hbc
  refine ⟨ha, hb, hab, hbc, ?_, hbetween _ _ _ hdiffer⟩
  rw [Bool.eq_false_iff]
  exact fun hac => hiff.mp hac _ _ _ hdiffer

end Json

namespace ComparisonOp

/-- What the operators mean in an order. -/
def Relates {α : Type} [LinearOrder α] : ComparisonOp → α → α → Prop
  | .equal, x, y => x = y
  | .notEqual, x, y => x ≠ y
  | .less, x, y => x < y
  | .lessEqual, x, y => x ≤ y
  | .greater, x, y => y < x
  | .greaterEqual, x, y => y ≤ x

end ComparisonOp

namespace Comparison

/-- Two numbers, or two strings. -/
inductive Ordered : Option Json → Option Json → Prop
  | numbers (x y : Number) : Ordered (some (.number x)) (some (.number y))
  | strings (s t : String) : Ordered (some (.string s)) (some (.string t))

variable {a b c : Option Json}

theorem equal_comm (ha : ∀ v ∈ a, v.UniqueNames) (hb : ∀ v ∈ b, v.UniqueNames) :
    equal a b = equal b a := by
  cases a with
  | none => cases b <;> rfl
  | some v =>
    cases b with
    | none => rfl
    | some w => exact Json.equalValue_comm (ha v rfl) (hb w rfl)

theorem equal_self (ha : ∀ v ∈ a, v.UniqueNames) : equal a a = true := by
  cases a with
  | none => rfl
  | some v => exact Json.equalValue_self (ha v rfl)

theorem equal_reordered (ha : ∀ v ∈ a, v.UniqueNames) (hb : ∀ v ∈ b, v.UniqueNames)
    {a' b' : Option Json} (h : Option.Rel Json.Reordered a a')
    (h' : Option.Rel Json.Reordered b b') : equal a b = equal a' b' := by
  cases h with
  | none => cases h' <;> rfl
  | some hv =>
    cases h' with
    | none => rfl
    | some hw =>
      exact Json.equalBy_reordered Number.respectsIdentical_equalValue (ha _ rfl) (hb _ rfl) hv hw

theorem ordered_of_less (h : less a b = true) : Ordered a b := by
  unfold less at h
  split at h
  · exact .numbers ..
  · exact .strings ..
  · cases h

theorem less_numbers {x y : Number} :
    less (some (.number x)) (some (.number y)) = true ↔ x.order y = .lt := beq_iff_eq

theorem less_strings {s t : String} :
    less (some (.string s)) (some (.string t)) = true ↔ s < t := decide_eq_true_iff

theorem equal_numbers {x y : Number} :
    equal (some (.number x)) (some (.number y)) = true ↔ x.order y = .eq := beq_iff_eq

theorem equal_strings {s t : String} :
    equal (some (.string s)) (some (.string t)) = true ↔ s = t := beq_iff_eq

theorem less_trans (hab : less a b = true) (hbc : less b c = true) : less a c = true := by
  cases ordered_of_less hab with
  | numbers x y =>
    cases ordered_of_less hbc with
    | numbers _ z =>
      rw [less_numbers] at *
      exact Number.order_lt_trans hab hbc
  | strings s t =>
    cases ordered_of_less hbc with
    | strings _ u =>
      rw [less_strings] at *
      exact lt_trans hab hbc

/-- Of two numbers, and of two strings, one is less or both are equal, and never two of these. -/
theorem trichotomy (h : Ordered a b) :
    less a b = true ∧ equal a b = false ∧ less b a = false ∨
    less a b = false ∧ equal a b = true ∧ less b a = false ∨
    less a b = false ∧ equal a b = false ∧ less b a = true := by
  simp only [← Bool.not_eq_true]
  cases h with
  | numbers x y =>
    rw [less_numbers, equal_numbers, less_numbers, Number.order_swap y x]
    cases x.order y <;> simp
  | strings s t =>
    simp only [less_strings, equal_strings]
    rcases lt_trichotomy s t with hlt | rfl | hgt
    · exact .inl ⟨hlt, hlt.ne, hlt.asymm⟩
    · exact .inr (.inl ⟨lt_irrefl _, rfl, lt_irrefl _⟩)
    · exact .inr (.inr ⟨hgt.asymm, hgt.ne', hgt⟩)

theorem less_asymm (h : less a b = true) : less b a = false := by
  rcases trichotomy (ordered_of_less h) with hcase | hcase | hcase
  · exact hcase.2.2
  · exact hcase.2.2
  · rw [h] at hcase
    cases hcase.1

theorem less_irrefl : less a a = false := by
  by_contra h
  rw [Bool.not_eq_false] at h
  rw [less_asymm h] at h
  cases h

/-- All operators have their meaning in an order where `==` and `<` have it. -/
theorem holds_iff_relates {α : Type} [LinearOrder α] {x y : α} (heq : equal a b = true ↔ x = y)
    (hlt : less a b = true ↔ x < y) (hgt : less b a = true ↔ y < x) (op : ComparisonOp) :
    holds op a b = true ↔ op.Relates x y := by
  cases op with
  | equal => exact heq
  | notEqual => simp [holds, ComparisonOp.Relates, ← heq]
  | less => exact hlt
  | greater => exact hgt
  | lessEqual =>
    simp only [holds, ComparisonOp.Relates, Bool.or_eq_true, heq, hlt]
    exact le_iff_lt_or_eq.symm
  | greaterEqual =>
    simp only [holds, ComparisonOp.Relates, Bool.or_eq_true, heq, hgt]
    rw [le_iff_lt_or_eq, eq_comm]

/-- Numbers relate as what they are compared as. -/
theorem holds_numbers {α : Type} [LinearOrder α] {x y : Number} {u v : α}
    (h : x.order y = compare u v) (op : ComparisonOp) :
    holds op (some (.number x)) (some (.number y)) = true ↔ op.Relates u v := by
  apply holds_iff_relates
  · rw [equal_numbers, h, compare_eq_iff_eq]
  · rw [less_numbers, h, compare_lt_iff_lt]
  · rw [less_numbers, Number.order_swap, h, Ordering.swap_eq_lt, compare_gt_iff_gt]

/-- The laws of comparison for three operands, each a value or Nothing. -/
structure Laws (a b c : Option Json) : Prop where
  equal_self : holds .equal a a = true
  equal_comm : holds .equal a b = holds .equal b a
  equal_reordered {a' b' : Option Json} : Option.Rel Json.Reordered a a' →
    Option.Rel Json.Reordered b b' → holds .equal a b = holds .equal a' b'
  notEqual : holds .notEqual a b = !holds .equal a b
  less_irrefl : holds .less a a = false
  less_asymm : holds .less a b = true → holds .less b a = false
  less_trans : holds .less a b = true → holds .less b c = true → holds .less a c = true
  ordered_of_less : holds .less a b = true → Ordered a b
  trichotomy : Ordered a b →
    holds .less a b = true ∧ holds .equal a b = false ∧ holds .greater a b = false ∨
    holds .less a b = false ∧ holds .equal a b = true ∧ holds .greater a b = false ∨
    holds .less a b = false ∧ holds .equal a b = false ∧ holds .greater a b = true
  greater : holds .greater a b = holds .less b a
  lessEqual : holds .lessEqual a b = (holds .less a b || holds .equal a b)
  greaterEqual : holds .greaterEqual a b = (holds .greater a b || holds .equal a b)
  integers {m n : Int} : a = some (.number (.int m)) → b = some (.number (.int n)) →
    ∀ op, holds op a b = true ↔ op.Relates m n
  floats {x y : Binary64} : a = some (.number (.float x)) → b = some (.number (.float y)) →
    ∀ op, holds op a b = true ↔ op.Relates x.toRat y.toRat

theorem laws (ha : ∀ v ∈ a, v.UniqueNames) (hb : ∀ v ∈ b, v.UniqueNames) : Laws a b c where
  equal_self := Comparison.equal_self ha
  equal_comm := Comparison.equal_comm ha hb
  equal_reordered := Comparison.equal_reordered ha hb
  notEqual := rfl
  less_irrefl := Comparison.less_irrefl
  less_asymm := Comparison.less_asymm
  less_trans := Comparison.less_trans
  ordered_of_less := Comparison.ordered_of_less
  trichotomy := Comparison.trichotomy
  greater := rfl
  lessEqual := rfl
  greaterEqual := rfl
  integers := by
    intro m n hm hn op
    subst hm hn
    exact holds_numbers (Number.order_int m n) op
  floats := by
    intro x y hx hy op
    subst hx hy
    have horder : (Number.float x).order (.float y) = compare x.toRat y.toRat := by
      rw [Number.order_float_left, Binary64.compare_toRat]
      rfl
    exact holds_numbers horder op

/-- The members stand in another order, and a float stands for an integer. -/
theorem laws_sample :
    let a := Json.object [("x", .null), ("y", .number (.int (2 ^ 53)))]
    let b := Json.object [("y", Json.exactLimit), ("x", .null)]
    a.UniqueNames ∧ b.UniqueNames ∧ Laws (some a) (some b) none ∧
      holds .equal (some a) (some b) = true ∧ holds .equal (some b) (some a) = true := by
  intro a b
  have ha : a.UniqueNames := by simp [a, Json.UniqueNames, Json.UniqueMembers]
  have hb : b.UniqueNames := by simp [b, Json.exactLimit, Json.UniqueNames, Json.UniqueMembers]
  have hlaws : Laws (some a) (some b) none := laws (by simpa using ha) (by simpa using hb)
  have hequal : holds .equal (some a) (some b) = true := by decide +kernel
  exact ⟨ha, hb, hlaws, hequal, hlaws.equal_comm ▸ hequal⟩

end Comparison
end JsonQuery
