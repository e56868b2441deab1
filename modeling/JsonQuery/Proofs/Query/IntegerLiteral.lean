import JsonQuery.Json.Reader
import JsonQuery.Proofs.Binary64.Order
import JsonQuery.Proofs.Json.Comparison
import JsonQuery.Proofs.Query.Printing

namespace JsonQuery

theorem repr_eq_intChars (i : Int) : i.repr = String.ofList (intChars i) := by
  unfold intChars
  cases i with
  | ofNat n => rfl
  | negSucc n =>
    rw [if_pos (Int.negSucc_lt_zero n), String.ofList_append]
    rfl

namespace Number

/-- An integer of a query that needs an unsigned word is read as the float nearest it. -/
theorem asRead_unsigned {n : Int} (hl : 2 ^ 63 ≤ n) (hh : n ≤ 2 ^ 64 - 1) :
    ∃ x, asRead (.int n) = .float x ∧ x.scaled = Binary64.scaledOfInt n := by
  obtain ⟨x, hx, hvalue⟩ := Numeral.ofInt_value?_float hl hh
  refine ⟨x, ?_, Binary64.scaled_of_ofRatio? hx⟩
  rw [asRead, hvalue]
  rfl

end Number

namespace Comparison

instance {α : Type} [LinearOrder α] (x y : α) : ∀ op : ComparisonOp, Decidable (op.Relates x y)
  | .equal => inferInstanceAs (Decidable (x = y))
  | .notEqual => inferInstanceAs (Decidable (x ≠ y))
  | .less => inferInstanceAs (Decidable (x < y))
  | .lessEqual => inferInstanceAs (Decidable (x ≤ y))
  | .greater => inferInstanceAs (Decidable (y < x))
  | .greaterEqual => inferInstanceAs (Decidable (y ≤ x))

/-- What it means to compare an integer with one that stands in a query. -/
def RelatesLiteral (op : ComparisonOp) (m n : Int) : Prop :=
  if n < 2 ^ 63 then op.Relates m n
  else op.Relates (Binary64.scaledOfInt m) (Binary64.scaledOfInt n)

instance (op : ComparisonOp) (m n : Int) : Decidable (RelatesLiteral op m n) :=
  inferInstanceAs (Decidable (if n < 2 ^ 63 then _ else _))

theorem holds_asRead (m : Int) {n : Int} (hn : -2 ^ 63 ≤ n ∧ n ≤ 2 ^ 64 - 1) (op : ComparisonOp) :
    holds op (some (.number (.int m))) (some (.number (Number.asRead (.int n)))) = true ↔
      RelatesLiteral op m n := by
  unfold RelatesLiteral
  split
  · rename_i hsigned
    rw [Number.asRead, Numeral.ofInt_value? hn.1 (by omega), Option.getD_some]
    exact holds_numbers (Number.order_int m n) op
  · rename_i hunsigned
    obtain ⟨x, hx, hscaled⟩ := Number.asRead_unsigned (Int.not_lt.mp hunsigned) hn.2
    rw [hx, ← hscaled]
    exact holds_numbers (Number.order_float_right (.int m) x) op

end Comparison

namespace Query

variable {op : ComparisonOp} {n : Int}

/-- A filter that compares each child with an integer. -/
def comparing (op : ComparisonOp) (n : Int) : Query :=
  ⟨[.child [.filter (.compare op (.query .current []) (.literal (.number (.int n))))]]⟩

theorem comparing_text : (comparing op n).text = "$[?@ " ++ op.symbol ++ " " ++ n.repr ++ "]" := by
  apply String.ext
  simp [text, chars, comparing, repr_eq_intChars, Segment.listChars, Segment.chars,
    Selector.listChars, Selector.tailChars, Selector.chars, Expr.chars, Anchor.char,
    Canonical.literal, Json.chars, Number.chars]

theorem comparing_sound (r : Registry) (hn : -2 ^ 63 ≤ n ∧ n ≤ 2 ^ 64 - 1) :
    (comparing op n).Sound r (2 ^ 64 - 1) := by
  have hword : (Json.number (.int n)).FitsWord (2 ^ 64 - 1) := ⟨hn.1, hn.2, hn.2⟩
  simpa [comparing, Sound, Segment.AllSound, Segment.Sound, Selector.AllSound, Selector.Sound,
    Expr.Serves, Json.IsPrimitive] using hword

theorem comparing_negatesOnce : (comparing op n).NegatesOnce := by
  simp [comparing, NegatesOnce, Segment.AllNegateOnce, Segment.NegatesOnce,
    Selector.AllNegateOnce, Selector.NegatesOnce, Expr.NegatesOnce]

/-- The literal stands in the compiled query as it is read. -/
theorem comparing_evaluate (v : Json) :
    (comparing op n).grouped.evaluate (.array [v]) =
      if Comparison.holds op (some v) (some (.number (Number.asRead (.int n)))) = true then
        [⟨v, [.index 0]⟩]
      else [] := by
  have hgrouped : (comparing op n).grouped = ⟨[.child [.filter (.compare op (.query .current [])
      (.literal (.number (Number.asRead (.int n)))))]]⟩ := rfl
  have htest : (Expr.compare op (.query .current [])
      (.literal (.number (Number.asRead (.int n))))).holds (.array [v]) ⟨v, [.index 0]⟩ =
        Comparison.holds op (some v) (some (.number (Number.asRead (.int n)))) := by
    simp [Expr.holds, Expr.value?, Segment.applyAll, Node.only?]
  have hchildren : (Node.root (.array [v])).children = [⟨v, [.index 0]⟩] := rfl
  rw [hgrouped]
  simp only [evaluate, Segment.applyAll, Segment.apply, Selector.selectAll, Selector.select,
    List.flatMap_singleton, List.append_nil, hchildren, List.filter_singleton, htest]
  cases Comparison.holds op (some v) (some (.number (Number.asRead (.int n)))) <;> rfl

end Query

namespace Environment

variable {env : Environment} {op : ComparisonOp} {m n : Int}

theorem query_comparing (hd : 1 ≤ env.maxDepth) (hn : -2 ^ 63 ≤ n ∧ n ≤ 2 ^ 64 - 1) (v : Json) :
    env.query ("$[?@ " ++ op.symbol ++ " " ++ n.repr ++ "]") (.array [v]) =
      .ok (if Comparison.holds op (some v) (some (.number (Number.asRead (.int n)))) = true then
        [⟨v, [.index 0]⟩]
      else []) := by
  have hsound : (Query.comparing op n).Sound env.registry (2 ^ 64 - 1) :=
    Query.comparing_sound env.registry hn
  have hcompile : env.compile (Query.comparing op n).text = .ok (Query.comparing op n).grouped :=
    (compile_text_iff hsound).mpr ⟨hsound, Query.comparing_negatesOnce, hd, rfl⟩
  rw [← Query.comparing_text, query, hcompile, ← Query.comparing_evaluate]
  rfl

/-- The comparison of a number in a document with one in a query. Both are read as integers, and
compared exactly, if that of the query fits a signed word; beyond, it is a float, and the number of
the document is compared as the float nearest it. -/
theorem query_integer (hd : 1 ≤ env.maxDepth) (hm : -2 ^ 63 ≤ m ∧ m ≤ 2 ^ 64 - 1)
    (hn : -2 ^ 63 ≤ n ∧ n ≤ 2 ^ 64 - 1) (op : ComparisonOp) :
    Json.numberOf? (.ofInt m) = some (.int m) ∧
      env.query ("$[?@ " ++ op.symbol ++ " " ++ n.repr ++ "]") (.array [.number (.int m)]) =
        .ok (if Comparison.RelatesLiteral op m n then [⟨.number (.int m), [.index 0]⟩] else []) := by
  refine ⟨Numeral.ofInt_value? hm.1 hm.2, ?_⟩
  rw [query_comparing hd hn]
  simp only [Comparison.holds_asRead m hn op]

/-- At the end of the signed words, where the nearest floats are equal. -/
theorem query_integer_largest :
    let m : Int := 2 ^ 63
    let n : Int := 2 ^ 63 - 1
    1 ≤ Environment.default.maxDepth ∧ (-2 ^ 63 ≤ m ∧ m ≤ 2 ^ 64 - 1) ∧
      (-2 ^ 63 ≤ n ∧ n ≤ 2 ^ 64 - 1) ∧ Json.numberOf? (.ofInt m) = some (.int m) ∧
      Environment.default.query "$[?@ > 9223372036854775807]" (.array [.number (.int m)]) =
        .ok [⟨.number (.int m), [.index 0]⟩] := by
  intro m n
  have hd : 1 ≤ Environment.default.maxDepth := by decide
  have hm : -2 ^ 63 ≤ m ∧ m ≤ 2 ^ 64 - 1 := by decide
  have hn : -2 ^ 63 ≤ n ∧ n ≤ 2 ^ 64 - 1 := by decide
  have htext : "$[?@ " ++ ComparisonOp.greater.symbol ++ " " ++ n.repr ++ "]" =
      "$[?@ > 9223372036854775807]" := by decide
  have hrelates : Comparison.RelatesLiteral .greater m n := by decide
  obtain ⟨hread, hquery⟩ := query_integer hd hm hn .greater
  rw [htext, if_pos hrelates] at hquery
  exact ⟨hd, hm, hn, hread, hquery⟩

/-- `2 ^ 63` and the integer behind it are one float, so a filter takes them for equal. -/
theorem query_integer_inexact :
    Environment.default.query "$[?@ == 9223372036854775809]" (.array [.number (.int (2 ^ 63))]) =
        .ok [⟨.number (.int (2 ^ 63)), [.index 0]⟩] ∧
      ¬ ComparisonOp.equal.Relates (2 ^ 63 : Int) 9223372036854775809 := by
  have hn : -2 ^ 63 ≤ (9223372036854775809 : Int) ∧ (9223372036854775809 : Int) ≤ 2 ^ 64 - 1 := by
    decide
  have htext : "$[?@ " ++ ComparisonOp.equal.symbol ++ " " ++ (9223372036854775809 : Int).repr ++
      "]" = "$[?@ == 9223372036854775809]" := by decide
  have hrelates : Comparison.RelatesLiteral .equal (2 ^ 63) 9223372036854775809 := by
    decide +kernel
  have hholds := (Comparison.holds_asRead (2 ^ 63) hn .equal).mpr hrelates
  refine ⟨?_, by decide⟩
  rw [← htext, query_comparing (by decide) hn, if_pos hholds]

end Environment
end JsonQuery
