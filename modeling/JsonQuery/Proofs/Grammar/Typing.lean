import JsonQuery.Query.Grammar

namespace JsonQuery

/-- The range of indices and of the numbers of slices. -/
def InIndexRange (i : Int) : Prop := -maxIndex ≤ i ∧ i ≤ maxIndex

def Json.IsPrimitive : Json → Prop
  | .array _ | .object _ => False
  | _ => True

/-- Node lists stand for tests of whether they are empty. -/
def ExprType.FitsAs (given wanted : ExprType) : Prop :=
  given = wanted ∨ given = .nodes ∧ wanted = .logical

mutual

/-- Numbers lie in range, tests are tests, and operands and arguments have the types of their
places. -/
def Selector.WellTyped (r : Registry) : Selector → Prop
  | .name _ | .wildcard => True
  | .index i => InIndexRange i
  | .slice start stop step =>
    (∀ i ∈ start, InIndexRange i) ∧ (∀ i ∈ stop, InIndexRange i) ∧ ∀ i ∈ step, InIndexRange i
  | .filter e => e.HasType r .logical

def Selector.AllWellTyped (r : Registry) : List Selector → Prop
  | [] => True
  | s :: ss => s.WellTyped r ∧ Selector.AllWellTyped r ss

/-- Only a segment without selectors cannot be written. -/
def Segment.WellTyped (r : Registry) : Segment → Prop
  | .child ss | .descendant ss => ss ≠ [] ∧ Selector.AllWellTyped r ss

def Segment.AllWellTyped (r : Registry) : List Segment → Prop
  | [] => True
  | s :: ss => s.WellTyped r ∧ Segment.AllWellTyped r ss

/-- The types that an expression may have where it stands. A query stands for its nodes, or for
their only value if it is singular; where its nodes are only counted it is an `exists`. -/
def Expr.HasType (r : Registry) : Expr → ExprType → Prop
  | .logical _ a b, t => t = .logical ∧ a.HasType r .logical ∧ b.HasType r .logical
  | .not a, t => t = .logical ∧ a.HasType r .logical
  | .paren a, t => t = .logical ∧ a.HasType r .logical
  | .compare _ a b, t => t = .logical ∧ a.HasType r .value ∧ b.HasType r .value
  | .exists _ ss, t => t = .logical ∧ Segment.AllWellTyped r ss
  | .query _ ss, t =>
    (t = .nodes ∨ t = .value ∧ ss.all Segment.isSingular = true) ∧ Segment.AllWellTyped r ss
  | .call f args, t =>
    r.lookup f.name = some f ∧ f.returns.FitsAs t ∧ Expr.HaveTypes r args f.params
  | .literal v, t => t = .value ∧ v.IsPrimitive

/-- As many arguments as there are parameters, each of the type of its own. -/
def Expr.HaveTypes (r : Registry) : List Expr → List ExprType → Prop
  | [], ts => ts = []
  | _ :: _, [] => False
  | e :: es, t :: ts => e.HasType r t ∧ Expr.HaveTypes r es ts

end

/-- A query that fits the functions of a registry, at every depth. -/
def Query.WellTyped (r : Registry) (q : Query) : Prop := Segment.AllWellTyped r q.segments

end JsonQuery
