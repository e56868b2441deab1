import JsonQuery.Proofs.Evaluation.Slice
import JsonQuery.Proofs.Evaluation.Tree

namespace JsonQuery

/-- What one segment contributes to a route: the way to a container, the step from there to a
child, and the position of the selector that picks the child. -/
structure Leg where
  front : Location
  last : Step
  selector : Nat

namespace Leg

def steps (leg : Leg) : Location := leg.front ++ [leg.last]

end Leg

/-- A leg for each segment of a query. -/
abbrev Route := List Leg

namespace Route

/-- The place to which the legs lead, one behind the other. -/
def location (route : Route) : Location := route.flatMap Leg.steps

@[simp] theorem location_nil : location [] = [] := rfl

@[simp] theorem location_cons (leg : Leg) (rest : Route) :
    location (leg :: rest) = leg.steps ++ location rest := rfl

end Route

namespace Anchor

def node (document : Json) (n : Node) : Anchor → Node
  | .root => .root document
  | .current => n

end Anchor

section Anchored

variable (document : Json) (n : Node) (anchor : Anchor) (ss : List Segment)

theorem Expr.holds_exists : (Expr.exists anchor ss).holds document n =
    !(Segment.applyAll document [anchor.node document n] ss).isEmpty := by
  cases anchor <;> rw [Expr.holds] <;> rfl

theorem Expr.holds_query : (Expr.query anchor ss).holds document n =
    !(Segment.applyAll document [anchor.node document n] ss).isEmpty := by
  cases anchor <;> rw [Expr.holds] <;> rfl

theorem Expr.value?_query : (Expr.query anchor ss).value? document n =
    (Node.only? (Segment.applyAll document [anchor.node document n] ss)).map Node.value := by
  cases anchor <;> rw [Expr.value?] <;> rfl

theorem Expr.nodes_exists : (Expr.exists anchor ss).nodes document n =
    Segment.applyAll document [anchor.node document n] ss := by
  cases anchor <;> rw [Expr.nodes] <;> rfl

theorem Expr.nodes_query : (Expr.query anchor ss).nodes document n =
    Segment.applyAll document [anchor.node document n] ss := by
  cases anchor <;> rw [Expr.nodes] <;> rfl

end Anchored

namespace TypedValue

/-- What makes the result of a function a test that holds. -/
def Holds : TypedValue → Prop
  | .logical b => b = true
  | .nodes ns => ns ≠ []
  | .value _ => False

end TypedValue

mutual

/-- Whether a selector picks, in the container `n`, the child at a step. -/
def Selector.Selects (document : Json) (n : Node) (step : Step) : Selector → Prop
  | .name name => (∃ members, n.value = .object members) ∧ step = .name name
  | .wildcard => True
  | .index i => ∃ items, n.value = .array items ∧
      ∃ k : Nat, step = .index k ∧ (k : Int) = Selector.normalized items.length i
  | .slice start stop stride => ∃ items, n.value = .array items ∧
      ∃ k : Nat, step = .index k ∧ Selector.InSlice start stop stride items.length k
  | .filter e => ∃ m, n.child? step = some m ∧ e.Holds document m

/-- Whether the selector at a position does. -/
def Selector.SelectsAt (document : Json) (n : Node) (step : Step) : List Selector → Nat → Prop
  | [], _ => False
  | s :: _, 0 => s.Selects document n step
  | _ :: ss, k + 1 => Selector.SelectsAt document n step ss k

/-- The legs of a segment: a single step of a child segment, one or more of a descendant one. -/
def Segment.Admits (document : Json) (n : Node) (leg : Leg) : Segment → Prop
  | .child ss => leg.front = [] ∧ Selector.SelectsAt document n leg.last ss leg.selector
  | .descendant ss => ∃ container, n.follow leg.front = some container ∧
      Selector.SelectsAt document container leg.last ss leg.selector

/-- The routes of a query from a node, through values that the document has. -/
def Segment.Routes (document : Json) (n : Node) : List Segment → Route → Prop
  | [], route => route = []
  | s :: ss, route => ∃ leg rest m, route = leg :: rest ∧ s.Admits document n leg ∧
      n.follow leg.steps = some m ∧ Segment.Routes document m ss rest

/-- What it means for a test to hold at a node: a query has a route, a comparison compares what its
operands are, and a function is given its arguments. -/
def Expr.Holds (document : Json) (n : Node) : Expr → Prop
  | .logical .and a b => a.Holds document n ∧ b.Holds document n
  | .logical .or a b => a.Holds document n ∨ b.Holds document n
  | .not a => ¬ a.Holds document n
  | .paren a => a.Holds document n
  | .compare op a b => ∃ v w, a.HasValue document n v ∧ b.HasValue document n w ∧
      Comparison.holds op v w = true
  | .exists anchor ss | .query anchor ss =>
    ∃ route, Segment.Routes document (anchor.node document n) ss route
  | .call f args => ∃ vs, Expr.Given document n args f.params vs ∧ (f.apply vs).Holds
  | .literal _ => False

/-- The value of an operand: that at the end of the only route of a query, Nothing if it has none
or several. -/
def Expr.HasValue (document : Json) (n : Node) : Expr → Option Json → Prop
  | .literal v, w => w = some v
  | .query anchor ss, w =>
    (∃ route m, (∀ r, Segment.Routes document (anchor.node document n) ss r ↔ r = route) ∧
      (anchor.node document n).follow route.location = some m ∧ w = some m.value) ∨
    (¬ ∃ route, ∀ r, Segment.Routes document (anchor.node document n) ss r ↔ r = route) ∧ w = none
  | .call f args, w => ∃ vs, Expr.Given document n args f.params vs ∧ w = (f.apply vs).value?
  | _, w => w = none

/-- What a function is given. Node lists come in the order of evaluation. -/
def Expr.Given (document : Json) (n : Node) :
    List Expr → List ExprType → List TypedValue → Prop
  | a :: as, .value :: ts, vs => ∃ w rest, vs = .value w :: rest ∧ a.HasValue document n w ∧
      Expr.Given document n as ts rest
  | a :: as, .logical :: ts, vs => ∃ b rest, vs = .logical b :: rest ∧
      (b = true ↔ a.Holds document n) ∧ Expr.Given document n as ts rest
  | a :: as, .nodes :: ts, vs => ∃ rest, vs = .nodes (a.nodes document n) :: rest ∧
      Expr.Given document n as ts rest
  | _, _, vs => vs = []

end

namespace Query

/-- The ways in which a query selects a place of a document. -/
def Routes (document : Json) (q : Query) (l : Location) : Set Route :=
  {route | Segment.Routes document (.root document) q.segments route ∧ route.location = l}

end Query
end JsonQuery
