import JsonQuery.Function.Basic
import JsonQuery.Json.Comparison

namespace JsonQuery

/-- The node from which a query in a filter starts: that of the document, or the one tested. -/
inductive Anchor where
  | root
  | current
  deriving DecidableEq

inductive LogicalOp where
  | and
  | or
  deriving DecidableEq

namespace LogicalOp

def symbol : LogicalOp → String
  | .and => "&&"
  | .or => "||"

end LogicalOp

mutual

/-- Picks some children of a node. -/
inductive Selector where
  | name (name : String)
  | wildcard
  | index (index : Int)
  | slice (start stop step : Option Int)
  | filter (test : Expr)

/-- Applies selectors to a node, or to it and each of its descendants. -/
inductive Segment where
  | child (selectors : List Selector)
  | descendant (selectors : List Selector)

/-- Expressions of filters. A query is an `exists` where its nodes are only counted, and a
`query` where they are used; parentheses are kept. -/
inductive Expr where
  | logical (op : LogicalOp) (left right : Expr)
  | not (operand : Expr)
  | paren (inner : Expr)
  | compare (op : ComparisonOp) (left right : Expr)
  | exists (anchor : Anchor) (segments : List Segment)
  | query (anchor : Anchor) (segments : List Segment)
  | call (function : Extension) (args : List Expr)
  | literal (value : Json)

end

/-- The segments behind the root identifier. -/
structure Query where
  segments : List Segment

namespace Selector

def isSingular : Selector → Bool
  | .name _ | .index _ => true
  | _ => false

end Selector

namespace Segment

def selectors : Segment → List Selector
  | .child ss | .descendant ss => ss

/-- Selects one child at most. -/
def isSingular : Segment → Bool
  | .child [s] => s.isSingular
  | _ => false

end Segment

namespace Query

def isSingular (q : Query) : Bool := q.segments.all Segment.isSingular

end Query

namespace Expr

def type : Expr → ExprType
  | .query _ _ => .nodes
  | .call f _ => f.returns
  | .literal _ => .value
  | _ => .logical

end Expr

mutual

/-- Whether two selectors are the same tree, with literals equal as written. -/
def Selector.same : Selector → Selector → Bool
  | .name a, .name b => a == b
  | .wildcard, .wildcard => true
  | .index i, .index j => i == j
  | .slice a b c, .slice d e f => a == d && b == e && c == f
  | .filter x, .filter y => x.same y
  | _, _ => false

def Selector.sameAll : List Selector → List Selector → Bool
  | [], [] => true
  | a :: as, b :: bs => a.same b && Selector.sameAll as bs
  | _, _ => false

def Segment.same : Segment → Segment → Bool
  | .child as, .child bs => Selector.sameAll as bs
  | .descendant as, .descendant bs => Selector.sameAll as bs
  | _, _ => false

def Segment.sameAll : List Segment → List Segment → Bool
  | [], [] => true
  | a :: as, b :: bs => a.same b && Segment.sameAll as bs
  | _, _ => false

def Expr.same : Expr → Expr → Bool
  | .logical o a b, .logical p c d => o == p && a.same c && b.same d
  | .not a, .not b => a.same b
  | .paren a, .paren b => a.same b
  | .compare o a b, .compare p c d => o == p && a.same c && b.same d
  | .exists a ss, .exists b ts => a == b && Segment.sameAll ss ts
  | .query a ss, .query b ts => a == b && Segment.sameAll ss ts
  | .call f as, .call g bs => f.agrees g && Expr.sameAll as bs
  | .literal v, .literal w => v.identical w
  | _, _ => false

def Expr.sameAll : List Expr → List Expr → Bool
  | [], [] => true
  | a :: as, b :: bs => a.same b && Expr.sameAll as bs
  | _, _ => false

end

namespace Query

def same (q r : Query) : Bool := Segment.sameAll q.segments r.segments

end Query
end JsonQuery
