import JsonQuery.Query.Grammar

namespace JsonQuery

mutual

/-- How many filters, parentheses and calls stand in one another. Chains, negations and
comparisons open no level. -/
def Selector.depth : Selector → Nat
  | .filter e => e.depth + 1
  | _ => 0

def Selector.maxDepth : List Selector → Nat
  | [] => 0
  | s :: ss => max s.depth (Selector.maxDepth ss)

def Segment.depth : Segment → Nat
  | .child ss | .descendant ss => Selector.maxDepth ss

def Segment.maxDepth : List Segment → Nat
  | [] => 0
  | s :: ss => max s.depth (Segment.maxDepth ss)

def Expr.depth : Expr → Nat
  | .logical _ a b => max a.depth b.depth
  | .not a => a.depth
  | .paren a => a.depth + 1
  | .compare _ a b => max a.depth b.depth
  | .exists _ ss | .query _ ss => Segment.maxDepth ss
  | .call _ args => Expr.maxDepth args + 1
  | .literal _ => 0

def Expr.maxDepth : List Expr → Nat
  | [] => 0
  | e :: es => max e.depth (Expr.maxDepth es)

end

def Query.depth (q : Query) : Nat := Segment.maxDepth q.segments

end JsonQuery
