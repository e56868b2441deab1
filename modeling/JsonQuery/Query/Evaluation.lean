import JsonQuery.Query.Basic

namespace JsonQuery
namespace Selector

/-- The place in an array that an index names, counted from the end if negative. -/
def place? (index : Int) (length : Nat) : Option Nat :=
  let i := if index < 0 then length + index else index
  if 0 ≤ i ∧ i < length then some i.toNat else none

/-- A bound of a slice, counted from the end if negative, moved into a range. -/
def bound (low high : Int) (length : Nat) (i : Int) : Int :=
  max low (min high (if i < 0 then length + i else i))

/-- The numbers `first + k * step`, `k` counted from `0`, that lie less than `distance` away from
`first`. -/
def progression (first step distance : Int) : List Nat :=
  let count := (distance + (step.natAbs - 1)) / step.natAbs
  (List.range count.toNat).map (fun (k : Nat) => (first + k * step).toNat)

/-- The places that a slice selects in an array, in the order in which it selects them. -/
def places (start stop step : Option Int) (length : Nat) : List Nat :=
  let step := step.getD 1
  if 0 < step then
    let lower := bound 0 length length (start.getD 0)
    let upper := bound 0 length length (stop.getD length)
    progression lower step (upper - lower)
  else if step < 0 then
    let upper := (start.map (bound (-1) (length - 1) length)).getD (length - 1)
    let lower := (stop.map (bound (-1) (length - 1) length)).getD (-1)
    progression upper step (upper - lower)
  else []

end Selector

mutual

/-- The children of a node that a selector picks, in its order. -/
def Selector.select (document : Json) (n : Node) : Selector → List Node
  | .name name => (n.child? (.name name)).toList
  | .wildcard => n.children
  | .index i =>
    match n.value with
    | .array items => ((Selector.place? i items.length).bind (fun k => n.child? (.index k))).toList
    | _ => []
  | .slice start stop step =>
    match n.value with
    | .array items =>
      (Selector.places start stop step items.length).filterMap (fun k => n.child? (.index k))
    | _ => []
  | .filter test => n.children.filter (fun m => test.holds document m)

def Selector.selectAll (document : Json) (n : Node) : List Selector → List Node
  | [] => []
  | s :: ss => s.select document n ++ Selector.selectAll document n ss

def Segment.apply (document : Json) (n : Node) : Segment → List Node
  | .child ss => Selector.selectAll document n ss
  | .descendant ss => n.subtree.flatMap (fun m => Selector.selectAll document m ss)

/-- Each segment is applied to the nodes of the one before it. -/
def Segment.applyAll (document : Json) (ns : List Node) : List Segment → List Node
  | [] => ns
  | s :: ss => Segment.applyAll document (ns.flatMap (fun n => s.apply document n)) ss

/-- A test of the current node. An expression that is no test does not hold. -/
def Expr.holds (document : Json) (n : Node) : Expr → Bool
  | .logical .and a b => a.holds document n && b.holds document n
  | .logical .or a b => a.holds document n || b.holds document n
  | .not a => !a.holds document n
  | .paren a => a.holds document n
  | .compare op a b => Comparison.holds op (a.value? document n) (b.value? document n)
  | .exists .root ss | .query .root ss =>
    !(Segment.applyAll document [.root document] ss).isEmpty
  | .exists .current ss | .query .current ss => !(Segment.applyAll document [n] ss).isEmpty
  | .call f args =>
    match f.apply (Expr.arguments document n args f.params) with
    | .logical b => b
    | .nodes ns => !ns.isEmpty
    | .value _ => false
  | .literal _ => false

/-- A value; `none` is Nothing, which an expression that has no value also gives. -/
def Expr.value? (document : Json) (n : Node) : Expr → Option Json
  | .literal v => some v
  | .query .root ss => (Node.only? (Segment.applyAll document [.root document] ss)).map Node.value
  | .query .current ss => (Node.only? (Segment.applyAll document [n] ss)).map Node.value
  | .call f args => (f.apply (Expr.arguments document n args f.params)).value?
  | _ => none

/-- A node list, empty for an expression that has none. -/
def Expr.nodes (document : Json) (n : Node) : Expr → List Node
  | .exists .root ss | .query .root ss => Segment.applyAll document [.root document] ss
  | .exists .current ss | .query .current ss => Segment.applyAll document [n] ss
  | .call f args => ((f.apply (Expr.arguments document n args f.params)).nodes?).getD []
  | _ => []

/-- Arguments in the types that a function declares. Those beyond its parameters are dropped. -/
def Expr.arguments (document : Json) (n : Node) : List Expr → List ExprType → List TypedValue
  | a :: as, .value :: ts => .value (a.value? document n) :: Expr.arguments document n as ts
  | a :: as, .logical :: ts => .logical (a.holds document n) :: Expr.arguments document n as ts
  | a :: as, .nodes :: ts => .nodes (a.nodes document n) :: Expr.arguments document n as ts
  | _, _ => []

end

namespace Query

/-- The nodes of a document that a query selects, in traversal order and with repetitions. -/
def evaluate (q : Query) (document : Json) : List Node :=
  Segment.applyAll document [.root document] q.segments

end Query
end JsonQuery
