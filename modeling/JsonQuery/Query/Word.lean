import JsonQuery.Query.Evaluation

/-!
Evaluation with indices and slices in signed words of 64 bits. It stops, which `none` stands for,
where a sum is no word, and where an array lacks an item that a selector asks for.
-/

namespace JsonQuery
namespace Word

/-- The integers that a signed word of 64 bits holds. -/
def Holds (i : Int) : Prop := -2 ^ 63 ≤ i ∧ i < 2 ^ 63

instance : DecidablePred Holds := fun _ => inferInstanceAs (Decidable (_ ∧ _))

def add? (a b : Int) : Option Int := if Holds (a + b) then some (a + b) else none

/-- A number counted from the end of an array if it is negative. -/
def fromStart? (length : Nat) (i : Int) : Option Int :=
  if i < 0 then add? length i else some i

/-- The place in an array that an index names, if it names one. -/
def place? (index : Int) (length : Nat) : Option (Option Nat) :=
  (fromStart? length index).map
    (fun i => if 0 ≤ i ∧ i < (length : Int) then some i.toNat else none)

/-- Whether `stop` lies ahead of `i` in the direction of the steps. -/
def Ahead (step stop i : Int) : Prop := 0 < step ∧ i < stop ∨ step < 0 ∧ stop < i

instance (step stop i : Int) : Decidable (Ahead step stop i) :=
  inferInstanceAs (Decidable (_ ∨ _))

/-- The places from `i` on that `stop` is ahead of. The step behind the last of them is taken
before it turns out to lead too far. -/
def walk? (step stop i : Int) : Option (List Nat) :=
  if Ahead step stop i then
    if Holds (i + step) then (walk? step stop (i + step)).map (i.toNat :: ·) else none
  else some []
termination_by if 0 < step then (stop - i).toNat else (i - stop).toNat
decreasing_by unfold Ahead at *; split <;> omega

def clamp (low high i : Int) : Int := max low (min high i)

/-- The places that a slice selects in an array, in the order in which it selects them. -/
def places? (start stop step : Option Int) (length : Nat) : Option (List Nat) := do
  let step := step.getD 1
  if 0 < step then
    let lower ← fromStart? length (start.getD 0)
    let upper ← fromStart? length (stop.getD length)
    walk? step (clamp 0 length upper) (clamp 0 length lower)
  else if step < 0 then
    let last ← add? length (-1)
    let upper ← start.elim (some last) (fromStart? length)
    let lower ← stop.elim (some (-1)) (fromStart? length)
    walk? step (clamp (-1) last lower) (clamp (-1) last upper)
  else return []

end Word

mutual

def Selector.select? (document : Json) (n : Node) : Selector → Option (List Node)
  | .name name => some (n.child? (.name name)).toList
  | .wildcard => some n.children
  | .index i =>
    match n.value with
    | .array items => do
      match ← Word.place? i items.length with
      | some k => return [← n.child? (.index k)]
      | none => return []
    | _ => some []
  | .slice start stop step =>
    match n.value with
    | .array items => do
      (← Word.places? start stop step items.length).mapM (fun k => n.child? (.index k))
    | _ => some []
  | .filter test => n.children.filterM (fun m => test.holds? document m)

def Selector.selectAll? (document : Json) (n : Node) : List Selector → Option (List Node)
  | [] => some []
  | s :: ss => return (← s.select? document n) ++ (← Selector.selectAll? document n ss)

def Segment.run? (document : Json) (n : Node) : Segment → Option (List Node)
  | .child ss => Selector.selectAll? document n ss
  | .descendant ss => do
    return (← n.subtree.mapM (fun m => Selector.selectAll? document m ss)).flatten

def Segment.runAll? (document : Json) (ns : List Node) : List Segment → Option (List Node)
  | [] => some ns
  | s :: ss => do
    Segment.runAll? document (← ns.mapM (fun n => s.run? document n)).flatten ss

def Expr.holds? (document : Json) (n : Node) : Expr → Option Bool
  | .logical .and a b => do
    if ← a.holds? document n then b.holds? document n else return false
  | .logical .or a b => do
    if ← a.holds? document n then return true else b.holds? document n
  | .not a => return !(← a.holds? document n)
  | .paren a => a.holds? document n
  | .compare op a b =>
    return Comparison.holds op (← a.operand? document n) (← b.operand? document n)
  | .exists .root ss | .query .root ss =>
    return !(← Segment.runAll? document [.root document] ss).isEmpty
  | .exists .current ss | .query .current ss =>
    return !(← Segment.runAll? document [n] ss).isEmpty
  | .call f args => do
    match f.apply (← Expr.arguments? document n args f.params) with
    | .logical b => return b
    | .nodes ns => return !ns.isEmpty
    | .value _ => return false
  | .literal _ => some false

/-- The value of an operand, which may be Nothing. -/
def Expr.operand? (document : Json) (n : Node) : Expr → Option (Option Json)
  | .literal v => some (some v)
  | .query .root ss =>
    return (Node.only? (← Segment.runAll? document [.root document] ss)).map Node.value
  | .query .current ss => return (Node.only? (← Segment.runAll? document [n] ss)).map Node.value
  | .call f args => return (f.apply (← Expr.arguments? document n args f.params)).value?
  | _ => some none

def Expr.nodes? (document : Json) (n : Node) : Expr → Option (List Node)
  | .exists .root ss | .query .root ss => Segment.runAll? document [.root document] ss
  | .exists .current ss | .query .current ss => Segment.runAll? document [n] ss
  | .call f args => return ((f.apply (← Expr.arguments? document n args f.params)).nodes?).getD []
  | _ => some []

def Expr.arguments? (document : Json) (n : Node) :
    List Expr → List ExprType → Option (List TypedValue)
  | a :: as, .value :: ts =>
    return .value (← a.operand? document n) :: (← Expr.arguments? document n as ts)
  | a :: as, .logical :: ts =>
    return .logical (← a.holds? document n) :: (← Expr.arguments? document n as ts)
  | a :: as, .nodes :: ts =>
    return .nodes (← a.nodes? document n) :: (← Expr.arguments? document n as ts)
  | _, _ => some []

end

namespace Query

/-- Evaluation in words. -/
def evaluate? (q : Query) (document : Json) : Option (List Node) :=
  Segment.runAll? document [.root document] q.segments

end Query
end JsonQuery
