import JsonQuery.Query.Error

namespace JsonQuery
namespace Expr

/-- An operand of logical operators. A query becomes a test of existence there; a literal and the
value of a function are no tests. -/
def asTest : Expr → Except TypeFault Expr
  | .query anchor segments => .ok (.exists anchor segments)
  | .literal _ => .error .uncomparedLiteral
  | .call f args =>
    if f.returns = .value then .error (.uncomparedResult f.name) else .ok (.call f args)
  | e => .ok e

/-- The reason why an expression cannot be compared. -/
def comparisonFault? : Expr → Option TypeFault
  | .literal _ => none
  | .query _ segments => if segments.all Segment.isSingular then none else some .incomparableQuery
  | .call f _ => if f.returns = .value then none else some (.incomparableResult f.name)
  | _ => some .incomparableExpression

/-- Whether an argument fits a parameter as it stands. -/
def fits : ExprType → Expr → Bool
  | .value, .literal _ => true
  | .value, .query _ segments => segments.all Segment.isSingular
  | .value, .call f _ => f.returns == .value
  | .value, _ => false
  | .logical, .literal _ => false
  | .logical, .call f _ => f.returns != .value
  | .logical, _ => true
  | .nodes, .query _ _ => true
  | .nodes, .call f _ => f.returns == .nodes
  | .nodes, _ => false

/-- An argument as its parameter needs it; where a test is wanted, a query becomes one. -/
def asArgument (function : String) (position : Nat) (param : ExprType) (e : Expr) :
    Except TypeFault Expr :=
  match param, e with
  | .logical, .query anchor segments => .ok (.exists anchor segments)
  | param, e =>
    if fits param e then .ok e else .error (.argumentType function position param)

end Expr
end JsonQuery
