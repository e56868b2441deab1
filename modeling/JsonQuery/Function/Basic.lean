import JsonQuery.Node

namespace JsonQuery

/-- The types that expressions in filters have. -/
inductive ExprType where
  | value
  | logical
  | nodes
  deriving DecidableEq

namespace ExprType

def name : ExprType → String
  | .value => "ValueType"
  | .logical => "LogicalType"
  | .nodes => "NodesType"

end ExprType

/-- What functions take and return. The value `none` is Nothing. -/
inductive TypedValue where
  | value (v : Option Json)
  | logical (b : Bool)
  | nodes (ns : List Node)

namespace TypedValue

def nothing : TypedValue := .value none

def ofNat (n : Nat) : TypedValue := .value (some (.number (.int n)))

def type : TypedValue → ExprType
  | .value _ => .value
  | .logical _ => .logical
  | .nodes _ => .nodes

/-- The value of a ValueType; Nothing for the other types. -/
def value? : TypedValue → Option Json
  | .value v => v
  | _ => none

def nodes? : TypedValue → Option (List Node)
  | .nodes ns => some ns
  | _ => none

end TypedValue

/-- A function that filters can call. Nothing forces it to return the type that it declares. -/
structure Extension where
  name : String
  params : List ExprType
  returns : ExprType
  apply : List TypedValue → TypedValue

namespace Extension

/-- Functions are told apart by what they declare. -/
def agrees (f g : Extension) : Bool :=
  f.name == g.name && f.params == g.params && f.returns == g.returns

end Extension
end JsonQuery
