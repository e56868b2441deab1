import JsonQuery.Json.Basic

namespace JsonQuery
namespace Number

def isInteger : Number → Bool
  | .int _ => true
  | .float _ => false

/-- The integer in a signed word of 64 bits. It may be too large for one, but neither a document nor
a query has an integer that is too small. -/
def signed? : Number → Option Int
  | .int a => if a < 2 ^ 63 then some a else none
  | .float _ => none

/-- The integer in an unsigned word of 64 bits, for which none is too large. -/
def unsigned? : Number → Option Nat
  | .int a => a.toNat?
  | .float _ => none

/-- The number as a float, in the least unit. An integer counts as the float nearest it. -/
def scaled : Number → Int
  | .int a => Binary64.scaledOfInt a
  | .float x => x.scaled

/-- The order of numbers that are not both in signed words. Where two integers are not both in
unsigned words either, one is negative and the other above the signed words. With a float both are
compared as floats. -/
def orderBeyond (a b : Number) : Ordering :=
  match a.unsigned?, b.unsigned? with
  | some x, some y => compare x y
  | _, _ =>
    if a.isInteger && b.isInteger then if a.unsigned?.isSome then .gt else .lt
    else compare a.scaled b.scaled

/-- The order of two numbers, in signed words where these hold both. -/
def order (a b : Number) : Ordering :=
  match a.signed?, b.signed? with
  | some x, some y => compare x y
  | _, _ => a.orderBeyond b

/-- Equal in value, so that `1` and `1.0` are. -/
def equalValue (a b : Number) : Bool := order a b == .eq

/-- Equal as written: an integer is no float, but the two zeros are one number. -/
def identical : Number → Number → Bool
  | .int a, .int b => a == b
  | .float x, .float y => x.scaled == y.scaled
  | _, _ => false

end Number

namespace Json

/-- The equality that filters test. -/
def equalValue : Json → Json → Bool := equalBy Number.equalValue

/-- The equality of literals in queries. -/
def identical : Json → Json → Bool := equalBy Number.identical

end Json

inductive ComparisonOp where
  | equal
  | notEqual
  | less
  | lessEqual
  | greater
  | greaterEqual
  deriving DecidableEq

namespace ComparisonOp

def symbol : ComparisonOp → String
  | .equal => "=="
  | .notEqual => "!="
  | .less => "<"
  | .lessEqual => "<="
  | .greater => ">"
  | .greaterEqual => ">="

end ComparisonOp

namespace Comparison

/-- Nothing, which `none` stands for, equals Nothing alone. -/
def equal : Option Json → Option Json → Bool
  | none, none => true
  | some a, some b => a.equalValue b
  | _, _ => false

/-- Only numbers and strings are ordered, strings by code points. -/
def less : Option Json → Option Json → Bool
  | some (.number a), some (.number b) => a.order b == .lt
  | some (.string a), some (.string b) => a < b
  | _, _ => false

def holds : ComparisonOp → Option Json → Option Json → Bool
  | .equal, a, b => equal a b
  | .notEqual, a, b => !equal a b
  | .less, a, b => less a b
  | .lessEqual, a, b => less a b || equal a b
  | .greater, a, b => less b a
  | .greaterEqual, a, b => less b a || equal a b

end Comparison
end JsonQuery
