import JsonQuery.Token.Scan

namespace JsonQuery

/-- The kinds of errors in queries. The first four come from characters, the others from
tokens. -/
inductive ErrorKind where
  | unexpectedCharacter
  | invalidEscape
  | unterminatedString
  | invalidNumber
  | unexpectedToken
  | unexpectedEnd
  | indexOutOfRange
  | typeError
  | unknownFunction
  | nestingTooDeep
  deriving DecidableEq

namespace Token.Fault

def kind : Fault → ErrorKind
  | .string .unterminated => .unterminatedString
  | .string (.controlCharacter _) => .unexpectedCharacter
  | .string _ => .invalidEscape
  | .number _ => .invalidNumber
  | _ => .unexpectedCharacter

end Token.Fault

/-- An expression that does not fit its place. -/
inductive TypeFault where
  | negatedLiteral
  | uncomparedLiteral
  | uncomparedResult (function : String)
  | incomparableQuery
  | incomparableResult (function : String)
  | incomparableExpression
  | argumentCount (function : String) (declared given : Nat)
  | argumentType (function : String) (position : Nat) (param : ExprType)
  deriving DecidableEq

namespace TypeFault

def message : TypeFault → String
  | .negatedLiteral => "a literal cannot be negated"
  | .uncomparedLiteral => "a literal must be compared"
  | .uncomparedResult f => "result of " ++ f ++ "() must be compared"
  | .incomparableQuery => "non-singular query is not comparable"
  | .incomparableResult f => "result of " ++ f ++ "() is not comparable"
  | .incomparableExpression => "expression is not comparable"
  | .argumentCount f declared given =>
    "function '" ++ f ++ "' takes " ++ toString declared ++ " argument(s) but " ++
      toString given ++ " were given"
  | .argumentType f position param =>
    "argument " ++ toString position ++ " of " ++ f ++ "() is not of type " ++ param.name

end TypeFault

/-- What may stand in the place of an unexpected token. -/
inductive Expectation where
  | rootIdentifier
  | segmentOrEnd
  | memberName
  | commaOrBracket
  | selector
  | openParen
  | closeParen
  | commaOrParen
  | operand
  deriving DecidableEq

namespace Expectation

def message : Expectation → String
  | .rootIdentifier => "expected root identifier '$'"
  | .segmentOrEnd => "expected a segment or end of query"
  | .memberName => "expected a member name or '*'"
  | .commaOrBracket => "expected ',' or ']'"
  | .selector => "expected a selector"
  | .openParen => "expected '('"
  | .closeParen => "expected ')'"
  | .commaOrParen => "expected ',' or ')'"
  | .operand => "expected a literal, a query or a function call"

end Expectation

/-- The largest number that indices and slices may have, in either direction. -/
def maxIndex : Int := 2 ^ 53 - 1

namespace QueryError

inductive Cause where
  | leadingBlank
  | trailingBlank
  | lexical (fault : Token.Fault)
  | unexpected (found : Token.Kind) (expected : Expectation)
  | fractionalIndex (n : Numeral)
  | minusZeroIndex
  | indexOutOfRange (n : Numeral)
  | literalOutOfRange (n : Numeral)
  | unknownFunction (name : String)
  | nestingTooDeep (limit : Nat)
  | type (fault : TypeFault)
  deriving DecidableEq

namespace Cause

def kind : Cause → ErrorKind
  | .leadingBlank | .trailingBlank => .unexpectedCharacter
  | .lexical fault => fault.kind
  | .unexpected .endOfQuery _ => .unexpectedEnd
  | .unexpected _ _ => .unexpectedToken
  | .fractionalIndex _ | .minusZeroIndex | .literalOutOfRange _ => .invalidNumber
  | .indexOutOfRange _ => .indexOutOfRange
  | .unknownFunction _ => .unknownFunction
  | .nestingTooDeep _ => .nestingTooDeep
  | .type _ => .typeError

def message : Cause → String
  | .leadingBlank => "leading whitespace is not allowed"
  | .trailingBlank => "trailing whitespace is not allowed"
  | .lexical fault => fault.message
  | .unexpected found expected =>
    "unexpected " ++ found.description ++ ", " ++ expected.message
  | .fractionalIndex n => "expected an integer, found " ++ n.text
  | .minusZeroIndex => "negative zero is not a valid index"
  | .indexOutOfRange n =>
    "index " ++ n.text ++ " is outside the range [" ++ toString (-maxIndex) ++ ", " ++
      toString maxIndex ++ "]"
  | .literalOutOfRange n => "number " ++ n.text ++ " is out of range"
  | .unknownFunction name => "unknown function '" ++ name ++ "'"
  | .nestingTooDeep limit => "expression nesting exceeds " ++ toString limit ++ " levels"
  | .type fault => fault.message

end Cause
end QueryError

/-- A cause, and the number of bytes in front of the place to which it belongs. -/
structure QueryError where
  cause : QueryError.Cause
  offset : Nat
  deriving DecidableEq

namespace QueryError

def kind (e : QueryError) : ErrorKind := e.cause.kind

def message (e : QueryError) : String := e.cause.message

def text (e : QueryError) : String := e.message ++ " at offset " ++ toString e.offset

def ofToken (e : Token.Error) : QueryError := ⟨.lexical e.fault, e.offset⟩

end QueryError
end JsonQuery
