import JsonQuery.Function.Registry
import JsonQuery.Query.Typing
import JsonQuery.Text.Read

namespace JsonQuery

/-- What the grammar depends on: the functions that may be called, how many filters, parentheses
and calls may stand in one another, and where the text ends. -/
structure Grammar where
  registry : Registry
  maxDepth : Nat
  stop : Nat

namespace Grammar

/-- A part of a query, with the tokens behind it. -/
abbrev Part (α : Type) (bound : Nat) := Except QueryError (Read α Token bound)

/-- A reader of a part that is not empty. -/
abbrev Reader (α : Type) := (ts : List Token) → Part α ts.length

def offset (g : Grammar) : List Token → Nat
  | [] => g.stop
  | t :: _ => t.offset

/-- The error of tokens that start with none that is expected. -/
def unexpected {α : Type} (g : Grammar) (expected : Expectation) :
    List Token → Except QueryError α
  | [] => .error ⟨.unexpected .endOfQuery expected, g.stop⟩
  | t :: _ => .error ⟨.unexpected t.kind expected, t.offset⟩

/-- A type fault belongs to the place where the expression starts. -/
def typed {α : Type} (offset : Nat) (result : Except TypeFault α) : Except QueryError α :=
  result.mapError (fun fault => ⟨.type fault, offset⟩)

/-- The reader of what is nested, `none` where nothing more may be. -/
def enter (g : Grammar) (nested : Option (Reader Expr)) (offset : Nat) :
    Except QueryError (Reader Expr) :=
  match nested with
  | some read => .ok read
  | none => .error ⟨.nestingTooDeep g.maxDepth, offset⟩

/-- The value of an index or of a bound of a slice. -/
def index (offset : Nat) (n : Numeral) : Except QueryError Int :=
  if !n.isInteger then .error ⟨.fractionalIndex n, offset⟩
  else if n.isMinusZero then .error ⟨.minusZeroIndex, offset⟩
  else if -maxIndex ≤ n.integer ∧ n.integer ≤ maxIndex then .ok n.integer
  else .error ⟨.indexOutOfRange n, offset⟩

/-- A number in a filter. Integers of 64 bits are kept exactly. -/
def literalNumber (offset : Nat) (n : Numeral) : Except QueryError Number :=
  match n.value? (-2 ^ 63) (2 ^ 63 - 1) with
  | some v => .ok v
  | none => .error ⟨.literalOutOfRange n, offset⟩

def optionalIndex (ts : List Token) : Part (Option Int) (ts.length + 1) :=
  match ts with
  | ⟨.number n, o⟩ :: rest => do
    let i ← index o n
    return .of (some i) rest
  | ts => .ok (.of none ts)

/-- A slice behind its first colon. -/
def sliceTail (start : Option Int) (ts : List Token) : Part Selector (ts.length + 1) := do
  let stop ← optionalIndex ts
  match h : stop.rest with
  | ⟨.colon, _⟩ :: rest =>
    let step ← optionalIndex rest
    return .of (.slice start stop.value step.value) step.rest
  | _ => return .of (.slice start stop.value none) stop.rest

/-- A member after dots. -/
def shorthand (g : Grammar) : Reader Selector
  | ⟨.name s, _⟩ :: rest => .ok (.of (.name s) rest)
  | ⟨.wildcard, _⟩ :: rest => .ok (.of .wildcard rest)
  | ts => g.unexpected .memberName ts

def selector (g : Grammar) (nested : Option (Reader Expr)) : Reader Selector
  | ⟨.string s, _⟩ :: rest => .ok (.of (.name s) rest)
  | ⟨.wildcard, _⟩ :: rest => .ok (.of .wildcard rest)
  | ⟨.number n, o⟩ :: ⟨.colon, _⟩ :: rest => do
    let start ← index o n
    let slice ← sliceTail (some start) rest
    return .of slice.value slice.rest
  | ⟨.number n, o⟩ :: rest => do
    let i ← index o n
    return .of (.index i) rest
  | ⟨.colon, _⟩ :: rest => do
    let slice ← sliceTail none rest
    return .of slice.value slice.rest
  | ⟨.question, o⟩ :: rest => do
    let read ← g.enter nested o
    let e ← read rest
    let test ← typed (g.offset rest) e.value.asTest
    return .of (.filter test) e.rest
  | ts => g.unexpected .selector ts

/-- Selectors behind an opening bracket, and the closing one. -/
def selectors (g : Grammar) (nested : Option (Reader Expr)) (ts : List Token) :
    Part (List Selector) ts.length := do
  let first ← g.selector nested ts
  match h : first.rest with
  | ⟨.comma, _⟩ :: rest =>
    let others ← g.selectors nested rest
    return .of (first.value :: others.value) others.rest
  | ⟨.closeBracket, _⟩ :: rest => return .of [first.value] rest
  | rest => g.unexpected .commaOrBracket rest
  termination_by ts.length
  decreasing_by all_goals grind

/-- The segments up to a token that starts none. -/
def segments (g : Grammar) (nested : Option (Reader Expr)) (ts : List Token) :
    Part (List Segment) (ts.length + 1) :=
  match ts with
  | ⟨.dot, _⟩ :: rest => do
    let s ← g.shorthand rest
    let others ← g.segments nested s.rest
    return .of (.child [s.value] :: others.value) others.rest
  | ⟨.doubleDot, _⟩ :: ⟨.openBracket, _⟩ :: rest => do
    let ss ← g.selectors nested rest
    let others ← g.segments nested ss.rest
    return .of (.descendant ss.value :: others.value) others.rest
  | ⟨.doubleDot, _⟩ :: rest => do
    let s ← g.shorthand rest
    let others ← g.segments nested s.rest
    return .of (.descendant [s.value] :: others.value) others.rest
  | ⟨.openBracket, _⟩ :: rest => do
    let ss ← g.selectors nested rest
    let others ← g.segments nested ss.rest
    return .of (.child ss.value :: others.value) others.rest
  | ts => .ok (.of [] ts)
  termination_by ts.length
  decreasing_by all_goals grind

/-- Arguments, each with the place where it starts, and the closing parenthesis. -/
def arguments (g : Grammar) (read : Reader Expr) (ts : List Token) :
    Part (List (Expr × Nat)) ts.length := do
  let first ← read ts
  match h : first.rest with
  | ⟨.comma, _⟩ :: rest =>
    let others ← g.arguments read rest
    return .of ((first.value, g.offset ts) :: others.value) others.rest
  | ⟨.closeParen, _⟩ :: rest =>
    return .of [(first.value, g.offset ts)] rest
  | rest => g.unexpected .commaOrParen rest
  termination_by ts.length
  decreasing_by all_goals grind

def optionalArguments (g : Grammar) (read : Reader Expr) : Reader (List (Expr × Nat))
  | ⟨.closeParen, _⟩ :: rest => .ok (.of [] rest)
  | ts => g.arguments read ts

/-- The arguments in the forms that the parameters need, checked from the left. -/
def typedArguments (function : String) (position : Nat) :
    List ExprType → List (Expr × Nat) → Except QueryError (List Expr)
  | param :: params, (e, o) :: rest => do
    let arg ← typed o (e.asArgument function position param)
    let args ← typedArguments function (position + 1) params rest
    return arg :: args
  | _, _ => .ok []

/-- A call behind the name of its function, which stands at `o`. -/
def call (g : Grammar) (nested : Option (Reader Expr)) (name : String) (o : Nat)
    (ts : List Token) : Part Expr (ts.length + 1) :=
  match g.registry.lookup name with
  | none => .error ⟨.unknownFunction name, o⟩
  | some f =>
    match ts with
    | ⟨.openParen, _⟩ :: rest => do
      let read ← g.enter nested o
      let given ← g.optionalArguments read rest
      if f.params.length ≠ given.value.length then
        .error ⟨.type (.argumentCount name f.params.length given.value.length), o⟩
      else
        let args ← typedArguments name 1 f.params given.value
        return .of (.call f args) given.rest
    | ts => g.unexpected .openParen ts

/-- A literal, a query or a call. Where it stands decides whether it is allowed. -/
def operand (g : Grammar) (nested : Option (Reader Expr)) : Reader Expr
  | ⟨.string s, _⟩ :: rest => .ok (.of (.literal (.string s)) rest)
  | ⟨.number n, o⟩ :: rest => do
    let v ← literalNumber o n
    return .of (.literal (.number v)) rest
  | ⟨.bool b, _⟩ :: rest => .ok (.of (.literal (.bool b)) rest)
  | ⟨.null, _⟩ :: rest => .ok (.of (.literal .null) rest)
  | ⟨.root, _⟩ :: rest => do
    let ss ← g.segments nested rest
    return .of (.query .root ss.value) ss.rest
  | ⟨.current, _⟩ :: rest => do
    let ss ← g.segments nested rest
    return .of (.query .current ss.value) ss.rest
  | ⟨.function name, o⟩ :: rest => do
    let e ← g.call nested name o rest
    return .of e.value e.rest
  | ts => g.unexpected .operand ts

/-- An expression in parentheses, behind the opening one, which stands at `o`. -/
def paren (g : Grammar) (nested : Option (Reader Expr)) (o : Nat) (ts : List Token) :
    Part Expr ts.length := do
  let read ← g.enter nested o
  let e ← read ts
  let test ← typed (g.offset ts) e.value.asTest
  match h : e.rest with
  | ⟨.closeParen, _⟩ :: rest => return .of (.paren test) rest
  | rest => g.unexpected .closeParen rest

/-- A comparison, or an operand alone. Both operands are read before either is checked. -/
def comparison (g : Grammar) (nested : Option (Reader Expr)) (ts : List Token) :
    Part Expr ts.length := do
  let left ← g.operand nested ts
  match h : left.rest with
  | ⟨.comparison op, _⟩ :: rest =>
    let right ← g.operand nested rest
    if let some fault := left.value.comparisonFault? then
      .error ⟨.type fault, g.offset ts⟩
    else if let some fault := right.value.comparisonFault? then
      .error ⟨.type fault, g.offset rest⟩
    else
      return .of (.compare op left.value right.value) right.rest
  | _ => return left

/-- The operand of a negation without parentheses. -/
def negated (g : Grammar) (nested : Option (Reader Expr)) (ts : List Token) :
    Part Expr ts.length := do
  let e ← g.operand nested ts
  if let .literal _ := e.value then .error ⟨.type .negatedLiteral, g.offset ts⟩
  else
    let test ← typed (g.offset ts) e.value.asTest
    return .of (.not test) e.rest

/-- What logical operators join. -/
def basic (g : Grammar) (nested : Option (Reader Expr)) : Reader Expr
  | ⟨.not, _⟩ :: ⟨.openParen, o⟩ :: rest => do
    let e ← g.paren nested o rest
    return .of (.not e.value) e.rest
  | ⟨.not, _⟩ :: rest => do
    let e ← g.negated nested rest
    return .of e.value e.rest
  | ⟨.openParen, o⟩ :: rest => do
    let e ← g.paren nested o rest
    return .of e.value e.rest
  | ts => g.comparison nested ts

/-- The operands behind the first, joined to it from the left. -/
def chainTail (g : Grammar) (op : LogicalOp) (read : Reader Expr) (left : Expr)
    (ts : List Token) : Part Expr (ts.length + 1) :=
  match ts with
  | ⟨.logical op', o⟩ :: rest =>
    if op' = op then do
      let e ← read rest
      let right ← typed (g.offset rest) e.value.asTest
      let all ← g.chainTail op read (.logical op left right) e.rest
      return .of all.value all.rest
    else .ok (.of left (⟨.logical op', o⟩ :: rest))
  | ts => .ok (.of left ts)
  termination_by ts.length
  decreasing_by all_goals grind

/-- Operands joined by one operator. A single one need not be a test. -/
def chain (g : Grammar) (op : LogicalOp) (read : Reader Expr) (ts : List Token) :
    Part Expr ts.length := do
  let first ← read ts
  match first.rest with
  | ⟨.logical op', _⟩ :: _ =>
    if op' = op then
      let left ← typed (g.offset ts) first.value.asTest
      let all ← g.chainTail op read left first.rest
      return .of all.value all.rest
    else return first
  | _ => return first

/-- An expression inside which `depth` more levels may be opened. -/
def expr (g : Grammar) (depth : Nat) (ts : List Token) : Part Expr ts.length :=
  let nested : Option (Reader Expr) :=
    match depth with
    | 0 => none
    | below + 1 => some (fun ts => g.expr below ts)
  g.chain .or (g.chain .and (g.basic nested)) ts

/-- The reader of what is nested where `depth` levels may be opened. -/
def nested (g : Grammar) : Nat → Option (Reader Expr)
  | 0 => none
  | below + 1 => some (g.expr below)

/-- A whole query. -/
def query (g : Grammar) (ts : List Token) : Except QueryError Query :=
  match ts with
  | ⟨.root, _⟩ :: rest => do
    let ss ← g.segments (g.nested g.maxDepth) rest
    match ss.rest with
    | [] => return ⟨ss.value⟩
    | rest => g.unexpected .segmentOrEnd rest
  | ts => g.unexpected .rootIdentifier ts

end Grammar
end JsonQuery
