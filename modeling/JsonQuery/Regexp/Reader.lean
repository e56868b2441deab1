import JsonQuery.Regexp.Basic
import JsonQuery.Text.Read

namespace JsonQuery
namespace Regexp

/-- Why a text is no I-Regexp. -/
inductive Cause where
  | unexpected (c : Char)
  | unbalanced
  | trailingBackslash
  | unsupportedEscape (c : Char) (inClass : Bool)
  | missingBrace
  | unterminatedProperty
  | unknownProperty (name : List Char)
  | propertyInRange
  | missingDigits
  | unterminatedQuantifier
  | unterminatedClass
  | emptyClass
  | unexpectedInClass (c : Char)
  deriving DecidableEq

namespace Cause

def message : Cause → String
  | .unexpected c => "unexpected '" ++ String.singleton c ++ "'"
  | .unbalanced => "unbalanced parenthesis"
  | .trailingBackslash => "trailing backslash"
  | .unsupportedEscape c inClass =>
    "unsupported escape '\\" ++ String.singleton c ++ "'" ++
      (if inClass then " in character class" else "")
  | .missingBrace => "expected '\x7b' after \\p"
  | .unterminatedProperty => "unterminated character property"
  | .unknownProperty name => "unknown character category '" ++ String.ofList name ++ "'"
  | .propertyInRange => "character property cannot bound a range"
  | .missingDigits => "expected digits in range quantifier"
  | .unterminatedQuantifier => "unterminated range quantifier"
  | .unterminatedClass => "unterminated character class"
  | .emptyClass => "empty character class"
  | .unexpectedInClass c => "unexpected '" ++ String.singleton c ++ "' in character class"

end Cause

/-- A cause, and how many characters were still to be read when it arose. -/
structure Fault where
  cause : Cause
  left : Nat

def fail {α : Type} (cause : Cause) (rest : List Char) : Except Fault α :=
  .error ⟨cause, rest.length⟩

/-- The property named in braces after `\p` or `\P`. -/
def readProperty (cs : List Char) : Except Fault (Read Property Char cs.length) :=
  match cs with
  | '\x7b' :: rest =>
    let name := rest.takeWhile (· != '\x7d')
    match h : rest.dropWhile (· != '\x7d') with
    | [] => fail .unterminatedProperty []
    | _ :: rest' =>
      match Property.ofName? name with
      | some p => .ok (.of p rest')
      | none => fail (.unknownProperty name) rest'
  | _ => fail .missingBrace cs

def escapable : List Char :=
  ['(', ')', '*', '+', '-', '.', '?', '[', '\\', ']', '^', '\x7b', '|', '\x7d']

/-- The symbol after a backslash. -/
def readEscape (inClass : Bool) (cs : List Char) : Except Fault (Read Symbol Char cs.length) :=
  match cs with
  | [] => fail .trailingBackslash []
  | 'n' :: rest => .ok (.of .lineFeed rest)
  | 'r' :: rest => .ok (.of .carriageReturn rest)
  | 't' :: rest => .ok (.of .tab rest)
  | c :: rest =>
    if c ∈ escapable then .ok (.of (.plain c) rest)
    else fail (.unsupportedEscape c inClass) rest

/-- A character of a class that can bound a range. -/
def readClassSymbol (cs : List Char) : Except Fault (Read Symbol Char cs.length) :=
  match cs with
  | [] => fail .unterminatedClass []
  | '\\' :: rest =>
    if rest.head? = some 'p' ∨ rest.head? = some 'P' then fail .propertyInRange rest
    else do
      let s ← readEscape true rest
      return .of s.value s.rest
  | c :: rest =>
    if c = '[' ∨ c = ']' ∨ c = '-' then fail (.unexpectedInClass c) cs
    else .ok (.of (.plain c) rest)

/-- A character, or a range if a hyphen follows that is not the last of the class. -/
def readClassRange (cs : List Char) : Except Fault (Read ClassItem Char cs.length) := do
  let low ← readClassSymbol cs
  match h : low.rest with
  | '-' :: rest =>
    if rest.head? = some ']' then return .of (.single low.value) low.rest
    else
      let high ← readClassSymbol rest
      return .of (.range low.value high.value) high.rest
  | _ => return .of (.single low.value) low.rest

/-- The items of a class up to its bracket, after those read so far. A hyphen stands for itself
only as the first item or the last. -/
def readItems (done : List ClassItem) (cs : List Char) :
    Except Fault (Read (List ClassItem) Char cs.length) :=
  match cs with
  | [] => fail .unterminatedClass []
  | ']' :: rest =>
    if done.isEmpty then fail .emptyClass cs else .ok (.of done rest)
  | '-' :: ']' :: rest =>
    if done.isEmpty then fail (.unexpectedInClass '-') cs
    else .ok (.of (done ++ [.single (.plain '-')]) rest)
  | '-' :: _ => fail (.unexpectedInClass '-') cs
  | '\\' :: 'p' :: rest => do
    let p ← readProperty rest
    let items ← readItems (done ++ [.property false p.value]) p.rest
    return .of items.value items.rest
  | '\\' :: 'P' :: rest => do
    let p ← readProperty rest
    let items ← readItems (done ++ [.property true p.value]) p.rest
    return .of items.value items.rest
  | c :: rest => do
    let item ← readClassRange (c :: rest)
    let items ← readItems (done ++ [item.value]) item.rest
    return .of items.value items.rest
  termination_by cs.length
  decreasing_by all_goals grind

/-- A class after its opening bracket and the mark of negation. -/
def readClassBody (negated : Bool) (cs : List Char) :
    Except Fault (Read Atom Char (cs.length + 1)) :=
  match cs with
  | '-' :: rest => do
    let items ← readItems [.single (.plain '-')] rest
    return .of (.bracket negated items.value) items.rest
  | cs => do
    let items ← readItems [] cs
    return .of (.bracket negated items.value) items.rest

def readClass (cs : List Char) : Except Fault (Read Atom Char (cs.length + 1)) :=
  match cs with
  | '^' :: rest => do
    let body ← readClassBody true rest
    return .of body.value body.rest
  | cs => readClassBody false cs

/-- The bounds after an opening brace. -/
def readBounds (cs : List Char) : Except Fault (Read Quantifier Char (cs.length + 1)) :=
  let low := cs.takeWhile Char.isDigit
  if low.isEmpty then fail .missingDigits cs
  else
    match h : cs.dropWhile Char.isDigit with
    | '\x7d' :: rest => .ok (.of (.exactly low) rest)
    | ',' :: rest =>
      let high := rest.takeWhile Char.isDigit
      match h' : rest.dropWhile Char.isDigit with
      | '\x7d' :: rest' =>
        .ok (.of (if high.isEmpty then .atLeast low else .between low high) rest')
      | rest' => fail .unterminatedQuantifier rest'
    | rest => fail .unterminatedQuantifier rest

/-- The quantifier of the atom before the text. -/
def readQuantifier (cs : List Char) : Except Fault (Read Quantifier Char (cs.length + 1)) :=
  match cs with
  | '*' :: rest => .ok (.of .star rest)
  | '+' :: rest => .ok (.of .plus rest)
  | '?' :: rest => .ok (.of .optional rest)
  | '\x7b' :: rest => do
    let q ← readBounds rest
    return .of q.value q.rest
  | rest => .ok (.of .once rest)

mutual

def readChoice (cs : List Char) : Except Fault (Read Regexp Char (cs.length + 1)) := do
  let branch ← readBranch cs
  match h : branch.rest with
  | '|' :: rest =>
    let others ← readChoice rest
    return .of (.alt branch.value others.value) others.rest
  | _ => return .of (.last branch.value) branch.rest
  termination_by (cs.length, 2)
  decreasing_by all_goals grind

def readBranch (cs : List Char) : Except Fault (Read Branch Char (cs.length + 1)) :=
  match cs with
  | [] => .ok (.of .done [])
  | c :: rest =>
    if c = '|' ∨ c = ')' then .ok (.of .done (c :: rest))
    else do
      let atom ← readAtom c rest
      let quantifier ← readQuantifier atom.rest
      let others ← readBranch quantifier.rest
      return .of (.piece atom.value quantifier.value others.value) others.rest
  termination_by (cs.length, 1)
  decreasing_by all_goals grind

/-- The atom that starts with the character `c`. -/
def readAtom (c : Char) (cs : List Char) : Except Fault (Read Atom Char (cs.length + 1)) :=
  if c = '(' then do
    let inner ← readChoice cs
    match h : inner.rest with
    | ')' :: rest => return .of (.group inner.value) rest
    | rest => fail .unbalanced rest
  else if c = '.' then .ok (.of .dot cs)
  else if c = '[' then readClass cs
  else if c = '\\' then
    match cs with
    | 'p' :: rest => do
      let p ← readProperty rest
      return .of (.property false p.value) p.rest
    | 'P' :: rest => do
      let p ← readProperty rest
      return .of (.property true p.value) p.rest
    | rest => do
      let s ← readEscape false rest
      return .of (.symbol s.value) s.rest
  else if c ∈ [')', '*', '+', '?', '\x7b', '\x7d', ']', '|'] then fail (.unexpected c) (c :: cs)
  else .ok (.of (.symbol (.plain c)) cs)
  termination_by (cs.length + 1, 0)
  decreasing_by all_goals grind

end

/-- An error in a pattern, at a position that counts characters. -/
structure SyntaxError where
  cause : Cause
  position : Nat

namespace SyntaxError

def message (e : SyntaxError) : String := e.cause.message

def text (e : SyntaxError) : String :=
  "invalid I-Regexp at character " ++ toString e.position ++ ": " ++ e.message

end SyntaxError

def readAll (cs : List Char) : Except Fault Regexp := do
  let r ← readChoice cs
  match r.rest with
  | [] => return r.value
  | c :: _ => fail (.unexpected c) r.rest

/-- The expression that a pattern spells. -/
def ofPattern (pattern : String) : Except SyntaxError Regexp :=
  let cs := pattern.toList
  (readAll cs).mapError (fun f => ⟨f.cause, cs.length - f.left⟩)

end Regexp
end JsonQuery
