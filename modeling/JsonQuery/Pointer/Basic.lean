import JsonQuery.Json.Numeral
import JsonQuery.Location

namespace JsonQuery

/-- A JSON Pointer: member names and indices, unescaped. -/
structure Pointer where
  parts : List String
  deriving DecidableEq

namespace Pointer

def root : Pointer := ⟨[]⟩

def isRoot (p : Pointer) : Bool := p.parts.isEmpty

def escapeChar (c : Char) : List Char :=
  if c = '~' then ['~', '0'] else if c = '/' then ['~', '1'] else [c]

def partChars (part : String) : List Char := '/' :: part.toList.flatMap escapeChar

def chars (p : Pointer) : List Char := p.parts.flatMap partChars

def text (p : Pointer) : String := String.ofList p.chars

/-- `none` if a tilde starts no escape. -/
def unescape : List Char → Option (List Char)
  | [] => some []
  | '~' :: '0' :: cs => (unescape cs).map ('~' :: ·)
  | '~' :: '1' :: cs => (unescape cs).map ('/' :: ·)
  | c :: cs => if c = '~' then none else (unescape cs).map (c :: ·)

/-- The parts between slashes, one more than there are slashes. -/
def splitSlashes : List Char → List (List Char)
  | [] => [[]]
  | c :: cs =>
    if c = '/' then [] :: splitSlashes cs else (splitSlashes cs).modifyHead (c :: ·)

def ofLocation (l : Location) : Pointer :=
  ⟨l.map (fun
    | .name name => name
    | .index i => String.ofList (Nat.toDigits 10 i))⟩

def parent? (p : Pointer) : Option Pointer :=
  if p.parts.isEmpty then none else some ⟨p.parts.dropLast⟩

def join (p : Pointer) (part : String) : Pointer := ⟨p.parts ++ [part]⟩

/-- Whether another pointer leads to something that this one leads into. -/
def isBelow (p other : Pointer) : Bool :=
  other.parts.length < p.parts.length && other.parts.isPrefixOf p.parts

/-- The index that a part spells: `0`, or digits that do not start with it, below `2 ^ 64`. -/
def index? (part : String) : Option Nat :=
  let ds := part.toList
  let n := Numeral.natOfDigits ds
  if ds.all Char.isDigit && (ds == ['0'] || (ds.head?.any (· != '0'))) && n < 2 ^ 64 then some n
  else none

/-- The child of a value that a part names. -/
def child? (v : Json) (part : String) : Option Json :=
  match v with
  | .object members => members.lookup part
  | .array items => (index? part).bind (fun i => items[i]?)
  | _ => none

def descend? (v : Json) : List String → Option Json
  | [] => some v
  | part :: parts => (child? v part).bind (fun w => descend? w parts)

/-- The value to which a pointer leads. -/
def resolve? (p : Pointer) (document : Json) : Option Json := descend? document p.parts

end Pointer

/-- Why a text starts with no origin and offset. -/
inductive RelativeFault where
  | empty
  | leadingZero
  | badNumber
  | zeroOffset
  | largeOffset
  deriving DecidableEq

namespace RelativeFault

def message : RelativeFault → String
  | .empty => "relative pointer cannot be empty"
  | .leadingZero => "unexpected leading zero"
  | .badNumber => "expected positive int or zero"
  | .zeroOffset => "index offset can't be zero"
  | .largeOffset => "index offset is too large"

end RelativeFault

/-- Why a pointer cannot be read or followed. -/
inductive PointerError where
  | missingSlash
  | badEscape (part : String)
  | relativeSyntax (text : String) (fault : RelativeFault)
  | originOutOfRange (origin depth : Nat)
  | indexOutOfRange (index : Int)
  | keyOfRoot
  | unresolved (pointer : Pointer)
  deriving DecidableEq

namespace PointerError

def message : PointerError → String
  | .missingSlash => "JSON Pointer must be empty or start with '/'"
  | .badEscape part => "invalid escape sequence in JSON Pointer component '" ++ part ++ "'"
  | .relativeSyntax text fault =>
    "invalid relative JSON Pointer '" ++ text ++ "': " ++ fault.message
  | .originOutOfRange origin depth =>
    "origin (" ++ toString origin ++ ") exceeds root (" ++ toString depth ++ ")"
  | .indexOutOfRange index => "index offset out of range: " ++ toString index
  | .keyOfRoot => "cannot get the key of the root value"
  | .unresolved pointer => "'" ++ pointer.text ++ "' does not resolve against the document"

end PointerError

namespace Pointer

def unescapeParts : List (List Char) → Except PointerError (List String)
  | [] => .ok []
  | part :: parts =>
    match unescape part with
    | some cs => (unescapeParts parts).map (String.ofList cs :: ·)
    | none => .error (.badEscape (String.ofList part))

def ofChars : List Char → Except PointerError Pointer
  | [] => .ok root
  | c :: cs =>
    if c = '/' then (unescapeParts (splitSlashes cs)).map Pointer.mk else .error .missingSlash

/-- The pointer that a text spells. The error names the first part that is not well escaped. -/
def ofText (text : String) : Except PointerError Pointer := ofChars text.toList

/-- The parent's value and the value itself, which may be missing if only the last part leads
nowhere. The root has no parent. -/
def resolveParent (p : Pointer) (document : Json) :
    Except PointerError (Option Json × Option Json) :=
  match p.parts.getLast? with
  | none => .ok (none, some document)
  | some part =>
    match descend? document p.parts.dropLast with
    | none => .error (.unresolved p)
    | some parent => .ok (some parent, child? parent part)

end Pointer
end JsonQuery
