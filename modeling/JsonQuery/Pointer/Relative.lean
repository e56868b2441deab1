import JsonQuery.Json.Writer
import JsonQuery.Pointer.Basic
import JsonQuery.Text.WhiteSpace

namespace JsonQuery
namespace RelativePointer

/-- What to read where the origin has been reached: what a pointer leads to from there, or the
name or index of the origin itself. -/
inductive Target where
  | pointer (tail : Pointer)
  | key
  deriving DecidableEq

end RelativePointer

/-- A way up from a location by `origin` levels, sideways in an array, and down again. -/
structure RelativePointer where
  origin : Nat
  offset : Int
  target : RelativePointer.Target
  deriving DecidableEq

namespace RelativePointer

def offsetChars (offset : Int) : List Char :=
  if 0 < offset then '+' :: intChars offset else if offset < 0 then intChars offset else []

def targetChars : Target → List Char
  | .pointer tail => tail.chars
  | .key => ['#']

def chars (r : RelativePointer) : List Char :=
  Nat.toDigits 10 r.origin ++ offsetChars r.offset ++ targetChars r.target

def text (r : RelativePointer) : String := String.ofList r.chars

/-- The number below `2 ^ 64` that digits spell. -/
def number (ds : List Char) : Except RelativeFault Nat :=
  if 1 < ds.length ∧ ds.head? = some '0' then .error .leadingZero
  else if ds.isEmpty ∨ 2 ^ 64 ≤ Numeral.natOfDigits ds then .error .badNumber
  else .ok (Numeral.natOfDigits ds)

/-- The offset at the front of a text, and the rest. -/
def scanOffset : List Char → Except RelativeFault (Int × List Char)
  | [] => .ok (0, [])
  | sign :: cs =>
    if sign = '+' ∨ sign = '-' then do
      let n ← number (Numeral.digits cs)
      if n = 0 then .error .zeroOffset
      else if 2 ^ 63 ≤ n then .error .largeOffset
      else return (if sign = '-' then -n else n, Numeral.afterDigits cs)
    else .ok (0, sign :: cs)

/-- Origin and offset, and the rest. -/
def scanStart (cs : List Char) : Except RelativeFault (Nat × Int × List Char) :=
  if cs.isEmpty then .error .empty
  else do
    let origin ← number (Numeral.digits cs)
    let (offset, rest) ← scanOffset (Numeral.afterDigits cs)
    return (origin, offset, rest)

/-- The relative pointer that a text spells. White space may stand at its ends and in front of
the target. -/
def ofText (text : String) : Except PointerError RelativePointer := do
  let (origin, offset, rest) ←
    (scanStart (trimmed text.toList)).mapError (PointerError.relativeSyntax text)
  let tail := trimmed rest
  if tail = ['#'] then return ⟨origin, offset, .key⟩
  else
    let p ← Pointer.ofChars tail
    return ⟨origin, offset, .pointer p⟩

/-- An index moved by an offset, in signed words of 64 bits. What these cannot hold becomes the
least of them, which is no index. -/
def shifted (index : Nat) (offset : Int) : Int :=
  if index < 2 ^ 63 ∧ index + offset < 2 ^ 63 then index + offset else -2 ^ 63

/-- Moves the last part, if it is an index. Any other part stays. -/
def shiftLast (offset : Int) (parts : List String) : Except PointerError (List String) :=
  match parts.getLast?.bind Pointer.index? with
  | none => .ok parts
  | some i =>
    if shifted i offset < 0 then .error (.indexOutOfRange (shifted i offset))
    else .ok (parts.dropLast ++ [String.ofList (intChars (shifted i offset))])

/-- Where a relative pointer leads from a location. For a key it is the place whose name or index
is asked for. -/
def applyTo (r : RelativePointer) (base : Pointer) : Except PointerError Pointer := do
  let depth := base.parts.length
  if depth < r.origin then .error (.originOutOfRange r.origin depth)
  else
    let kept := base.parts.take (depth - r.origin)
    let parts ← if r.offset = 0 then .ok kept else shiftLast r.offset kept
    match r.target with
    | .pointer tail => return ⟨parts ++ tail.parts⟩
    | .key => if parts.isEmpty then .error .keyOfRoot else return ⟨parts⟩

/-- The name or index of the value to which a pointer leads. -/
def readKey (p : Pointer) (document : Json) : Except PointerError Json := do
  let (parent, value) ← p.resolveParent document
  match parent, value, p.parts.getLast? with
  | some (.array _), some _, some part =>
    match Pointer.index? part with
    | some i => return .number (.int i)
    | none => .error (.unresolved p)
  | some _, some _, some part => return .string part
  | _, _, _ => .error (.unresolved p)

/-- What a relative pointer reads in a document, from a location in it. -/
def read (r : RelativePointer) (base : Pointer) (document : Json) : Except PointerError Json := do
  let p ← r.applyTo base
  match r.target with
  | .pointer _ =>
    match p.resolve? document with
    | some v => return v
    | none => .error (.unresolved p)
  | .key => readKey p document

end RelativePointer
end JsonQuery
