import JsonQuery.Binary64.Shortest
import JsonQuery.Json.Basic

namespace JsonQuery

/-- A number as it is written: the digits of its parts, and the mark and sign of its exponent. -/
structure Numeral where
  negative : Bool
  whole : List Char
  fraction : Option (List Char)
  exponent : Option (Char × Option Char × List Char)
  deriving DecidableEq

namespace Numeral

def chars (n : Numeral) : List Char :=
  (if n.negative then ['-'] else []) ++ n.whole ++
    (match n.fraction with
      | some ds => '.' :: ds
      | none => []) ++
    (match n.exponent with
      | some (mark, sign, ds) => mark :: sign.toList ++ ds
      | none => [])

def text (n : Numeral) : String := String.ofList n.chars

/-- What a number lacks, or has too much of. -/
inductive Fault where
  | missingDigit
  | leadingZero
  | missingFraction
  | missingExponent
  deriving DecidableEq

def digits (cs : List Char) : List Char := cs.takeWhile Char.isDigit

def afterDigits (cs : List Char) : List Char := cs.dropWhile Char.isDigit

/-- `0`, or digits that do not start with it. -/
def scanWhole (cs : List Char) : Except Fault (List Char × List Char) :=
  match digits cs, afterDigits cs with
  | [], _ => .error .missingDigit
  | ['0'], rest => .ok (['0'], rest)
  | '0' :: _, _ => .error .leadingZero
  | ds, rest => .ok (ds, rest)

def scanFraction : List Char → Except Fault (Option (List Char) × List Char)
  | '.' :: cs =>
    if (digits cs).isEmpty then .error .missingFraction
    else .ok (some (digits cs), afterDigits cs)
  | cs => .ok (none, cs)

def scanSign : List Char → Option Char × List Char
  | '+' :: cs => (some '+', cs)
  | '-' :: cs => (some '-', cs)
  | cs => (none, cs)

def scanExponent : List Char → Except Fault (Option (Char × Option Char × List Char))
  | [] => .ok none
  | mark :: cs =>
    if mark = 'e' ∨ mark = 'E' then
      let (sign, cs) := scanSign cs
      if (digits cs).isEmpty then .error .missingExponent
      else .ok (some (mark, sign, digits cs))
    else .ok none

/-- The longest number at the front of a text. A part that is begun has to be finished. -/
def scan (cs : List Char) : Except Fault Numeral := do
  let negative := cs.head? == some '-'
  let (whole, rest) ← scanWhole (if negative then cs.drop 1 else cs)
  let (fraction, rest) ← scanFraction rest
  let exponent ← scanExponent rest
  return ⟨negative, whole, fraction, exponent⟩

def isInteger (n : Numeral) : Bool := n.fraction.isNone && n.exponent.isNone

def isMinusZero (n : Numeral) : Bool := n.isInteger && n.negative && n.whole == ['0']

def natOfDigits (ds : List Char) : Nat :=
  ds.foldl (fun n d => n * 10 + (d.toNat - '0'.toNat)) 0

/-- The signed whole part. -/
def integer (n : Numeral) : Int :=
  let size : Int := natOfDigits n.whole
  if n.negative then -size else size

def decimal (n : Numeral) : Decimal :=
  let fraction := n.fraction.getD []
  let power : Int := match n.exponent with
    | some (_, some '-', ds) => -natOfDigits ds
    | some (_, _, ds) => natOfDigits ds
    | none => 0
  ⟨n.negative, natOfDigits (n.whole ++ fraction), power - fraction.length⟩

/-- The value of a number. An integer between the bounds is kept exactly; all else, and minus
zero, becomes a float, and `none` if it is too large for one. -/
def value? (low high : Int) (n : Numeral) : Option Number :=
  if n.isInteger && !n.isMinusZero && low ≤ n.integer && n.integer ≤ high then
    some (.int n.integer)
  else n.decimal.toBinary64?.map .float

end Numeral
end JsonQuery
