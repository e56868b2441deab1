import JsonQuery.Binary64.Basic

namespace JsonQuery

/-- The numbers `digits * 10 ^ exponent`. -/
structure Decimal where
  negative : Bool
  digits : Nat
  exponent : Int
  deriving DecidableEq

namespace Decimal

/-- The nearest binary64 number, or `none` if that is not finite. A decimal whose size is plain
from its number of digits is settled without its power of ten. -/
def toBinary64? (d : Decimal) : Option Binary64 :=
  let places : Int := (Nat.toDigits 10 d.digits).length
  if d.digits = 0 ∨ d.exponent + places ≤ -324 then some (.zero d.negative)
  else if 310 < d.exponent + places then none
  else if 0 ≤ d.exponent then
    Binary64.ofRatio? d.negative (d.digits * 10 ^ d.exponent.toNat) 1
  else Binary64.ofRatio? d.negative d.digits (10 ^ (-d.exponent).toNat)

end Decimal

namespace Binary64

/-- The positive reals that round to a number, in units of `2 ^ -1076`. The ends belong to it if
the significand is even. Below a power of two the numbers lie closer together. -/
structure Interval where
  low : Nat
  value : Nat
  high : Nat
  closed : Bool

def interval (x : Binary64) : Interval :=
  let m := x.significand
  let below := if m = 2 ^ 52 ∧ 0 < x.unit then 1 else 2
  ⟨(4 * m - below) * 2 ^ x.unit, 4 * m * 2 ^ x.unit, (4 * m + 2) * 2 ^ x.unit, m % 2 == 0⟩

/-- Whether the interval holds the quotient. -/
def Interval.holds (i : Interval) (n d : Nat) : Bool :=
  if i.closed then i.low * d ≤ n ∧ n ≤ i.high * d else i.low * d < n ∧ n < i.high * d

/-- The multiple of `10 ^ exponent` in the interval that is nearest its value, an exact half going
to the even one. Only the two neighbours of the value need a look. -/
def Interval.onGrid? (i : Interval) (exponent : Int) : Option Nat :=
  let grid := 10 ^ exponent.toNat * 2 ^ 1076
  let scale := 10 ^ (-exponent).toNat
  let floor := i.value * scale / grid
  let inside (k : Nat) := i.holds (k * grid) scale
  if inside floor then
    if inside (floor + 1) then some (roundHalfEven (i.value * scale) grid) else some floor
  else if inside (floor + 1) then some (floor + 1) else none

/-- The hit of the coarsest grid, from `10 ^ (steps - 1075)` down. -/
def Interval.coarsest (i : Interval) : Nat → Nat × Int
  | 0 => (0, 0)
  | steps + 1 =>
    let exponent : Int := (steps : Int) - 1074
    match i.onGrid? exponent with
    | some k => (k, exponent)
    | none => i.coarsest steps

/-- The decimal with the fewest digits among those that read back to the number, and of these the
nearest. Every number lies on the grid `10 ^ -1074`, so the search ends with a hit. -/
def shortest (x : Binary64) : Decimal :=
  if x.magnitude = 0 then ⟨x.negative, 0, 0⟩
  else
    let hit := x.interval.coarsest 1384
    ⟨x.negative, hit.1, hit.2⟩

/-- Positional between `1e-5` and `1e16`, scientific beyond; always with a point or an exponent,
so that the text is not taken for an integer. -/
def text (x : Binary64) : String :=
  let sign := if x.negative then "-" else ""
  if x.magnitude = 0 then sign ++ "0.0"
  else
    let d := x.shortest
    let digits := Nat.toDigits 10 d.digits
    let point : Int := digits.length + d.exponent
    let zeros (n : Int) := List.replicate n.toNat '0'
    let body :=
      if 0 < point ∧ point ≤ 16 then
        let whole := digits.take point.toNat ++ zeros d.exponent
        let fraction := digits.drop point.toNat
        whole ++ ['.'] ++ (if fraction.isEmpty then ['0'] else fraction)
      else if -5 < point ∧ point ≤ 0 then ['0', '.'] ++ zeros (-point) ++ digits
      else
        let tail := digits.drop 1
        let mantissa := digits.take 1 ++ (if tail.isEmpty then [] else '.' :: tail)
        let mark := if 0 < point then '+' else '-'
        mantissa ++ ['e', mark] ++ Nat.toDigits 10 (point - 1).natAbs
    sign ++ String.ofList body

end Binary64
end JsonQuery
