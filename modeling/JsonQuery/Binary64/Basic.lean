/- Powers with natural exponents are those of the core library, also where another brings its own. -/
attribute [instance (high + 1), default_instance (high + 1)] instPowNat

namespace JsonQuery

/-- A finite binary64 number: its sign, and the word that holds the exponent field above the
52 bits of fraction. -/
structure Binary64 where
  negative : Bool
  magnitude : Nat
  finite : magnitude < 0x7FF0000000000000
  deriving DecidableEq

namespace Binary64

/-- The exponent of the last bit of the significand, counted from the least one, `2 ^ -1074`. -/
def unit (x : Binary64) : Nat := x.magnitude / 2 ^ 52 - 1

/-- The significand with its hidden bit, which the word of a subnormal number lacks. -/
def significand (x : Binary64) : Nat := x.magnitude - x.unit * 2 ^ 52

/-- The number as a multiple of `2 ^ -1074`. Every finite number is one, so the order and the
equality of numbers are those of these integers; both zeros give `0`. -/
def scaled (x : Binary64) : Int :=
  let size : Int := x.significand * 2 ^ x.unit
  if x.negative then -size else size

/-- The signed zero. -/
def zero (negative : Bool) : Binary64 := ⟨negative, 0, by decide⟩

/-- The quotient rounded to the nearest integer, a half to the even neighbour. -/
def roundHalfEven (n d : Nat) : Nat :=
  match compare (2 * (n % d)) d with
  | .lt => n / d
  | .gt => n / d + 1
  | .eq => n / d + (n / d) % 2

/-- The least unit exponent in which the quotient needs no more than 53 bits. -/
def unitOf (n d : Nat) : Nat := (n / d).log2 - 52

/-- The quotient in that unit, rounded. It may round up to `2 ^ 53`, which the next unit would
write as `2 ^ 52`; `unitOf n d * 2 ^ 52 + significandOf n d` is the right word in either case. -/
def significandOf (n d : Nat) : Nat := roundHalfEven n (d * 2 ^ unitOf n d)

/-- The number nearest `num / den`, or `none` if that is beyond the largest finite one. -/
def ofRatio? (negative : Bool) (num den : Nat) : Option Binary64 :=
  let n := num * 2 ^ 1074
  let word := unitOf n den * 2 ^ 52 + significandOf n den
  if h : word < 0x7FF0000000000000 then some ⟨negative, word, h⟩ else none

/-- An integer rounded to 53 bits, as a multiple of `2 ^ -1074`. -/
def scaledOfInt (i : Int) : Int :=
  let n := i.natAbs * 2 ^ 1074
  let size : Int := significandOf n 1 * 2 ^ unitOf n 1
  if i < 0 then -size else size

end Binary64
end JsonQuery
