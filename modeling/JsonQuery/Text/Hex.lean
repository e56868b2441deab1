namespace JsonQuery
namespace Hex

/-- The value of a hexadecimal digit of either case. -/
def value? (c : Char) : Option Nat :=
  if '0' ≤ c ∧ c ≤ '9' then some (c.toNat - '0'.toNat)
  else if 'a' ≤ c ∧ c ≤ 'f' then some (c.toNat - 'a'.toNat + 10)
  else if 'A' ≤ c ∧ c ≤ 'F' then some (c.toNat - 'A'.toNat + 10)
  else none

/-- The number that the first four characters spell. -/
def four? : List Char → Option Nat
  | a :: b :: c :: d :: _ => do
    let a ← value? a
    let b ← value? b
    let c ← value? c
    let d ← value? d
    return ((a * 16 + b) * 16 + c) * 16 + d
  | _ => none

/-- The last four digits, in lower case. -/
def four (n : Nat) : List Char :=
  [n / 4096 % 16, n / 256 % 16, n / 16 % 16, n % 16].map Nat.digitChar

end Hex
end JsonQuery
