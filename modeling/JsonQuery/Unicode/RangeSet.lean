namespace JsonQuery
namespace Unicode

/-- A set of code points as ranges with both ends, in order and apart from one another. -/
abbrev RangeSet := List (Nat × Nat)

namespace RangeSet

def contains (c : Nat) : RangeSet → Bool
  | [] => false
  | (low, high) :: rs => low ≤ c && (c ≤ high || contains c rs)

/-- A range and ranges that start no earlier, those that touch joined. -/
def joinFrom (low high : Nat) : List (Nat × Nat) → RangeSet
  | [] => [(low, high)]
  | (low', high') :: rs =>
    if low' ≤ high + 1 then joinFrom low (max high high') rs
    else (low, high) :: joinFrom low' high' rs

/-- The union of ranges in any order. -/
def ofRanges (rs : List (Nat × Nat)) : RangeSet :=
  match rs.mergeSort (fun r s => r.1 ≤ s.1) with
  | [] => []
  | (low, high) :: rs => joinFrom low high rs

/-- What lies between the ranges, from a code point on. -/
def gapsFrom (start : Nat) : RangeSet → RangeSet
  | [] => if start ≤ 0x10FFFF then [(start, 0x10FFFF)] else []
  | (low, high) :: rs =>
    if start < low then (start, low - 1) :: gapsFrom (high + 1) rs else gapsFrom (high + 1) rs

/-- A range without surrogates at its ends. -/
def scalars? (r : Nat × Nat) : Option (Nat × Nat) :=
  let isSurrogate (n : Nat) := 0xD800 ≤ n && n ≤ 0xDFFF
  let low := if isSurrogate r.1 then 0xE000 else r.1
  let high := if isSurrogate r.2 then 0xD7FF else r.2
  if low ≤ high then some (low, high) else none

/-- The characters outside a set. A range may run over the surrogates, which are none. -/
def complement (rs : RangeSet) : RangeSet := (gapsFrom 0 rs).filterMap scalars?

end RangeSet
end Unicode
end JsonQuery
