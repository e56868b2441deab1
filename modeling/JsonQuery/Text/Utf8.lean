namespace JsonQuery
namespace Utf8

def bytes (c : Char) : List Nat := (String.utf8EncodeChar c).map UInt8.toNat

/-- The characters that take more than one byte: by two, by three below the surrogates and above
them, by four. -/
def planes : List (Nat × Nat) :=
  [(0x80, 0x7FF), (0x800, 0xD7FF), (0xE000, 0xFFFF), (0x10000, 0x10FFFF)]

def meet? (r s : Nat × Nat) : Option (Nat × Nat) :=
  let low := max r.1 s.1
  let high := min r.2 s.2
  if low ≤ high then some (low, high) else none

/-- Cuts a range that reaches over several blocks of one size into the part in front of the first
whole block, the whole blocks, and the part behind them. -/
def cut (block : Nat) (r : Nat × Nat) : List (Nat × Nat) :=
  let (low, high) := r
  if low / block = high / block then [r]
  else
    let start := (low + block - 1) / block * block
    let stop := (high + 1) / block * block
    [(low, start), (start, stop), (stop, high + 1)].filterMap
      (fun p => if p.1 < p.2 then some (p.1, p.2 - 1) else none)

/-- The bytes at the two ends, of which there are equally many. -/
def byteRanges (r : Nat × Nat) : List (Nat × Nat) :=
  (bytes (Char.ofNat r.1)).zip (bytes (Char.ofNat r.2))

/-- The encodings of a range of code points, in order. Each part of the result stands for all
sequences with one byte from each of its ranges. A byte behind the first carries six bits, so that
happens for blocks of `64`, `64 ^ 2` and `64 ^ 3` code points. -/
def sequences (r : Nat × Nat) : List (List (Nat × Nat)) :=
  (meet? r (0, 0x7F)).toList.map (fun s => [s]) ++
    ((((planes.filterMap (meet? r)).flatMap (cut 64)).flatMap (cut 4096)).flatMap
      (cut 262144)).map byteRanges

end Utf8
end JsonQuery
