import JsonQuery.Json.Numeral
import JsonQuery.Regexp.Basic

namespace JsonQuery
namespace Regexp

/-- Places in a text as the bits of a number: bit `k` stands for the place behind `k` characters. -/
abbrev Places := Nat

namespace Places

/-- The bits of a text in words of 32, the first bit lowest: 1 for the characters with a property.
The first word is the one in progress, and `bit` is the value of its next bit. -/
def words (p : Char → Bool) (bit word : Nat) : List Char → List Nat
  | [] => [word]
  | c :: cs =>
    let word := if p c then word + bit else word
    if bit = 0x80000000 then word :: words p 1 0 cs else words p (2 * bit) word cs

/-- The places in front of the characters with a property. -/
def before (p : Char → Bool) (cs : List Char) : Places :=
  (words p 1 0 cs).foldr (fun word places => word + 0x100000000 * places) 0

def start : Places := 1

/-- All places in a text, its end included. -/
def all (cs : List Char) : Places := 2 ^ (cs.length + 1) - 1

def union (s t : Places) : Places := s ||| t

def diff (s t : Places) : Places := s ^^^ (s &&& t)

end Places

/-- A way through a text, which leads from each place to those where a match that starts there may
end. The characters that are read come as the places in front of them. -/
inductive Walk where
  | stay
  | step (places : Places)
  | either (a b : Walk)
  | seq (a b : Walk)
  | times (n : Nat) (a : Walk)
  | upTo (n : Nat) (a : Walk)

namespace Walk

/-- The `n`-th iterate. Once a set of places leads to itself, there is nothing left to do. -/
def iterate (f : Places → Places) : Nat → Places → Places
  | 0, s => s
  | n + 1, s =>
    let t := f s
    if t = s then s else iterate f n t

/-- What is reached by at most `n` steps more. Only places that are new lead to new ones. -/
def reach (f : Places → Places) : Nat → (reached fresh : Places) → Places
  | 0, reached, _ => reached
  | n + 1, reached, fresh =>
    let fresh := (f fresh).diff reached
    if fresh = 0 then reached else reach f n (reached.union fresh) fresh

/-- Where the ways from a set of places end. -/
def ends : Walk → Places → Places
  | .stay, s => s
  | .step places, s => 2 * (s &&& places)
  | .either a b, s => (a.ends s).union (b.ends s)
  | .seq a b, s => b.ends (a.ends s)
  | .times n a, s => iterate a.ends n s
  | .upTo n a, s => reach a.ends n s s

/-- A walk repeated in a text. There is no use in more steps than characters, since those that
stay where they are lead to nothing new. -/
def repeated (cs : List Char) (a : Walk) : Quantifier → Walk
  | .once => a
  | .star => .upTo cs.length a
  | .plus => .seq a (.upTo cs.length a)
  | .optional => .upTo 1 a
  | .exactly n => .times (Numeral.natOfDigits n) a
  | .atLeast n => .seq (.times (Numeral.natOfDigits n) a) (.upTo cs.length a)
  | .between n m =>
    let n := Numeral.natOfDigits n
    .seq (.times n a) (.upTo (Numeral.natOfDigits m - n) a)

end Walk

/-- A text, and some characters with the places in front of them. A pattern may have the same
character many times, which is looked for once. -/
structure Subject where
  chars : List Char
  known : List (Char × Places)

namespace Subject

def ofChars (symbols cs : List Char) : Subject :=
  ⟨cs, symbols.eraseDups.map (fun c => (c, .before (· == c) cs))⟩

/-- The places in front of a character. -/
def beforeSymbol (t : Subject) (c : Char) : Places :=
  match t.known.lookup c with
  | some places => places
  | none => .before (· == c) t.chars

end Subject

/-- Whether a class has a character. -/
def classHolds (negated : Bool) (items : List ClassItem) (c : Char) : Bool :=
  items.any (fun i => i.holds c) != negated

end Regexp

mutual

/-- The characters that stand for themselves. -/
def Regexp.symbols : Regexp → List Char
  | .last b => b.symbols
  | .alt b r => b.symbols ++ r.symbols

def Branch.symbols : Branch → List Char
  | .done => []
  | .piece a _ b => a.symbols ++ b.symbols

def Atom.symbols : Atom → List Char
  | .symbol s => [s.char]
  | .group r => r.symbols
  | _ => []

end

mutual

def Regexp.walk (t : Regexp.Subject) : Regexp → Regexp.Walk
  | .last b => b.walk t
  | .alt b r => .either (b.walk t) (r.walk t)

def Branch.walk (t : Regexp.Subject) : Branch → Regexp.Walk
  | .done => .stay
  | .piece a q b => .seq (.repeated t.chars (a.walk t) q) (b.walk t)

def Atom.walk (t : Regexp.Subject) : Atom → Regexp.Walk
  | .symbol s => .step (t.beforeSymbol s.char)
  | .dot => .step (.before (fun c => c != '\n' && c != '\r') t.chars)
  | .property complement p => .step (.before (fun c => p.holds c != complement) t.chars)
  | .bracket negated items => .step (.before (Regexp.classHolds negated items) t.chars)
  | .group r => r.walk t

end

namespace Regexp

/-- The places where a match may end that starts at one of some places. -/
def ends (r : Regexp) (cs : List Char) (starts : Places) : Places :=
  (r.walk (.ofChars r.symbols cs)).ends starts

/-- Whether the whole text matches. -/
def matchesAll (r : Regexp) (cs : List Char) : Bool := (r.ends cs .start).testBit cs.length

/-- Whether some part of the text matches. -/
def matchesPart (r : Regexp) (cs : List Char) : Bool := r.ends cs (.all cs) != 0

end Regexp
end JsonQuery
