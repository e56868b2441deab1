import JsonQuery.Json.Numeral
import JsonQuery.Regexp.Basic
import JsonQuery.Text.Utf8

namespace JsonQuery

namespace Unicode.Category

/-- The characters of a category. -/
def set : Category → RangeSet
  | .unassigned => .complement (.ofRanges (assigned.flatMap ranges))
  | k => k.ranges

end Unicode.Category

namespace Regexp
open Unicode (RangeSet)

namespace Property

def set : Property → RangeSet
  | .group initial =>
    let members := (Unicode.Category.unassigned :: Unicode.Category.assigned).filter
      (fun k => k.code.toList.head? == some initial)
    .ofRanges (members.flatMap Unicode.Category.set)
  | .one category => category.set

end Property

def propertySet (complement : Bool) (p : Property) : RangeSet :=
  if complement then p.set.complement else p.set

namespace ClassItem

def ranges : ClassItem → List (Nat × Nat)
  | .single s => [(s.char.toNat, s.char.toNat)]
  | .range low high => [(low.char.toNat, high.char.toNat)]
  | .property complement p => propertySet complement p

end ClassItem

/-- An expression reduced for the construction of an automaton: groups are dissolved, sequences
and alternatives are not nested in themselves, neighbouring characters make up a text, and
alternatives of single characters are one set. A set comes with the encodings of its characters. -/
inductive Form where
  | empty
  | literal (text : List Char)
  | chars (set : RangeSet) (encodings : List (List (Nat × Nat)))
  | repeated (min : Nat) (max : Option Nat) (inner : Form)
  | concat (parts : List Form)
  | choice (branches : List Form)

namespace Form

mutual

def same : Form → Form → Bool
  | .empty, .empty => true
  | .literal s, .literal t => s == t
  | .chars s _, .chars t _ => s == t
  | .repeated a b f, .repeated c d g => a == c && b == d && f.same g
  | .concat fs, .concat gs => sameAll fs gs
  | .choice fs, .choice gs => sameAll fs gs
  | _, _ => false

def sameAll : List Form → List Form → Bool
  | [], [] => true
  | f :: fs, g :: gs => f.same g && sameAll fs gs
  | _, _ => false

end

mutual

/-- The least number of bytes that match, `none` for a form with a part that nothing matches. -/
def minLength? : Form → Option Nat
  | .empty => some 0
  | .literal text => some (text.map Char.utf8Size).sum
  | .chars _ encodings => encodings.head?.map List.length
  | .repeated min _ f => f.minLength?.map (· * min)
  | .concat fs => do return (← minLengths? fs).sum
  | .choice fs => (minLengths? fs).bind List.min?

def minLengths? : List Form → Option (List Nat)
  | [] => some []
  | f :: fs => do return (← f.minLength?) :: (← minLengths? fs)

end

mutual

/-- Whether the empty text alone matches, as the shape of the form shows it. -/
def isBlank : Form → Bool
  | .empty => true
  | .literal _ | .chars _ _ => false
  | .repeated _ max f => f.isBlank && max.isSome
  | .concat fs | .choice fs => areBlank fs

def areBlank : List Form → Bool
  | [] => true
  | f :: fs => f.isBlank && areBlank fs

end

def ofChars (set : RangeSet) : Form := .chars set (set.flatMap Utf8.sequences)

/-- A set of characters. One that has a single character is a text. -/
def ofSet : RangeSet → Form
  | [(low, high)] => if low = high then .literal [Char.ofNat low] else ofChars [(low, high)]
  | set => ofChars set

/-- A repetition of the empty text is one of once at most. -/
def repetition (min : Nat) (max : Option Nat) (f : Form) : Form :=
  let (min, max) :=
    if f.isBlank then (Nat.min min 1, some (Nat.min (max.getD 1) 1)) else (min, max)
  if max = some 0 then .empty
  else if min = 1 ∧ max = some 1 then f
  else .repeated min max f

/-- Joins texts that follow one another. -/
def joinLiterals : List Form → List Form
  | [] => []
  | f :: fs =>
    match f, joinLiterals fs with
    | .literal s, .literal t :: gs => .literal (s ++ t) :: gs
    | f, gs => f :: gs

def concatParts : Form → List Form
  | .empty => []
  | .concat fs => fs
  | f => [f]

def ofParts (fs : List Form) : Form :=
  match joinLiterals (fs.flatMap concatParts) with
  | [] => .empty
  | [f] => f
  | fs => .concat fs

def branches : Form → List Form
  | .choice fs => fs
  | f => [f]

/-- The set of characters that a form stands for, if it is one. -/
def set? : Form → Option RangeSet
  | .chars set _ => some set
  | _ => none

/-- The character that a form stands for, if it is one. -/
def char? : Form → Option Char
  | .literal [c] => some c
  | _ => none

/-- Alternatives without a common front. Characters make up a set if there is nothing else, and
so do sets, but not both together. -/
def ofBranches (fs : List Form) : Form :=
  match fs.flatMap branches with
  | [f] => f
  | fs =>
    match fs.mapM char?, fs.mapM set? with
    | some cs, _ => ofSet (.ofRanges (cs.map (fun c => (c.toNat, c.toNat))))
    | none, some sets => ofSet (.ofRanges sets.flatten)
    | none, none => .choice fs

/-- The parts with which two lists start. -/
def commonFront : List Form → List Form → List Form
  | f :: fs, g :: gs => if f.same g then f :: commonFront fs gs else []
  | _, _ => []

/-- The parts of a sequence of two or more. -/
def sequence : Form → List Form
  | .concat fs => fs
  | _ => []

/-- Alternatives. The parts with which all of them start are put in front of them once; what
follows has no common front then. -/
def ofChoice (fs : List Form) : Form :=
  match (ofBranches fs).branches.map sequence with
  | first :: second :: others =>
    match (second :: others).foldl commonFront first with
    | [] => ofBranches fs
    | front =>
      let tails := (first :: second :: others).map (fun gs => ofParts (gs.drop front.length))
      ofParts (front ++ [ofBranches tails])
  | _ => ofBranches fs

end Form

namespace Quantifier

/-- The numbers of repetitions allowed; without an upper bound, `none`. -/
def bounds : Quantifier → Nat × Option Nat
  | .once => (1, some 1)
  | .star => (0, none)
  | .plus => (1, none)
  | .optional => (0, some 1)
  | .exactly n => (Numeral.natOfDigits n, some (Numeral.natOfDigits n))
  | .atLeast n => (Numeral.natOfDigits n, none)
  | .between n m => (Numeral.natOfDigits n, some (Numeral.natOfDigits m))

end Quantifier
end Regexp

mutual

def Regexp.form : Regexp → Regexp.Form
  | .last b => .ofParts b.forms
  | .alt b r => .ofChoice (.ofParts b.forms :: r.forms)

def Regexp.forms : Regexp → List Regexp.Form
  | .last b => [.ofParts b.forms]
  | .alt b r => .ofParts b.forms :: r.forms

def Branch.forms : Branch → List Regexp.Form
  | .done => []
  | .piece a q b => .repetition q.bounds.1 q.bounds.2 a.form :: b.forms

def Atom.form : Atom → Regexp.Form
  | .symbol s => .literal [s.char]
  | .dot => .ofChars [(0, 9), (11, 12), (14, 0x10FFFF)]
  | .property complement p => .ofSet (Regexp.propertySet complement p)
  | .bracket negated items =>
    let set := Unicode.RangeSet.ofRanges (items.flatMap Regexp.ClassItem.ranges)
    .ofSet (if negated then set.complement else set)
  | .group r => r.form

end
end JsonQuery
