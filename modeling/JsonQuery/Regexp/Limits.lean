import JsonQuery.Json.Numeral
import JsonQuery.Regexp.Automaton

namespace JsonQuery
namespace Regexp

/-- A bound of a repetition needs 32 bits at most. -/
def boundFits (digits : List Char) : Bool := Numeral.natOfDigits digits < 2 ^ 32

namespace Quantifier

def isSound : Quantifier → Bool
  | .exactly n | .atLeast n => boundFits n
  | .between n m => boundFits n && boundFits m && Numeral.natOfDigits n ≤ Numeral.natOfDigits m
  | _ => true

end Quantifier

namespace ClassItem

def isSound : ClassItem → Bool
  | .range low high => low.char ≤ high.char
  | _ => true

end ClassItem

/-- The levels of a class: one, and one more if it has several items. -/
def classDepth (items : Nat) : Nat := if 1 < items then 2 else 1

end Regexp

mutual

/-- Bounds and ranges are in order, at every depth. -/
def Regexp.isSound : Regexp → Bool
  | .last b => b.isSound
  | .alt b r => b.isSound && r.isSound

def Branch.isSound : Branch → Bool
  | .done => true
  | .piece a q b => a.isSound && q.isSound && b.isSound

def Atom.isSound : Atom → Bool
  | .bracket _ items => items.all Regexp.ClassItem.isSound
  | .group r => r.isSound
  | _ => true

end

def Branch.length : Branch → Nat
  | .done => 0
  | .piece _ _ b => b.length + 1

mutual

/-- The levels of an expression. Groups, repetitions and classes are a level each; alternatives
and sequences are one if there are several. -/
def Regexp.depth : Regexp → Nat
  | .last b => b.depth
  | .alt b r => max b.depth r.branchDepth + 1

/-- The deepest of the alternatives. -/
def Regexp.branchDepth : Regexp → Nat
  | .last b => b.depth
  | .alt b r => max b.depth r.branchDepth

def Branch.depth : Branch → Nat
  | .done => 0
  | .piece a q .done => a.depth + (if q = .once then 0 else 1)
  | .piece a q b => max (a.depth + (if q = .once then 0 else 1)) b.pieceDepth + 1

/-- The deepest of the pieces. -/
def Branch.pieceDepth : Branch → Nat
  | .done => 0
  | .piece a q b => max (a.depth + (if q = .once then 0 else 1)) b.pieceDepth

def Atom.depth : Atom → Nat
  | .dot => Regexp.classDepth 2
  | .bracket _ items => Regexp.classDepth items.length
  | .group r => r.depth + 1
  | _ => 0

end

namespace Regexp

/-- The number of levels that can be matched. -/
def maxDepth : Nat := 250

namespace Extent

/-- The levels that anchors at both ends put around an expression. -/
def depth : Extent → Nat
  | .whole => 2
  | .part => 0

end Extent

/-- Whether an expression can be matched: it is sound, and it is neither too deep nor too large. Its
automata for both directions have to fit. -/
def isSupported (extent : Extent) (r : Regexp) : Bool :=
  r.isSound && r.depth + extent.depth ≤ maxDepth &&
    let f := r.form
    (f.automaton extent false).fits && (f.automaton extent true).fits

end Regexp
end JsonQuery
