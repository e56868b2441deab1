import JsonQuery.Regexp.Form

namespace JsonQuery
namespace Regexp

/-- The extent of an automaton that reads bytes: the number of its states, and the memory that
their edges take. -/
structure Automaton where
  states : Nat
  edges : Nat

namespace Automaton

def empty : Automaton := ⟨0, 0⟩

/-- The memory of an automaton: 32 bytes for a state, and its edges. -/
def size (a : Automaton) : Nat := 32 * a.states + a.edges

def sizeLimit : Nat := 10 * 2 ^ 20

def fits (a : Automaton) : Bool := a.size ≤ sizeLimit

/-- Adds states, edges for ranges of bytes, which take 8 bytes each, and edges that read nothing,
which take 4. -/
def add (a : Automaton) (states ranges jumps : Nat) : Automaton :=
  ⟨a.states + states, a.edges + 8 * ranges + 4 * jumps⟩

/-- Adds the same part a number of times, as long as the automaton fits. -/
def times (part : Automaton → Automaton) : Nat → Automaton → Automaton
  | 0, a => a
  | n + 1, a => if a.fits then times part n (part a) else a

/-- An automaton some states of which are known by what they do, so that they need not be built
twice. They are kept in a table with a place for each hash, where a new one takes the place of an
old one. -/
structure Shared where
  automaton : Automaton
  known : Array (Option (List Nat × Nat))

namespace Shared

def ofAutomaton (a : Automaton) (places : Nat) : Shared := ⟨a, Array.replicate places none⟩

/-- The place of a state in the table, by the hash FNV-1a of its description. -/
def place (places : Nat) (key : List Nat) : Nat :=
  let hash : UInt64 :=
    key.foldl (fun h n => (h ^^^ n.toUInt64) * 1099511628211) 14695981039346656037
  (hash % places.toUInt64).toNat

/-- The number of the state of a description, if it is known. -/
def find? (s : Shared) (place : Nat) (key : List Nat) : Option Nat :=
  match s.known.getD place none with
  | some (key', number) => if key' = key then some number else none
  | none => none

/-- The number of the state of a description, which is built if it is not known. -/
def state (s : Shared) (key : List Nat) (ranges : Nat) : Nat × Shared :=
  let place := place s.known.size key
  match s.find? place key with
  | some number => (number, s)
  | none =>
    let ⟨a, known⟩ := s
    (a.states, ⟨a.add 1 ranges 0, known.setIfInBounds place (some (key, a.states))⟩)

end Shared

/-- A state on the way from the first byte of a sequence to the last: its edges to states that are
finished, and the range of its edge to the next state on the way. An edge is given by the ends of
its range and its target. -/
structure Open where
  edges : List Nat
  low : Nat
  high : Nat

namespace Open

def ofRange (r : Nat × Nat) : Open := ⟨[], r.1, r.2⟩

def allEdges (o : Open) (next : Nat) : List Nat := o.edges ++ [o.low, o.high, next]

/-- Finishes the states of a way that ends in `target`, the last of them first. -/
def close (target : Nat) : List Open → Shared → Nat × Shared
  | [], s => (target, s)
  | o :: way, s =>
    let (next, s) := close target way s
    let edges := o.allEdges next
    s.state edges (edges.length / 3)

/-- Leaves the way of one sequence for that of the next where the two part. -/
def turn (target : Nat) : List Open → List (Nat × Nat) → Shared → List Open × Shared
  | o :: way, r :: rs, s =>
    if (o.low, o.high) = r then
      let (way, s) := turn target way rs s
      (o :: way, s)
    else
      let (next, s) := close target way s
      (⟨o.allEdges next, r.1, r.2⟩ :: rs.map ofRange, s)
  | _, rs, s => (rs.map ofRange, s)

end Open

/-- The automaton of a set that reads the bytes of a character from the first to the last. States
from which the same bytes may follow are shared. -/
def addSetForward (encodings : List (List (Nat × Nat))) (a : Automaton) : Automaton :=
  let target := a.states
  let turn (p : List Open × Shared) (rs : List (Nat × Nat)) := Open.turn target p.1 rs p.2
  let (way, s) := encodings.foldl turn ([], .ofAutomaton (a.add 1 0 0) 10000)
  (Open.close target way s).2.automaton

/-- The states for the bytes of a sequence, from the first byte, which is read last. -/
def addBackward (stop : Nat) (s : Shared) : List (Nat × Nat) → Shared
  | [] => s
  | (low, high) :: rs =>
    let (next, s) := s.state [stop, low, high] 0
    addBackward next s rs

/-- The automaton of a set that reads the bytes of a character from the last to the first. Each
sequence of bytes has a way of its own; their ends are shared. -/
def addSetBackward (encodings : List (List (Nat × Nat))) (a : Automaton) : Automaton :=
  let stop := a.states + 1
  (encodings.foldl (addBackward stop)
    (.ofAutomaton (a.add 2 0 encodings.length) 1000)).automaton

/-- A set of characters of one byte takes one state with an edge for each range. -/
def addSet (backward : Bool) (encodings : List (List (Nat × Nat))) (a : Automaton) : Automaton :=
  if encodings.all (fun rs => rs.length ≤ 1) then a.add 2 encodings.length 0
  else if backward then addSetBackward encodings a
  else addSetForward encodings a

/-- Texts cut at those that are empty. -/
def cutAtEmpty : List (List Nat) → List (List (List Nat))
  | [] => [[]]
  | [] :: texts => [] :: cutAtEmpty texts
  | text :: texts => (cutAtEmpty texts).modifyHead (text :: ·)

/-- What is left of texts behind their first bytes, those of one first byte together. -/
def tailsByHead (texts : List (List Nat)) : List (List (List Nat)) :=
  (texts.filterMap List.head?).eraseDups.map (fun head =>
    texts.filterMap (fun
      | [] => none
      | byte :: tail => if byte = head then some tail else none))

/-- The tree of texts by their bytes. The texts that pass through a node are tried in order, so
where one ends in it, those behind that one get an edge of their own. -/
def addTree : Nat → List (List Nat) → Automaton → Automaton
  | 0, _, a => a
  | depth + 1, texts, a =>
    let runs := match texts with
      | [] :: texts => [] :: cutAtEmpty (texts.dropWhile List.isEmpty)
      | texts => cutAtEmpty texts
    let groups := runs.map tailsByHead
    let used := groups.filter (fun g => !g.isEmpty)
    let ranges := ((used.map List.length).filter (1 < ·)).sum
    let a := a.add (1 + used.length) ranges (used.length + runs.length - 1)
    groups.flatten.foldl
      (fun a tails => if tails.all List.isEmpty then a else addTree depth tails a) a

end Automaton

namespace Form

def text? : Form → Option (List Char)
  | .literal text => some text
  | _ => none

open Automaton in
mutual

/-- Adds the automaton of a form. -/
def build (backward : Bool) : Form → Automaton → Automaton
  | .empty, a => a.add 1 0 0
  | .literal text, a => a.add (text.map Char.utf8Size).sum 0 0
  | .chars _ encodings, a => addSet backward encodings a
  | .repeated 0 (some 1) f, a => (f.build backward (a.add 1 0 2)).add 1 0 0
  | .repeated 0 none f, a =>
    if f.minLength?.any (0 < ·) then f.build backward (a.add 1 0 2)
    else (f.build backward a).add 3 0 4
  | .repeated min none f, a => (times (fun a => f.build backward a) min a).add 1 0 2
  | .repeated min (some max) f, a =>
    let a := if min = 0 then a.add 1 0 0 else times (fun a => f.build backward a) min a
    if min = max then a
    else times (fun a => f.build backward (a.add 1 0 2)) (max - min) (a.add 1 0 0)
  | .concat fs, a => if backward then buildFromLast backward fs a else buildAll backward fs a
  | .choice fs, a =>
    match fs.mapM text? with
    | some texts =>
      let texts := texts.map (fun t => (t.flatMap Utf8.bytes))
      let texts := if backward then texts.map List.reverse else texts
      addTree (texts.flatten.length + 1) texts (a.add 1 0 0)
    | none => buildChoice backward fs a

def buildAll (backward : Bool) : List Form → Automaton → Automaton
  | [], a => a
  | f :: fs, a => buildAll backward fs (f.build backward a)

def buildFromLast (backward : Bool) : List Form → Automaton → Automaton
  | [], a => a
  | f :: fs, a => f.build backward (buildFromLast backward fs a)

/-- The state that leads to the alternatives comes behind the first two of them. -/
def buildChoice (backward : Bool) : List Form → Automaton → Automaton
  | f :: g :: fs, a =>
    buildAll backward fs ((g.build backward (f.build backward a)).add 2 0 (2 + fs.length))
  | _, a => a

end

end Form

/-- How much of a text an expression has to match. -/
inductive Extent where
  | whole
  | part
  deriving DecidableEq

/-- The automaton of an expression. In front of the expression are the states for its start, behind
it those for its end; both mark the match where it is read forward. The start of a part is looked
for by a loop over all bytes. -/
def Form.automaton (f : Form) (extent : Extent) (backward : Bool) : Automaton :=
  let marks := if backward then 0 else 1
  match extent with
  | .whole => (f.build backward (Automaton.empty.add (2 + marks) 0 0)).add (2 + marks) 0 0
  | .part => (f.build backward (Automaton.empty.add (3 + marks) 1 2)).add (1 + marks) 0 0

end Regexp
end JsonQuery
