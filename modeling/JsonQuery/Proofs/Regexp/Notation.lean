import JsonQuery.Json.Numeral
import JsonQuery.Text.Hex
import JsonQuery.Text.Read

namespace JsonQuery
namespace Engine

/-- How two sets of a class are combined. -/
inductive SetOp where
  | intersection
  | difference
  | symmetricDifference
  deriving DecidableEq

/-- A set of characters as a class spells it. Properties are kept by their names. -/
inductive CharSet where
  | empty
  | single (c : Char)
  | range (low high : Char)
  | property (name : List Char)
  | union (a b : CharSet)
  | operation (op : SetOp) (a b : CharSet)
  | complement (a : CharSet)
  deriving DecidableEq

inductive Assertion where
  | lineStart
  | lineEnd
  | textStart
  | textEnd
  | wordBoundary
  | noWordBoundary
  | wordStart
  | wordEnd
  | wordStartHalf
  | wordEndHalf
  deriving DecidableEq

/-- What stands behind an opening parenthesis: nothing, a name, or flags. -/
inductive GroupKind where
  | numbered
  | named (name : List Char)
  | plain (flags : List Char)
  deriving DecidableEq

/-- An expression in the notation of the engine. -/
inductive Pattern where
  | empty
  | literal (c : Char)
  | dot
  | set (s : CharSet)
  | assertion (a : Assertion)
  | flags (flags : List Char)
  | repetition (low : Nat) (high : Option Nat) (greedy : Bool) (e : Pattern)
  | group (kind : GroupKind) (e : Pattern)
  | concat (a b : Pattern)
  | alternation (a b : Pattern)
  deriving DecidableEq

/-- What an escape stands for. -/
inductive Escape where
  | literal (c : Char)
  | set (s : CharSet)
  | assertion (a : Assertion)

namespace Escape

def pattern : Escape → Pattern
  | literal c => .literal c
  | set s => .set s
  | assertion a => .assertion a

/-- The set of an escape in a class, where nothing can be asserted. -/
def set? : Escape → Option CharSet
  | literal c => some (.single c)
  | set s => some s
  | assertion _ => none

end Escape

namespace CharSet

def ofRanges : List (Char × Char) → CharSet
  | [] => .empty
  | (low, high) :: rs => .union (ofRanges rs) (.range low high)

def ofChars (cs : List Char) : CharSet := cs.foldl (fun s c => .union s (.single c)) .empty

def ofProperties : List String → CharSet
  | [] => .empty
  | name :: names => .union (ofProperties names) (.property name.toList)

/-- The set itself, or what is outside of it. -/
def complementIf (negated : Bool) (s : CharSet) : CharSet := if negated then .complement s else s

def digit : CharSet := .property "Nd".toList

def space : CharSet := .property "White_Space".toList

def word : CharSet := ofProperties ["Alphabetic", "M", "Nd", "Pc", "Join_Control"]

/-- The sets with a name in brackets and colons. -/
def ascii : List (String × CharSet) := [
  ("alnum", ofRanges [('0', '9'), ('A', 'Z'), ('a', 'z')]),
  ("alpha", ofRanges [('A', 'Z'), ('a', 'z')]),
  ("ascii", ofRanges [('\x00', '\x7F')]),
  ("blank", ofChars ['\t', ' ']),
  ("cntrl", ofRanges [('\x00', '\x1F'), ('\x7F', '\x7F')]),
  ("digit", ofRanges [('0', '9')]),
  ("graph", ofRanges [('!', '~')]),
  ("lower", ofRanges [('a', 'z')]),
  ("print", ofRanges [(' ', '~')]),
  ("punct", ofRanges [('!', '/'), (':', '@'), ('[', '\x60'), ('\x7b', '~')]),
  ("space", ofRanges [('\t', '\r'), (' ', ' ')]),
  ("upper", ofRanges [('A', 'Z')]),
  ("word", ofRanges [('0', '9'), ('A', 'Z'), ('_', '_'), ('a', 'z')]),
  ("xdigit", ofRanges [('0', '9'), ('A', 'F'), ('a', 'f')])]

end CharSet

/-- The letters and signs that stand for something else behind a backslash. -/
def letterEscapes : List (Char × Escape) := [
  ('a', .literal '\x07'), ('f', .literal '\x0C'), ('t', .literal '\t'), ('n', .literal '\n'),
  ('r', .literal '\r'), ('v', .literal '\x0B'),
  ('d', .set .digit), ('D', .set (.complement .digit)),
  ('s', .set .space), ('S', .set (.complement .space)),
  ('w', .set .word), ('W', .set (.complement .word)),
  ('A', .assertion .textStart), ('z', .assertion .textEnd), ('B', .assertion .noWordBoundary),
  ('<', .assertion .wordStart), ('>', .assertion .wordEnd)]

/-- The forms of `\b` with braces behind it. -/
def boundaries : List (String × Assertion) := [
  ("\x7bstart\x7d", .wordStart), ("\x7bend\x7d", .wordEnd),
  ("\x7bstart-half\x7d", .wordStartHalf), ("\x7bend-half\x7d", .wordEndHalf)]

/-- The characters that may be escaped to stand for themselves: those of ASCII without letters,
digits and angle brackets. -/
def isEscapable (c : Char) : Bool := c.toNat < 128 && !c.isAlphanum && c != '<' && c != '>'

/-- The front of a text up to a character, which is dropped. -/
def upTo (stop : Char) (cs : List Char) : Option (List Char × List Char) :=
  match cs.dropWhile (· != stop) with
  | [] => none
  | _ :: rest => some (cs.takeWhile (· != stop), rest)

/-- The name of a property: one letter, or several in braces. -/
def scanName : List Char → Option (List Char × List Char)
  | [] => none
  | c :: rest =>
    if c = '\x7b' then upTo '\x7d' rest else if c = '\\' then none else some ([c], rest)

def hexChar? (ds : List Char) : Option Char := do
  let values ← ds.mapM Hex.value?
  let n := values.foldl (fun n d => n * 16 + d) 0
  if ds ≠ [] ∧ n.isValidChar then some (Char.ofNat n) else none

/-- A character by its code point, in braces or in a number of digits. -/
def scanHex (digits : Nat) (cs : List Char) : Option (Char × List Char) :=
  if cs.head? = some '\x7b' then
    (upTo '\x7d' (cs.drop 1)).bind (fun (ds, rest) => (hexChar? ds).map (fun c => (c, rest)))
  else if cs.length < digits then none
  else (hexChar? (cs.take digits)).map (fun c => (c, cs.drop digits))

/-- What stands behind a backslash. -/
def scanEscape : List Char → Option (Escape × List Char)
  | [] => none
  | c :: rest =>
    if c = 'p' ∨ c = 'P' then
      (scanName rest).map
        (fun (name, rest) => (.set (.complementIf (c == 'P') (.property name)), rest))
    else if c = 'x' then (scanHex 2 rest).map (fun (d, rest) => (.literal d, rest))
    else if c = 'u' then (scanHex 4 rest).map (fun (d, rest) => (.literal d, rest))
    else if c = 'U' then (scanHex 8 rest).map (fun (d, rest) => (.literal d, rest))
    else if c = 'b' then
      match boundaries.find? (fun b => b.1.toList.isPrefixOf rest) with
      | some (mark, a) => some (.assertion a, rest.drop mark.length)
      | none => some (.assertion .wordBoundary, rest)
    else
      match letterEscapes.lookup c with
      | some e => some (e, rest)
      | none => if isEscapable c then some (.literal c, rest) else none

/-- What the notation is made of, outside of classes and inside. -/
inductive Lexeme where
  | pattern (e : Pattern)
  | repetition (low : Nat) (high : Option Nat) (greedy : Bool)
  | openGroup (kind : GroupKind)
  | closeGroup
  | bar
  | openClass (negated : Bool) (front : List Char)
  | member (s : CharSet)
  | operation (op : SetOp)
  | closeClass

/-- A question mark behind a repetition makes it prefer fewer times. -/
def scanGreed (low : Nat) (high : Option Nat) (cs : List Char) : Lexeme × List Char :=
  if cs.head? = some '?' then (.repetition low high false, cs.drop 1)
  else (.repetition low high true, cs)

/-- The bounds of a repetition and the closing brace. -/
def scanBounds (cs : List Char) : Option ((Nat × Option Nat) × List Char) :=
  let low := cs.takeWhile Char.isDigit
  let n := Numeral.natOfDigits low
  if low.isEmpty then none
  else
    match cs.dropWhile Char.isDigit with
    | '\x7d' :: rest => some ((n, some n), rest)
    | ',' :: rest =>
      let high := rest.takeWhile Char.isDigit
      match rest.dropWhile Char.isDigit with
      | '\x7d' :: rest' =>
        some ((n, if high.isEmpty then none else some (Numeral.natOfDigits high)), rest')
      | _ => none
    | _ => none

/-- The letters of flags, and the sign that turns off those behind it. -/
def flagChars : List Char := ['i', 'm', 's', 'R', 'U', 'u', 'x', '-']

/-- Flags, up to the end of the parenthesis or to the colon in front of what they are for. -/
def scanFlags (cs : List Char) : Option (Lexeme × List Char) :=
  let flags := cs.takeWhile (fun c => flagChars.contains c)
  match cs.dropWhile (fun c => flagChars.contains c) with
  | ':' :: rest => some (.openGroup (.plain flags), rest)
  | ')' :: rest => if flags.isEmpty then none else some (.pattern (.flags flags), rest)
  | _ => none

/-- What stands behind an opening parenthesis. There is no notation for looking around. -/
def scanGroup : List Char → Option (Lexeme × List Char)
  | '?' :: 'P' :: '<' :: rest =>
    (upTo '>' rest).map (fun (name, rest) => (.openGroup (.named name), rest))
  | '?' :: '<' :: rest =>
    if rest.head? = some '=' ∨ rest.head? = some '!' then none
    else (upTo '>' rest).map (fun (name, rest) => (.openGroup (.named name), rest))
  | '?' :: rest => scanFlags rest
  | rest => some (.openGroup .numbered, rest)

/-- What stands behind an opening bracket: the mark of negation, and characters that stand for
themselves at the front. -/
def scanOpenClass (cs : List Char) : Lexeme × List Char :=
  let negated := cs.head? == some '^'
  let cs := if negated then cs.drop 1 else cs
  let hyphens := cs.takeWhile (· == '-')
  if hyphens.isEmpty ∧ cs.head? = some ']' then (.openClass negated [']'], cs.drop 1)
  else (.openClass negated hyphens, cs.dropWhile (· == '-'))

def scan : List Char → Option (Lexeme × List Char)
  | [] => none
  | c :: rest =>
    match c with
    | '(' => scanGroup rest
    | ')' => some (.closeGroup, rest)
    | '|' => some (.bar, rest)
    | '[' => some (scanOpenClass rest)
    | '?' => some (scanGreed 0 (some 1) rest)
    | '*' => some (scanGreed 0 none rest)
    | '+' => some (scanGreed 1 none rest)
    | '\x7b' => (scanBounds rest).map (fun (b, rest) => scanGreed b.1 b.2 rest)
    | '\\' => (scanEscape rest).map (fun (e, rest) => (.pattern e.pattern, rest))
    | '.' => some (.pattern .dot, rest)
    | '^' => some (.pattern (.assertion .lineStart), rest)
    | '$' => some (.pattern (.assertion .lineEnd), rest)
    | c => some (.pattern (.literal c), rest)

/-- The set that a name in colons stands for, if the text goes on with one. -/
def scanAscii (cs : List Char) : Option (CharSet × List Char) :=
  let negated := [':', '^'].isPrefixOf cs
  let cs' := if negated then cs.drop 2 else cs.drop 1
  if cs.head? = some ':' then
    (CharSet.ascii.find? (fun a => (a.1.toList ++ [':', ']']).isPrefixOf cs')).map
      (fun a => (a.2.complementIf negated, cs'.drop (a.1.length + 2)))
  else none

/-- A character of a class, or an escape. -/
def scanItem : List Char → Option (Escape × List Char)
  | [] => none
  | c :: rest => if c = '\\' then scanEscape rest else some (.literal c, rest)

/-- A set, or a range if a hyphen follows that is not the last of the class and not doubled. -/
def scanRange (low : Escape) : List Char → Option (Lexeme × List Char)
  | '-' :: c :: rest =>
    if c = ']' ∨ c = '-' then low.set?.map (fun s => (.member s, '-' :: c :: rest))
    else
      match low, scanItem (c :: rest) with
      | .literal a, some (.literal b, rest') => some (.member (.range a b), rest')
      | _, _ => none
  | rest => low.set?.map (fun s => (.member s, rest))

def scanMember (cs : List Char) : Option (Lexeme × List Char) :=
  (scanItem cs).bind (fun p => scanRange p.1 p.2)

def scanInClass : List Char → Option (Lexeme × List Char)
  | [] => none
  | ']' :: rest => some (.closeClass, rest)
  | '[' :: rest =>
    match scanAscii rest with
    | some (s, rest') => some (.member s, rest')
    | none => some (scanOpenClass rest)
  | '&' :: '&' :: rest => some (.operation .intersection, rest)
  | '-' :: '-' :: rest => some (.operation .difference, rest)
  | '~' :: '~' :: rest => some (.operation .symmetricDifference, rest)
  | cs => scanMember cs

end Engine
end JsonQuery
