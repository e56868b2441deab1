import JsonQuery.Regexp.Basic

namespace JsonQuery
namespace Regexp

/-- The characters that have a meaning in the notation of regular expression engines. -/
def special : List Char :=
  ['\\', '.', '+', '*', '?', '(', ')', '|', '[', ']', '\x7b', '\x7d', '^', '$', '#', '&', '-', '~']

namespace Symbol

def chars : Symbol → List Char
  | .plain c => if c ∈ special then ['\\', c] else [c]
  | .lineFeed => ['\\', 'n']
  | .carriageReturn => ['\\', 'r']
  | .tab => ['\\', 't']

end Symbol

def propertyChars (complement : Bool) (p : Property) : List Char :=
  ['\\', if complement then 'P' else 'p', '\x7b'] ++ p.name ++ ['\x7d']

namespace ClassItem

def chars : ClassItem → List Char
  | .single s => s.chars
  | .range low high => low.chars ++ '-' :: high.chars
  | .property complement p => propertyChars complement p

end ClassItem

namespace Quantifier

def chars : Quantifier → List Char
  | .once => []
  | .star => ['*']
  | .plus => ['+']
  | .optional => ['?']
  | .exactly n => '\x7b' :: n ++ ['\x7d']
  | .atLeast n => '\x7b' :: n ++ [',', '\x7d']
  | .between n m => '\x7b' :: n ++ ',' :: m ++ ['\x7d']

end Quantifier

end Regexp

mutual

/-- The expression in the notation of engines: groups are marked as not capturing, and the dot is
spelled out because theirs may match a carriage return. -/
def Regexp.chars : Regexp → List Char
  | .last b => b.chars
  | .alt b r => b.chars ++ '|' :: r.chars

def Branch.chars : Branch → List Char
  | .done => []
  | .piece a q b => a.chars ++ q.chars ++ b.chars

def Atom.chars : Atom → List Char
  | .symbol s => s.chars
  | .dot => ['[', '^', '\\', 'n', '\\', 'r', ']']
  | .property complement p => Regexp.propertyChars complement p
  | .bracket negated items =>
    '[' :: (if negated then ['^'] else []) ++ items.flatMap Regexp.ClassItem.chars ++ [']']
  | .group r => ['(', '?', ':'] ++ r.chars ++ [')']

end

namespace Regexp

def text (r : Regexp) : String := String.ofList r.chars

end Regexp
end JsonQuery
