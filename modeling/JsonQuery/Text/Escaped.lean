import JsonQuery.Unicode.Hidden
import JsonQuery.Unicode.RangeSet

namespace JsonQuery
namespace Escaped

/-- Whether a character can be shown by itself. -/
def isShown (c : Char) : Bool := !Unicode.RangeSet.contains c.toNat Unicode.Ranges.hidden

/-- A character as messages show it; `quoted` are the quotes that need a backslash. -/
def charBy (quoted : List Char) (c : Char) : List Char :=
  if c = '\x00' then ['\\', '0']
  else if c = '\t' then ['\\', 't']
  else if c = '\r' then ['\\', 'r']
  else if c = '\n' then ['\\', 'n']
  else if c = '\\' ∨ c ∈ quoted then ['\\', c]
  else if isShown c then [c]
  else ['\\', 'u', '\x7b'] ++ Nat.toDigits 16 c.toNat ++ ['\x7d']

def char (c : Char) : String := String.ofList (charBy ['\'', '"'] c)

/-- A string as messages show it, between double quotes. -/
def string (s : String) : String :=
  String.ofList ('"' :: s.toList.flatMap (charBy ['"']) ++ ['"'])

end Escaped
end JsonQuery
