import JsonQuery.Text.Hex

namespace JsonQuery
namespace Quoted

/-- How one character is written between single quotes. Only control characters, the quote and
the backslash are escaped. -/
def escape (c : Char) : List Char :=
  if c = '\x08' then ['\\', 'b']
  else if c = '\x0c' then ['\\', 'f']
  else if c = '\n' then ['\\', 'n']
  else if c = '\r' then ['\\', 'r']
  else if c = '\t' then ['\\', 't']
  else if c = '\'' then ['\\', '\'']
  else if c = '\\' then ['\\', '\\']
  else if c < ' ' then '\\' :: 'u' :: Hex.four c.toNat
  else [c]

def chars (s : String) : List Char := '\'' :: s.toList.flatMap escape ++ ['\'']

/-- The single-quoted literal of a string, as normalized paths and canonical queries write it. -/
def text (s : String) : String := String.ofList (chars s)

end Quoted
end JsonQuery
