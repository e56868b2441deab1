import JsonQuery.Text.Hex

namespace JsonQuery
namespace StringLiteral

/-- Why a text is no string literal. -/
inductive Fault where
  | unterminated
  | controlCharacter (c : Char)
  | unknownEscape (c : Char)
  | missingHexDigits
  | loneHighSurrogate
  | badLowSurrogate
  | loneLowSurrogate
  deriving DecidableEq

def isHighSurrogate (code : Nat) : Bool := 0xD800 ≤ code && code < 0xDC00

def isLowSurrogate (code : Nat) : Bool := 0xDC00 ≤ code && code < 0xE000

/-- The character that two surrogates stand for. -/
def ofSurrogates (high low : Nat) : Char :=
  Char.ofNat (0x10000 + (high - 0xD800) * 0x400 + (low - 0xDC00))

/-- The character of the digits after `\u`, and how many characters spell it. -/
def scanUnicode (cs : List Char) : Except Fault (Char × Nat) :=
  match Hex.four? cs with
  | none => .error .missingHexDigits
  | some code =>
    if isHighSurrogate code then
      match cs.drop 4 with
      | '\\' :: 'u' :: rest =>
        match Hex.four? rest with
        | none => .error .missingHexDigits
        | some low =>
          if isLowSurrogate low then .ok (ofSurrogates code low, 10)
          else .error .badLowSurrogate
      | _ => .error .loneHighSurrogate
    else if isLowSurrogate code then .error .loneLowSurrogate
    else .ok (Char.ofNat code, 4)

/-- The character of an escape, and how many characters after the backslash spell it. Of the two
quotes only the one around the literal can be escaped. -/
def scanEscape (quote : Char) : List Char → Except Fault (Char × Nat)
  | [] => .error .unterminated
  | 'b' :: _ => .ok ('\x08', 1)
  | 'f' :: _ => .ok ('\x0c', 1)
  | 'n' :: _ => .ok ('\n', 1)
  | 'r' :: _ => .ok ('\r', 1)
  | 't' :: _ => .ok ('\t', 1)
  | '/' :: _ => .ok ('/', 1)
  | '\\' :: _ => .ok ('\\', 1)
  | 'u' :: cs => (scanUnicode cs).map (fun (c, n) => (c, n + 1))
  | c :: _ => if c = quote then .ok (quote, 1) else .error (.unknownEscape c)

/-- The characters up to the closing quote, and the index after it. `i` is the index of the first
character of `cs`, the opening quote having index `0`; a fault comes with the index at which it
is reported. -/
def scanTail (quote : Char) (i : Nat) (cs : List Char) : Except (Fault × Nat) (List Char × Nat) :=
  match cs with
  | [] => .error (.unterminated, 0)
  | c :: rest =>
    if c = quote then .ok ([], i + 1)
    else if c = '\\' then
      match scanEscape quote rest with
      | .error fault => .error (fault, i)
      | .ok (x, n) =>
        (scanTail quote (i + 1 + n) (rest.drop n)).map (fun (xs, stop) => (x :: xs, stop))
    else if c < ' ' then .error (.controlCharacter c, i)
    else (scanTail quote (i + 1) rest).map (fun (xs, stop) => (c :: xs, stop))
  termination_by cs.length
  decreasing_by all_goals grind

end StringLiteral
end JsonQuery
