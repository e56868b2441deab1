import JsonQuery.Text.Blank
import JsonQuery.Text.StringLiteral
import JsonQuery.Token.Basic

namespace JsonQuery
namespace Token

/-- Why a text has no tokens. -/
inductive Fault where
  | half (found whole : String)
  | unexpectedCharacter (c : Char)
  | nothingAfterDot
  | nothingAfterDoubleDot
  | badFunctionName (word : String)
  | unknownWord (word : String)
  | string (fault : StringLiteral.Fault)
  | number (fault : Numeral.Fault)
  deriving DecidableEq

/-- What may come next: after dots a member has to be named at once, without a blank. -/
inductive Mode where
  | any
  | afterDot
  | afterDoubleDot
  deriving DecidableEq

namespace Mode

def after : Kind → Mode
  | .dot => .afterDot
  | .doubleDot => .afterDoubleDot
  | _ => .any

end Mode

/-- The number of bytes of a text. -/
def size (cs : List Char) : Nat := cs.foldl (fun n c => n + c.utf8Size) 0

def isNameFirst (c : Char) : Bool := c.isAlpha || c == '_' || 128 ≤ c.toNat

def isNameChar (c : Char) : Bool := isNameFirst c || c.isDigit

def isWordFirst (c : Char) : Bool := c.isAlpha || c == '_'

def isWordChar (c : Char) : Bool := c.isAlphanum || c == '_'

def isFunctionName : List Char → Bool
  | [] => false
  | c :: cs => c.isLower && cs.all (fun d => d.isLower || d.isDigit || d == '_')

/-- A token that starts with a given character, and how many characters it has after that. A
fault comes with the index of the character at which it is reported. -/
abbrev Scanned := Except (Fault × Nat) (Kind × Nat)

def scanName (c : Char) (cs : List Char) : Scanned :=
  let tail := cs.takeWhile isNameChar
  .ok (.name (String.ofList (c :: tail)), tail.length)

/-- A word before a parenthesis is a function; the others are the three literals. -/
def scanWord (c : Char) (cs : List Char) : Scanned :=
  let tail := cs.takeWhile isWordChar
  let word := String.ofList (c :: tail)
  if (cs.drop tail.length).head? = some '(' then
    if isFunctionName (c :: tail) then .ok (.function word, tail.length)
    else .error (.badFunctionName word, 0)
  else if word = "true" then .ok (.bool true, tail.length)
  else if word = "false" then .ok (.bool false, tail.length)
  else if word = "null" then .ok (.null, tail.length)
  else .error (.unknownWord word, 0)

def scanString (quote : Char) (cs : List Char) : Scanned :=
  match StringLiteral.scanTail quote 1 cs with
  | .ok (value, stop) => .ok (.string (String.ofList value), stop - 1)
  | .error (fault, i) => .error (.string fault, i)

def scanNumber (c : Char) (cs : List Char) : Scanned :=
  match Numeral.scan (c :: cs) with
  | .ok n => .ok (.number n, n.chars.length - 1)
  | .error fault => .error (.number fault, 0)

/-- A symbol that a second character may extend. -/
def scanPair (second : Char) (cs : List Char) (long : Kind) (short : Scanned) : Scanned :=
  if cs.head? = some second then .ok (long, 1) else short

def scanAny (c : Char) (cs : List Char) : Scanned :=
  if c = '$' then .ok (.root, 0)
  else if c = '@' then .ok (.current, 0)
  else if c = '.' then scanPair '.' cs .doubleDot (.ok (.dot, 0))
  else if c = '[' then .ok (.openBracket, 0)
  else if c = ']' then .ok (.closeBracket, 0)
  else if c = ',' then .ok (.comma, 0)
  else if c = ':' then .ok (.colon, 0)
  else if c = '?' then .ok (.question, 0)
  else if c = '(' then .ok (.openParen, 0)
  else if c = ')' then .ok (.closeParen, 0)
  else if c = '*' then .ok (.wildcard, 0)
  else if c = '=' then scanPair '=' cs (.comparison .equal) (.error (.half "=" "==", 0))
  else if c = '!' then scanPair '=' cs (.comparison .notEqual) (.ok (.not, 0))
  else if c = '<' then scanPair '=' cs (.comparison .lessEqual) (.ok (.comparison .less, 0))
  else if c = '>' then
    scanPair '=' cs (.comparison .greaterEqual) (.ok (.comparison .greater, 0))
  else if c = '&' then scanPair '&' cs (.logical .and) (.error (.half "&" "&&", 0))
  else if c = '|' then scanPair '|' cs (.logical .or) (.error (.half "|" "||", 0))
  else if c = '\'' ∨ c = '"' then scanString c cs
  else if c = '-' ∨ c.isDigit then scanNumber c cs
  else if isWordFirst c then scanWord c cs
  else .error (.unexpectedCharacter c, 0)

/-- The token at the front of a text. -/
def scanOne (mode : Mode) (c : Char) (cs : List Char) : Scanned :=
  match mode with
  | .any => scanAny c cs
  | .afterDot =>
    if c = '*' then .ok (.wildcard, 0)
    else if isNameFirst c then scanName c cs
    else .error (.nothingAfterDot, 0)
  | .afterDoubleDot =>
    if c = '*' then .ok (.wildcard, 0)
    else if c = '[' then .ok (.openBracket, 0)
    else if isNameFirst c then scanName c cs
    else .error (.nothingAfterDoubleDot, 0)

/-- A fault, and the number of bytes before the character at which it is reported. -/
structure Error where
  fault : Fault
  offset : Nat
  deriving DecidableEq

/-- The tokens of a text that stands behind `offset` bytes. -/
def scanFrom (mode : Mode) (offset : Nat) (cs : List Char) : Except Error TokenStream :=
  match cs with
  | [] =>
    match mode with
    | .any => .ok ⟨[], offset⟩
    | .afterDot => .error ⟨.nothingAfterDot, offset⟩
    | .afterDoubleDot => .error ⟨.nothingAfterDoubleDot, offset⟩
  | c :: rest =>
    if mode = .any ∧ isBlank c then scanFrom .any (offset + c.utf8Size) rest
    else
      match scanOne mode c rest with
      | .error (fault, i) => .error ⟨fault, offset + size ((c :: rest).take i)⟩
      | .ok (kind, n) =>
        (scanFrom (.after kind) (offset + size (c :: rest.take n)) (rest.drop n)).map
          (fun s => ⟨⟨kind, offset⟩ :: s.tokens, s.stop⟩)
  termination_by cs.length
  decreasing_by all_goals grind

/-- The tokens of a query. -/
def tokenize (text : String) : Except Error TokenStream := scanFrom .any 0 text.toList

namespace Fault

def stringMessage : StringLiteral.Fault → String
  | .unterminated => "unterminated string literal"
  | .controlCharacter c => "control character '" ++ Escaped.char c ++ "' in string literal"
  | .unknownEscape c => "invalid escape sequence '\\" ++ Escaped.char c ++ "'"
  | .missingHexDigits => "expected four hex digits in unicode escape"
  | .loneHighSurrogate => "high surrogate must be followed by a low surrogate escape"
  | .badLowSurrogate => "invalid low surrogate in escape sequence"
  | .loneLowSurrogate => "unpaired low surrogate in escape sequence"

def numberMessage : Numeral.Fault → String
  | .missingDigit => "expected a digit"
  | .leadingZero => "leading zeros are not allowed"
  | .missingFraction => "expected digits after the decimal point"
  | .missingExponent => "expected digits in exponent"

def message : Fault → String
  | .half found whole => "expected '" ++ whole ++ "', found '" ++ found ++ "'"
  | .unexpectedCharacter c => "unexpected character '" ++ Escaped.char c ++ "'"
  | .nothingAfterDot => "expected a member name or '*' after '.'"
  | .nothingAfterDoubleDot => "expected a member name, '*' or '[' after '..'"
  | .badFunctionName word => "invalid function name '" ++ word ++ "'"
  | .unknownWord word => "unexpected identifier '" ++ word ++ "'"
  | .string fault => stringMessage fault
  | .number fault => numberMessage fault

end Fault
end Token
end JsonQuery
