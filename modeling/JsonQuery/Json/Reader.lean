import JsonQuery.Json.Numeral
import JsonQuery.Text.Blank
import JsonQuery.Text.Read
import JsonQuery.Text.StringLiteral

namespace JsonQuery
namespace Json

/-- An integer that needs no more than 64 bits, signed or not, is read exactly. -/
def numberOf? (n : Numeral) : Option Number := n.value? (-2 ^ 63) (2 ^ 64 - 1)

namespace Reader

def skip (cs : List Char) : List Char := cs.dropWhile isBlank

theorem length_skip_le (cs : List Char) : (skip cs).length ≤ cs.length :=
  length_dropWhile_le isBlank cs

grind_pattern length_skip_le => skip cs

theorem length_lt_of_skip {cs rest : List Char} (c : Char) (tail : List Char)
    (h : skip cs = c :: tail ++ rest) : rest.length < cs.length := by
  have := length_skip_le cs
  simp only [h, List.length_append, List.length_cons] at this
  omega

/-- The string whose opening quote stands before the text. -/
def stringTail (quote : Char) (cs : List Char) : Option (Read String Char (cs.length + 1)) :=
  match StringLiteral.scanTail quote 1 cs with
  | .ok (s, stop) => some (.of (String.ofList s) (cs.drop (stop - 1)))
  | .error _ => none

def number (c : Char) (cs : List Char) : Option (Read Json Char (cs.length + 1)) := do
  let n ← (Numeral.scan (c :: cs)).toOption
  let value ← numberOf? n
  some (.of (.number value) (cs.drop (n.chars.length - 1)))

mutual

/-- Reads a value behind blanks. -/
def value (cs : List Char) : Option (Read Json Char cs.length) :=
  match h : skip cs with
  | 'n' :: 'u' :: 'l' :: 'l' :: rest => some (.of .null rest)
  | 't' :: 'r' :: 'u' :: 'e' :: rest => some (.of (.bool true) rest)
  | 'f' :: 'a' :: 'l' :: 's' :: 'e' :: rest =>
    some (.of (.bool false) rest (length_lt_of_skip 'f' ['a', 'l', 's', 'e'] h))
  | '"' :: rest => do
    let s ← stringTail '"' rest
    some (.of (.string s.value) s.rest)
  | '[' :: rest =>
    match h : skip rest with
    | ']' :: rest' => some (.of (.array []) rest')
    | _ => do
      let xs ← items rest
      some (.of (.array xs.value) xs.rest)
  | '{' :: rest =>
    match h : skip rest with
    | '}' :: rest' => some (.of (.object []) rest')
    | _ => do
      let ms ← members [] rest
      some (.of (.object ms.value) ms.rest)
  | c :: rest => do
    let n ← number c rest
    some (.of n.value n.rest)
  | [] => none
  termination_by (cs.length, 0)
  decreasing_by all_goals grind

/-- Reads one item or more, and the closing bracket. -/
def items (cs : List Char) : Option (Read (List Json) Char cs.length) := do
  let x ← value cs
  match h : skip x.rest with
  | ',' :: rest =>
    let xs ← items rest
    some (.of (x.value :: xs.value) xs.rest)
  | ']' :: rest => some (.of [x.value] rest)
  | _ => none
  termination_by (cs.length, 1)
  decreasing_by all_goals grind

/-- Reads one member or more, and the closing brace, into the members read so far. -/
def members (done : List (String × Json)) (cs : List Char) :
    Option (Read (List (String × Json)) Char cs.length) := do
  match h : skip cs with
  | '"' :: rest =>
    let name ← stringTail '"' rest
    match h' : skip name.rest with
    | ':' :: rest' =>
      let v ← value rest'
      let done := insertMember name.value v.value done
      match h'' : skip v.rest with
      | ',' :: rest'' =>
        let ms ← members done rest''
        some (.of ms.value ms.rest)
      | '}' :: rest'' => some (.of done rest'')
      | _ => none
    | _ => none
  | _ => none
  termination_by (cs.length, 1)
  decreasing_by all_goals grind

end

end Reader

/-- The value that a text spells, blanks around it allowed. -/
def ofText? (text : String) : Option Json := do
  let v ← Reader.value text.toList
  if (Reader.skip v.rest).isEmpty then some v.value else none

end Json
end JsonQuery
