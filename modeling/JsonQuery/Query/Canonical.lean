import JsonQuery.Json.Writer
import JsonQuery.Query.Basic
import JsonQuery.Text.Quoted

namespace JsonQuery
namespace Anchor

def char : Anchor → Char
  | .root => '$'
  | .current => '@'

end Anchor

namespace Canonical

def optionalInt : Option Int → List Char
  | some i => intChars i
  | none => []

def parenthesized (cs : List Char) : List Char := '(' :: cs ++ [')']

def literal : Json → List Char
  | .string s => Quoted.chars s
  | v => v.chars

end Canonical

namespace Expr

/-- Whether an operand of `&&` needs parentheses. -/
def isDisjunction : Expr → Bool
  | .logical .or _ _ => true
  | _ => false

/-- Whether the operand of `!` needs parentheses. -/
def isCompound : Expr → Bool
  | .logical _ _ _ | .compare _ _ _ => true
  | _ => false

end Expr

open Canonical in
mutual

/-- The canonical text: names in brackets, one blank behind commas and around operators, and
parentheses where the tree has them or could not be read back without them. -/
def Selector.chars : Selector → List Char
  | .name name => Quoted.chars name
  | .wildcard => ['*']
  | .index i => intChars i
  | .slice start stop step =>
    optionalInt start ++ ':' :: optionalInt stop ++
      (match step with
        | some i => ':' :: intChars i
        | none => [])
  | .filter e => '?' :: e.chars

/-- The selectors behind the first. -/
def Selector.tailChars : List Selector → List Char
  | [] => []
  | s :: ss => [',', ' '] ++ s.chars ++ Selector.tailChars ss

def Selector.listChars : List Selector → List Char
  | [] => []
  | s :: ss => s.chars ++ Selector.tailChars ss

def Segment.chars : Segment → List Char
  | .child ss => '[' :: Selector.listChars ss ++ [']']
  | .descendant ss => ['.', '.', '['] ++ Selector.listChars ss ++ [']']

def Segment.listChars : List Segment → List Char
  | [] => []
  | s :: ss => s.chars ++ Segment.listChars ss

def Expr.chars : Expr → List Char
  | .logical .and a b =>
    (if a.isDisjunction then parenthesized a.chars else a.chars) ++ [' ', '&', '&', ' '] ++
      (if b.isDisjunction then parenthesized b.chars else b.chars)
  | .logical .or a b => a.chars ++ [' ', '|', '|', ' '] ++ b.chars
  | .not a => '!' :: (if a.isCompound then parenthesized a.chars else a.chars)
  | .paren a => parenthesized a.chars
  | .compare op a b => a.chars ++ ' ' :: op.symbol.toList ++ ' ' :: b.chars
  | .exists anchor ss | .query anchor ss => anchor.char :: Segment.listChars ss
  | .call f args => f.name.toList ++ parenthesized (Expr.listChars args)
  | .literal v => literal v

/-- The arguments behind the first. -/
def Expr.tailChars : List Expr → List Char
  | [] => []
  | e :: es => [',', ' '] ++ e.chars ++ Expr.tailChars es

def Expr.listChars : List Expr → List Char
  | [] => []
  | e :: es => e.chars ++ Expr.tailChars es

end

namespace Query

def chars (q : Query) : List Char := '$' :: Segment.listChars q.segments

/-- A text that reads back as the same query, if the query came from a text. -/
def text (q : Query) : String := String.ofList q.chars

end Query
end JsonQuery
