import JsonQuery.Json.Basic
import JsonQuery.Text.Quoted

namespace JsonQuery

/-- The way from a container to one of its children. -/
inductive Step where
  | name (name : String)
  | index (index : Nat)
  deriving DecidableEq

/-- The steps from the root of a document to one of its values. -/
abbrev Location := List Step

namespace Location

def stepChars : Step → List Char
  | .name name => '[' :: Quoted.chars name ++ [']']
  | .index index => '[' :: Nat.toDigits 10 index ++ [']']

def chars (l : Location) : List Char := '$' :: l.flatMap stepChars

/-- The normalized path. -/
def text (l : Location) : String := String.ofList l.chars

end Location

namespace Json

/-- The children of a value with the steps to them, in document order. -/
def children : Json → List (Step × Json)
  | .array items => items.mapIdx (fun i item => (.index i, item))
  | .object members => members.map (fun m => (.name m.1, m.2))
  | _ => []

/-- The child that a step leads to. A name leads nowhere in an array, nor an index in an object. -/
def child? : Json → Step → Option Json
  | .array items, .index i => items[i]?
  | .object members, .name name => members.lookup name
  | _, _ => none

/-- The value at a location. -/
def at? (v : Json) : Location → Option Json
  | [] => some v
  | step :: rest => (v.child? step).bind (fun child => child.at? rest)

end Json
end JsonQuery
