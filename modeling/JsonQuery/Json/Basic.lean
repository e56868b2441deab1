import JsonQuery.Binary64.Basic

namespace JsonQuery

/-- An integer and a float of equal value stay two different numbers. -/
inductive Number where
  | int (value : Int)
  | float (value : Binary64)
  deriving DecidableEq

/-- A JSON value. Objects keep the order of their members, and traversal follows it. -/
inductive Json where
  | null
  | bool (value : Bool)
  | number (value : Number)
  | string (value : String)
  | array (items : List Json)
  | object (members : List (String × Json))
  deriving Inhabited

namespace Json

/-- A later member of the same name replaces the value and keeps the place of the first. -/
def insertMember (name : String) (value : Json) : List (String × Json) → List (String × Json)
  | [] => [(name, value)]
  | (other, old) :: rest =>
    if other = name then (name, value) :: rest
    else (other, old) :: insertMember name value rest

mutual

/-- No object, at any depth, has two members of one name. -/
def UniqueNames : Json → Prop
  | .array items => UniqueItems items
  | .object members => (members.map Prod.fst).Nodup ∧ UniqueMembers members
  | _ => True

def UniqueItems : List Json → Prop
  | [] => True
  | item :: items => UniqueNames item ∧ UniqueItems items

def UniqueMembers : List (String × Json) → Prop
  | [] => True
  | (_, value) :: members => UniqueNames value ∧ UniqueMembers members

end

mutual

/-- Deep equality up to the order of members, for a given equality of numbers. -/
def equalBy (same : Number → Number → Bool) : Json → Json → Bool
  | .null, .null => true
  | .bool a, .bool b => a == b
  | .number a, .number b => same a b
  | .string a, .string b => a == b
  | .array as, .array bs => equalItems same as bs
  | .object as, .object bs => as.length == bs.length && equalMembers same as bs
  | _, _ => false

def equalItems (same : Number → Number → Bool) : List Json → List Json → Bool
  | [], [] => true
  | a :: as, b :: bs => equalBy same a b && equalItems same as bs
  | _, _ => false

/-- Each member on the left has a counterpart of its name on the right. -/
def equalMembers (same : Number → Number → Bool) :
    List (String × Json) → List (String × Json) → Bool
  | [], _ => true
  | (name, a) :: as, bs =>
    (match bs.lookup name with
      | some b => equalBy same a b
      | none => false) && equalMembers same as bs

end

end Json
end JsonQuery
