import JsonQuery.Location

namespace JsonQuery

/-- A value of a document together with the place where it stands. -/
structure Node where
  value : Json
  location : Location

namespace Node

def root (document : Json) : Node := ⟨document, []⟩

def children (n : Node) : List Node :=
  n.value.children.map (fun (step, v) => ⟨v, n.location ++ [step]⟩)

def child? (n : Node) (step : Step) : Option Node :=
  (n.value.child? step).map (fun v => ⟨v, n.location ++ [step]⟩)

mutual

/-- A value and all values in it, each before those inside it. -/
def preorder (l : Location) : Json → List Node
  | .array items => ⟨.array items, l⟩ :: preorderItems l 0 items
  | .object members => ⟨.object members, l⟩ :: preorderMembers l members
  | v => [⟨v, l⟩]

def preorderItems (l : Location) (i : Nat) : List Json → List Node
  | [] => []
  | item :: items => preorder (l ++ [.index i]) item ++ preorderItems l (i + 1) items

def preorderMembers (l : Location) : List (String × Json) → List Node
  | [] => []
  | (name, v) :: members => preorder (l ++ [.name name]) v ++ preorderMembers l members

end

/-- The node and its descendants, in document order. -/
def subtree (n : Node) : List Node := preorder n.location n.value

/-- The only node of a list. -/
def only? : List Node → Option Node
  | [n] => some n
  | _ => none

end Node
end JsonQuery
