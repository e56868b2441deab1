import JsonQuery.Function.Basic

namespace JsonQuery

/-- The functions that queries may call, sorted by name and without two of one name. -/
structure Registry where
  functions : List Extension

namespace Registry

def empty : Registry := ⟨[]⟩

def lookup (r : Registry) (name : String) : Option Extension :=
  r.functions.find? (fun f => f.name == name)

def contains (r : Registry) (name : String) : Bool := (r.lookup name).isSome

def names (r : Registry) : List String := r.functions.map Extension.name

def insertSorted (f : Extension) : List Extension → List Extension
  | [] => [f]
  | g :: gs =>
    if f.name < g.name then f :: g :: gs
    else if f.name = g.name then f :: gs
    else g :: insertSorted f gs

/-- Adds a function in place of one of its name, and returns that one. -/
def insert (r : Registry) (f : Extension) : Option Extension × Registry :=
  (r.lookup f.name, ⟨insertSorted f r.functions⟩)

/-- Adds a function that is given by what it declares and what it does. -/
def register (r : Registry) (name : String) (params : List ExprType) (returns : ExprType)
    (apply : List TypedValue → TypedValue) : Option Extension × Registry :=
  r.insert ⟨name, params, returns, apply⟩

def ofList (fs : List Extension) : Registry := fs.foldl (fun r f => (r.insert f).2) empty

end Registry
end JsonQuery
