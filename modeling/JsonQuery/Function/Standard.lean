import JsonQuery.Function.Registry
import JsonQuery.Regexp.Pattern

namespace JsonQuery
namespace Extension

/-- The number of characters of a string, of items of an array, of members of an object. -/
def length : Extension where
  name := "length"
  params := [.value]
  returns := .value
  apply args :=
    match args.head?.bind TypedValue.value? with
    | some (.string s) => TypedValue.ofNat s.length
    | some (.array items) => TypedValue.ofNat items.length
    | some (.object members) => TypedValue.ofNat members.length
    | _ => .nothing

/-- The number of nodes of a list, repetitions included. -/
def count : Extension where
  name := "count"
  params := [.nodes]
  returns := .value
  apply args :=
    match args.head?.bind TypedValue.nodes? with
    | some ns => TypedValue.ofNat ns.length
    | none => .nothing

/-- A test of a text and a pattern, both of which have to be strings. -/
def regexpTest (name : String) (test : String → String → Bool) : Extension where
  name := name
  params := [.value, .value]
  returns := .logical
  apply args :=
    match args.head?.bind TypedValue.value?, args[1]?.bind TypedValue.value? with
    | some (.string text), some (.string pattern) => .logical (test pattern text)
    | _, _ => .logical false

def fullMatch : Extension := regexpTest "match" Regexp.isFullMatch

def search : Extension := regexpTest "search" Regexp.isPartMatch

/-- The value of the only node of a list. -/
def value : Extension where
  name := "value"
  params := [.nodes]
  returns := .value
  apply args :=
    .value (((args.head?.bind TypedValue.nodes?).bind Node.only?).map Node.value)

end Extension

namespace Registry

def standard : Registry :=
  ofList [.length, .count, .fullMatch, .search, .value]

end Registry
end JsonQuery
