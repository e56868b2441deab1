import JsonQuery.Unicode.Category

namespace JsonQuery
namespace Regexp

/-- What `\p` can ask for: a category, or the group of those whose codes share a first letter. -/
inductive Property where
  | group (initial : Char)
  | one (category : Unicode.Category)
  deriving DecidableEq

namespace Property

def groups : List Char := ['L', 'M', 'N', 'P', 'Z', 'S', 'C']

def name : Property → List Char
  | .group initial => [initial]
  | .one category => category.code.toList

def all : List Property :=
  groups.map .group ++ (Unicode.Category.unassigned :: Unicode.Category.assigned).map .one

def ofName? (name : List Char) : Option Property := all.find? (fun p => p.name == name)

def holds (p : Property) (c : Char) : Bool :=
  match p with
  | .group initial => (Unicode.category c).code.toList.head? == some initial
  | .one category => Unicode.category c == category

end Property

/-- A character, or the escape that stands for a control character. -/
inductive Symbol where
  | plain (c : Char)
  | lineFeed
  | carriageReturn
  | tab
  deriving DecidableEq

namespace Symbol

def char : Symbol → Char
  | .plain c => c
  | .lineFeed => '\n'
  | .carriageReturn => '\r'
  | .tab => '\t'

end Symbol

inductive ClassItem where
  | single (s : Symbol)
  | range (low high : Symbol)
  | property (complement : Bool) (p : Property)
  deriving DecidableEq

namespace ClassItem

def holds (c : Char) : ClassItem → Bool
  | .single s => c == s.char
  | .range low high => low.char ≤ c && c ≤ high.char
  | .property complement p => p.holds c != complement

end ClassItem

/-- How often an atom is repeated. Bounds are kept as they are written, zeros in front included. -/
inductive Quantifier where
  | once
  | star
  | plus
  | optional
  | exactly (count : List Char)
  | atLeast (low : List Char)
  | between (low high : List Char)
  deriving DecidableEq

end Regexp

mutual

/-- Alternatives, one or more. -/
inductive Regexp where
  | last (branch : Branch)
  | alt (branch : Branch) (others : Regexp)

/-- Pieces that follow one another; an empty branch has none. -/
inductive Branch where
  | done
  | piece (atom : Atom) (quantifier : Regexp.Quantifier) (others : Branch)

inductive Atom where
  | symbol (s : Regexp.Symbol)
  | dot
  | property (complement : Bool) (p : Regexp.Property)
  | bracket (negated : Bool) (items : List Regexp.ClassItem)
  | group (inner : Regexp)

end
end JsonQuery
