import JsonQuery.Proofs.Json.Numeral
import JsonQuery.Regexp.Reader

namespace JsonQuery
namespace Regexp

/-- The characters that stand for themselves outside of classes. -/
def IsNormal (c : Char) : Prop :=
  c ∉ ['(', ')', '*', '+', '.', '?', '[', '\\', ']', '\x7b', '|', '\x7d']

/-- The characters that stand for themselves in a class. -/
def IsClassNormal (c : Char) : Prop := c ∉ ['-', '[', '\\', ']']

namespace Symbol

def SpellsEscaped : Symbol → List Char → Prop
  | .plain c, cs => c ∈ escapable ∧ cs = ['\\', c]
  | .lineFeed, cs => cs = ['\\', 'n']
  | .carriageReturn, cs => cs = ['\\', 'r']
  | .tab, cs => cs = ['\\', 't']

/-- A character may stand unescaped where it is a normal one. -/
def Spells (normal : Char → Prop) (s : Symbol) (cs : List Char) : Prop :=
  (∃ c, s = .plain c ∧ normal c ∧ cs = [c]) ∨ s.SpellsEscaped cs

end Symbol

namespace Property

def Spells (complement : Bool) (p : Property) (cs : List Char) : Prop :=
  p ∈ all ∧ cs = ['\\', if complement then 'P' else 'p', '\x7b'] ++ p.name ++ ['\x7d']

theorem ofName?_name : ∀ p ∈ all, ofName? p.name = some p := by decide

theorem name_ne_brace : ∀ p ∈ all, ∀ c ∈ p.name, (c != '\x7d') = true := by
  have h : ∀ p ∈ all, p.name.all (· != '\x7d') = true := by decide
  exact fun p hp => List.all_eq_true.mp (h p hp)

end Property

namespace ClassItem

def hyphen : ClassItem := .single (.plain '-')

def Spells : ClassItem → List Char → Prop
  | .single s, cs => s.Spells IsClassNormal cs
  | .range low high, cs => ∃ left right, cs = left ++ '-' :: right ∧
      low.Spells IsClassNormal left ∧ high.Spells IsClassNormal right
  | .property complement p, cs => p.Spells complement cs

def SpellsAll : List ClassItem → List Char → Prop
  | [], cs => cs = []
  | item :: items, cs => ∃ left right, cs = left ++ right ∧ item.Spells left ∧
      SpellsAll items right

/-- A hyphen may stand for itself as the last item. -/
def SpellsLast : List ClassItem → List Char → Prop
  | items, cs => items = [] ∧ cs = [] ∨ items = [hyphen] ∧ cs = ['-']

/-- What stands between the brackets, behind the mark of negation: one item or more. A hyphen may
stand for itself as the first item, too. -/
def SpellsBody (items : List ClassItem) (cs : List Char) : Prop :=
  ∃ first middle last left inner right, items = first :: middle ++ last ∧
    cs = left ++ inner ++ right ∧ (first = hyphen ∧ left = ['-'] ∨ first.Spells left) ∧
    SpellsAll middle inner ∧ SpellsLast last right

end ClassItem

namespace Quantifier

def Spells : Quantifier → List Char → Prop
  | .once, cs => cs = []
  | .star, cs => cs = ['*']
  | .plus, cs => cs = ['+']
  | .optional, cs => cs = ['?']
  | .exactly n, cs => Numeral.AreDigits n ∧ cs = '\x7b' :: n ++ ['\x7d']
  | .atLeast n, cs => Numeral.AreDigits n ∧ cs = '\x7b' :: n ++ [',', '\x7d']
  | .between n m, cs => Numeral.AreDigits n ∧ Numeral.AreDigits m ∧
      cs = '\x7b' :: n ++ ',' :: m ++ ['\x7d']

end Quantifier
end Regexp

mutual

/-- The grammar of RFC 9485: whether an expression is spelled by a text. A circumflex behind an
opening bracket is always the mark of negation. -/
def Regexp.Spells : Regexp → List Char → Prop
  | .last b, cs => b.Spells cs
  | .alt b r, cs => ∃ left right, cs = left ++ '|' :: right ∧ b.Spells left ∧ r.Spells right

def Branch.Spells : Branch → List Char → Prop
  | .done, cs => cs = []
  | .piece a q b, cs => ∃ atom quantifier others, cs = atom ++ quantifier ++ others ∧
      a.Spells atom ∧ q.Spells quantifier ∧ b.Spells others

def Atom.Spells : Atom → List Char → Prop
  | .symbol s, cs => s.Spells Regexp.IsNormal cs
  | .dot, cs => cs = ['.']
  | .property complement p, cs => p.Spells complement cs
  | .bracket negated items, cs => ∃ body, Regexp.ClassItem.SpellsBody items body ∧
      (if negated then cs = ['[', '^'] ++ body ++ [']']
        else cs = '[' :: body ++ [']'] ∧ body.head? ≠ some '^')
  | .group r, cs => ∃ inner, cs = '(' :: inner ++ [')'] ∧ r.Spells inner

end

end JsonQuery
