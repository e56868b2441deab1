import JsonQuery.Query.Grammar

namespace JsonQuery
open Token (Kind)

/-- Tokens without the places where they stand. -/
def Token.kinds (ts : List Token) : List Kind := ts.map Token.kind

/-- The parts of filters, from the one that binds least: what `||` joins, what `&&` joins, what
stands between these, what stands behind `!`, and what is compared. -/
inductive Level where
  | disjunction
  | conjunction
  | basic
  | negated
  | operand
  deriving DecidableEq

namespace Level

def rank : Level → Nat
  | .disjunction => 0
  | .conjunction => 1
  | .basic => 2
  | .negated => 3
  | .operand => 4

end Level

namespace LogicalOp

/-- Where an operator stands, and with it its left operand. -/
def level : LogicalOp → Level
  | .or => .disjunction
  | .and => .conjunction

/-- Where its right operand stands. -/
def rightLevel : LogicalOp → Level
  | .or => .conjunction
  | .and => .basic

end LogicalOp

namespace Anchor

def kind : Anchor → Kind
  | .root => .root
  | .current => .current

end Anchor

/-- A number that names a place: no fraction, no exponent, no minus zero. -/
def Numeral.SpellsIndex (n : Numeral) (i : Int) : Prop :=
  n.isInteger = true ∧ n.isMinusZero = false ∧ n.integer = i

def SpellsOptionalIndex : Option Int → List Kind → Prop
  | none, ks => ks = []
  | some i, ks => ∃ n : Numeral, ks = [.number n] ∧ n.SpellsIndex i

def Json.SpelledBy : Json → Kind → Prop
  | .null, k => k = .null
  | .bool b, k => k = .bool b
  | .number x, k => ∃ n : Numeral, k = .number n ∧ n.value? (-2 ^ 63) (2 ^ 63 - 1) = some x
  | .string s, k => k = .string s
  | _, _ => False

/-- A member after dots. -/
def Selector.SpelledShort : Selector → Kind → Prop
  | .name s, k => k = .name s
  | .wildcard, k => k = .wildcard
  | _, _ => False

mutual

/-- The grammar of queries: which kinds of tokens, one after another, spell a tree. Whether a
query is meant as a test of existence does not show in its spelling. -/
def Selector.Spells : Selector → List Kind → Prop
  | .name s, ks => ks = [.string s]
  | .wildcard, ks => ks = [.wildcard]
  | .index i, ks => ∃ n : Numeral, ks = [.number n] ∧ n.SpellsIndex i
  | .slice start stop step, ks => ∃ first second third,
      SpellsOptionalIndex start first ∧ SpellsOptionalIndex stop second ∧
      SpellsOptionalIndex step third ∧
      (ks = first ++ .colon :: second ∧ third = [] ∨
        ks = first ++ .colon :: second ++ .colon :: third)
  | .filter e, ks => ∃ test, ks = .question :: test ∧ e.Spells .disjunction test

/-- The selectors behind the first. -/
def Selector.SpellsTail : List Selector → List Kind → Prop
  | [], ks => ks = []
  | s :: ss, ks => ∃ first others,
      ks = .comma :: first ++ others ∧ s.Spells first ∧ Selector.SpellsTail ss others

def Selector.SpellsAll : List Selector → List Kind → Prop
  | [], _ => False
  | s :: ss, ks => ∃ first others,
      ks = first ++ others ∧ s.Spells first ∧ Selector.SpellsTail ss others

def Segment.Spells : Segment → List Kind → Prop
  | .child ss, ks =>
    (∃ s k, ss = [s] ∧ s.SpelledShort k ∧ ks = [.dot, k]) ∨
      ∃ inner, ks = .openBracket :: inner ++ [.closeBracket] ∧ Selector.SpellsAll ss inner
  | .descendant ss, ks =>
    (∃ s k, ss = [s] ∧ s.SpelledShort k ∧ ks = [.doubleDot, k]) ∨
      ∃ inner, ks = .doubleDot :: .openBracket :: inner ++ [.closeBracket] ∧
        Selector.SpellsAll ss inner

def Segment.SpellsAll : List Segment → List Kind → Prop
  | [], ks => ks = []
  | s :: ss, ks => ∃ first others,
      ks = first ++ others ∧ s.Spells first ∧ Segment.SpellsAll ss others

def Expr.Spells : Expr → Level → List Kind → Prop
  | .logical op a b, l, ks => l.rank ≤ op.level.rank ∧ ∃ left right,
      ks = left ++ .logical op :: right ∧ a.Spells op.level left ∧ b.Spells op.rightLevel right
  | .not a, l, ks => l.rank ≤ Level.basic.rank ∧ ∃ inner,
      ks = .not :: inner ∧ a.Spells .negated inner
  | .paren a, l, ks => l.rank ≤ Level.negated.rank ∧ ∃ inner,
      ks = .openParen :: inner ++ [.closeParen] ∧ a.Spells .disjunction inner
  | .compare op a b, l, ks => l.rank ≤ Level.basic.rank ∧ ∃ left right,
      ks = left ++ .comparison op :: right ∧ a.Spells .operand left ∧ b.Spells .operand right
  | .exists anchor ss, _, ks => ∃ path, ks = anchor.kind :: path ∧ Segment.SpellsAll ss path
  | .query anchor ss, _, ks => ∃ path, ks = anchor.kind :: path ∧ Segment.SpellsAll ss path
  | .call f args, _, ks => ∃ inner,
      ks = .function f.name :: .openParen :: inner ++ [.closeParen] ∧ Expr.SpellsAll args inner
  | .literal v, _, ks => ∃ k, ks = [k] ∧ v.SpelledBy k

/-- The arguments behind the first. -/
def Expr.SpellsTail : List Expr → List Kind → Prop
  | [], ks => ks = []
  | e :: es, ks => ∃ first others,
      ks = .comma :: first ++ others ∧ e.Spells .disjunction first ∧ Expr.SpellsTail es others

def Expr.SpellsAll : List Expr → List Kind → Prop
  | [], ks => ks = []
  | e :: es, ks => ∃ first others,
      ks = first ++ others ∧ e.Spells .disjunction first ∧ Expr.SpellsTail es others

end

def Query.Spells (q : Query) (ks : List Kind) : Prop :=
  ∃ path, ks = .root :: path ∧ Segment.SpellsAll q.segments path

end JsonQuery
