import Mathlib
import JsonQuery.Proofs.Grammar.Soundness
import JsonQuery.Proofs.Json.Numeral
import JsonQuery.Query.Canonical
import JsonQuery.Query.Evaluation

namespace JsonQuery

/-- The integers that a literal of a query may be: words of 64 bits, signed or not, up to a given
one. -/
def Json.FitsWord (top : Int) : Json → Prop
  | .number (.int i) => -2 ^ 63 ≤ i ∧ i ≤ 2 ^ 64 - 1 ∧ i ≤ top
  | _ => True

mutual

/-- The trees that may be built without a text, by the types of their parts. They have the types
that `Query.WellTyped` asks for, except that a query may stand for a test of its nodes wherever a
test is wanted; the functions have names that can be written. Where `strict` holds, indices are in
range, segments have selectors, and literals have no parts. -/
def Selector.Sound (r : Registry) (top : Int) (strict : Prop) : Selector → Prop
  | .name _ | .wildcard => True
  | .index i => strict → InIndexRange i
  | .slice start stop step => strict →
    (∀ i ∈ start, InIndexRange i) ∧ (∀ i ∈ stop, InIndexRange i) ∧ ∀ i ∈ step, InIndexRange i
  | .filter e => e.Serves r top strict .logical

def Selector.AllSound (r : Registry) (top : Int) (strict : Prop) : List Selector → Prop
  | [] => True
  | s :: ss => s.Sound r top strict ∧ Selector.AllSound r top strict ss

def Segment.Sound (r : Registry) (top : Int) (strict : Prop) : Segment → Prop
  | .child ss | .descendant ss => (strict → ss ≠ []) ∧ Selector.AllSound r top strict ss

def Segment.AllSound (r : Registry) (top : Int) (strict : Prop) : List Segment → Prop
  | [] => True
  | s :: ss => s.Sound r top strict ∧ Segment.AllSound r top strict ss

/-- Whether an expression may stand where a type is wanted. -/
def Expr.Serves (r : Registry) (top : Int) (strict : Prop) : Expr → ExprType → Prop
  | .logical _ a b, t =>
    t = .logical ∧ a.Serves r top strict .logical ∧ b.Serves r top strict .logical
  | .not a, t => t = .logical ∧ a.Serves r top strict .logical
  | .paren a, t => t = .logical ∧ a.Serves r top strict .logical
  | .compare _ a b, t =>
    t = .logical ∧ a.Serves r top strict .value ∧ b.Serves r top strict .value
  | .exists _ ss, t => t = .logical ∧ Segment.AllSound r top strict ss
  | .query _ ss, t =>
    (t = .value → ss.all Segment.isSingular = true) ∧ Segment.AllSound r top strict ss
  | .call f args, t =>
    r.lookup f.name = some f ∧ Token.isFunctionName f.name.toList = true ∧ f.returns.FitsAs t ∧
      Expr.AllServe r top strict args f.params
  | .literal v, t => t = .value ∧ v.FitsWord top ∧ (strict → v.IsPrimitive)

def Expr.AllServe (r : Registry) (top : Int) (strict : Prop) : List Expr → List ExprType → Prop
  | [], ts => ts = []
  | _ :: _, [] => False
  | e :: es, t :: ts => e.Serves r top strict t ∧ Expr.AllServe r top strict es ts

end

namespace Query

/-- A query whose parts have the types of their places. -/
def Typed (r : Registry) (top : Int) (q : Query) : Prop := Segment.AllSound r top False q.segments

/-- A query with all that a text asks for, besides. -/
def Sound (r : Registry) (top : Int) (q : Query) : Prop := Segment.AllSound r top True q.segments

end Query

namespace Expr

/-- Two expressions joined by an operator, where those that the right one joins by the same
operator come one after another. -/
def join (op : LogicalOp) (left : Expr) : Expr → Expr
  | .logical op' a b =>
    if op' = op then .logical op (join op left a) b else .logical op left (.logical op' a b)
  | e => .logical op left e

/-- An expression in parentheses, where these are needed. -/
def enclosed (needed : Bool) (e : Expr) : Expr := if needed then .paren e else e

end Expr

namespace LogicalOp

/-- Whether an operand stands in parentheses. -/
def encloses : LogicalOp → Expr → Bool
  | .and, e => e.isDisjunction
  | .or, _ => false

end LogicalOp

/-- The number that the text of a number is read as. Integers too large for a signed word are read
as floats. -/
def Number.asRead : Number → Number
  | .int i => ((Numeral.ofInt i).value? (-2 ^ 63) (2 ^ 63 - 1)).getD (.int i)
  | .float x => .float x

def Json.asRead : Json → Json
  | .number x => .number x.asRead
  | v => v

mutual

/-- The tree that the canonical text of a tree spells. Operands of one operator lean to the left,
the parentheses of the text are kept, and a query that stands for a test is one. -/
def Selector.grouped : Selector → Selector
  | .name name => .name name
  | .wildcard => .wildcard
  | .index i => .index i
  | .slice start stop step => .slice start stop step
  | .filter e => .filter (e.grouped .logical)

def Selector.allGrouped : List Selector → List Selector
  | [] => []
  | s :: ss => s.grouped :: Selector.allGrouped ss

def Segment.grouped : Segment → Segment
  | .child ss => .child (Selector.allGrouped ss)
  | .descendant ss => .descendant (Selector.allGrouped ss)

def Segment.allGrouped : List Segment → List Segment
  | [] => []
  | s :: ss => s.grouped :: Segment.allGrouped ss

def Expr.grouped : Expr → ExprType → Expr
  | .logical op a b, _ =>
    (Expr.enclosed (op.encloses a) (a.grouped .logical)).join op
      (Expr.enclosed (op.encloses b) (b.grouped .logical))
  | .not a, _ => .not (Expr.enclosed a.isCompound (a.grouped .logical))
  | .paren a, _ => .paren (a.grouped .logical)
  | .compare op a b, _ => .compare op (a.grouped .value) (b.grouped .value)
  | .exists anchor ss, _ => .exists anchor (Segment.allGrouped ss)
  | .query anchor ss, .logical => .exists anchor (Segment.allGrouped ss)
  | .query anchor ss, .value => .query anchor (Segment.allGrouped ss)
  | .query anchor ss, .nodes => .query anchor (Segment.allGrouped ss)
  | .call f args, _ => .call f (Expr.allGrouped args f.params)
  | .literal v, _ => .literal v.asRead

def Expr.allGrouped : List Expr → List ExprType → List Expr
  | e :: es, t :: ts => e.grouped t :: Expr.allGrouped es ts
  | _, _ => []

end

namespace Query

/-- The query that the canonical text of a query spells. -/
def grouped (q : Query) : Query := ⟨Segment.allGrouped q.segments⟩

end Query

section Typing

variable {r : Registry} {top : Int}

theorem Json.isPrimitive_asRead {v : Json} (h : v.IsPrimitive) : v.asRead.IsPrimitive := by
  cases v with
  | array items => exact h
  | object members => exact h
  | null | bool _ | number _ | string _ => trivial

theorem Selector.isSingular_grouped (s : Selector) : s.grouped.isSingular = s.isSingular := by
  cases s <;> rfl

theorem Segment.isSingular_grouped (s : Segment) : s.grouped.isSingular = s.isSingular := by
  match s with
  | .child [] | .child (_ :: _ :: _) | .descendant _ => rfl
  | .child [s] => exact s.isSingular_grouped

theorem Segment.all_isSingular_grouped (ss : List Segment) :
    (Segment.allGrouped ss).all Segment.isSingular = ss.all Segment.isSingular := by
  induction ss with
  | nil => rfl
  | cons s ss ih => rw [Segment.allGrouped, List.all_cons, List.all_cons, ih, s.isSingular_grouped]

theorem Selector.allGrouped_ne_nil {ss : List Selector} (h : ss ≠ []) :
    Selector.allGrouped ss ≠ [] := by
  cases ss with
  | nil => exact absurd rfl h
  | cons s ss => exact List.cons_ne_nil _ _

namespace Expr

theorem hasType_join (op : LogicalOp) {left right : Expr} (hl : left.HasType r .logical)
    (hr : right.HasType r .logical) : (left.join op right).HasType r .logical := by
  fun_induction join op left right with
  | case1 a b ih =>
    obtain ⟨-, ha, hb⟩ := hr
    exact ⟨rfl, ih ha, hb⟩
  | case2 op' a b hop => exact ⟨rfl, hl, hr⟩
  | case3 e => exact ⟨rfl, hl, hr⟩

theorem hasType_enclosed {needed : Bool} {e : Expr} (h : e.HasType r .logical) :
    (enclosed needed e).HasType r .logical := by
  cases needed with
  | true => exact ⟨rfl, h⟩
  | false => exact h

end Expr

-- Each part keeps the type that it serves for. The induction is on the tree, with its lists.
mutual

theorem Selector.wellTyped_grouped : ∀ {s : Selector}, s.Sound r top True → s.grouped.WellTyped r
  | .name _, h | .wildcard, h => h
  | .index _, h | .slice _ _ _, h => h trivial
  | .filter _, h => Expr.hasType_grouped h

theorem Selector.allWellTyped_grouped : ∀ {ss : List Selector}, Selector.AllSound r top True ss →
    Selector.AllWellTyped r (Selector.allGrouped ss)
  | [], _ => trivial
  | _ :: _, ⟨hs, hss⟩ => ⟨Selector.wellTyped_grouped hs, Selector.allWellTyped_grouped hss⟩

theorem Segment.wellTyped_grouped : ∀ {s : Segment}, s.Sound r top True → s.grouped.WellTyped r
  | .child _, ⟨hne, hss⟩ | .descendant _, ⟨hne, hss⟩ =>
    ⟨Selector.allGrouped_ne_nil (hne trivial), Selector.allWellTyped_grouped hss⟩

theorem Segment.allWellTyped_grouped : ∀ {ss : List Segment}, Segment.AllSound r top True ss →
    Segment.AllWellTyped r (Segment.allGrouped ss)
  | [], _ => trivial
  | _ :: _, ⟨hs, hss⟩ => ⟨Segment.wellTyped_grouped hs, Segment.allWellTyped_grouped hss⟩

theorem Expr.hasType_grouped : ∀ {e : Expr} {t : ExprType}, e.Serves r top True t →
    (e.grouped t).HasType r t
  | .logical op _ _, _, ⟨rfl, ha, hb⟩ =>
    Expr.hasType_join op (Expr.hasType_enclosed (Expr.hasType_grouped ha))
      (Expr.hasType_enclosed (Expr.hasType_grouped hb))
  | .not _, _, ⟨ht, ha⟩ => ⟨ht, Expr.hasType_enclosed (Expr.hasType_grouped ha)⟩
  | .paren _, _, ⟨ht, ha⟩ => ⟨ht, Expr.hasType_grouped ha⟩
  | .compare _ _ _, _, ⟨ht, ha, hb⟩ => ⟨ht, Expr.hasType_grouped ha, Expr.hasType_grouped hb⟩
  | .exists _ _, _, ⟨ht, hss⟩ => ⟨ht, Segment.allWellTyped_grouped hss⟩
  | .query _ _, .logical, ⟨_, hss⟩ => ⟨rfl, Segment.allWellTyped_grouped hss⟩
  | .query _ _, .nodes, ⟨_, hss⟩ => ⟨.inl rfl, Segment.allWellTyped_grouped hss⟩
  | .query _ ss, .value, ⟨hsingular, hss⟩ =>
    ⟨.inr ⟨rfl, (Segment.all_isSingular_grouped ss).trans (hsingular rfl)⟩,
      Segment.allWellTyped_grouped hss⟩
  | .call _ _, _, ⟨hf, _, hfits, hargs⟩ => ⟨hf, hfits, Expr.haveTypes_grouped hargs⟩
  | .literal _, _, ⟨ht, _, hv⟩ => ⟨ht, Json.isPrimitive_asRead (hv trivial)⟩

theorem Expr.haveTypes_grouped : ∀ {es : List Expr} {ts : List ExprType},
    Expr.AllServe r top True es ts → Expr.HaveTypes r (Expr.allGrouped es ts) ts
  | [], _, h => by
    subst h
    rfl
  | _ :: _, [], h => h.elim
  | _ :: _, _ :: _, ⟨he, hes⟩ => ⟨Expr.hasType_grouped he, Expr.haveTypes_grouped hes⟩

end

/-- The spelled query is typed by the rules of those that come from a text. -/
theorem Query.wellTyped_grouped {q : Query} (h : q.Sound r top) : q.grouped.WellTyped r :=
  Segment.allWellTyped_grouped h

end Typing

section Meaning

variable {r : Registry} {strict : Prop} (document : Json)

theorem Json.asRead_eq {v : Json} (h : v.FitsWord (2 ^ 63 - 1)) : v.asRead = v := by
  match v with
  | .number (.int i) =>
    rw [asRead, Number.asRead, Numeral.ofInt_value? h.1 h.2.2]
    rfl
  | .number (.float _) | .null | .bool _ | .string _ | .array _ | .object _ => rfl

namespace Expr

/-- What an expression gives where a type is wanted. -/
def supplied (n : Node) (e : Expr) : ExprType → TypedValue
  | .value => .value (e.value? document n)
  | .logical => .logical (e.holds document n)
  | .nodes => .nodes (e.nodes document n)

theorem arguments_cons (n : Node) (e : Expr) (es : List Expr) (t : ExprType)
    (ts : List ExprType) : arguments document n (e :: es) (t :: ts) =
      e.supplied document n t :: arguments document n es ts := by
  cases t <;> rw [arguments] <;> rfl

theorem holds_join (op : LogicalOp) (left right : Expr) (n : Node) :
    (left.join op right).holds document n = (Expr.logical op left right).holds document n := by
  fun_induction join op left right with
  | case1 a b ih =>
    cases op <;> simp [holds, ih, Bool.and_assoc, Bool.or_assoc]
  | case2 op' a b hop => rfl
  | case3 e => rfl

theorem holds_enclosed (needed : Bool) (e : Expr) (n : Node) :
    (enclosed needed e).holds document n = e.holds document n := by
  cases needed with
  | true => rw [enclosed, if_pos rfl, holds]
  | false => rfl

end Expr

-- Where the literals are read as they are, each part selects or supplies the same as before. The
-- induction is on the tree, with its lists; a test inside a filter is that of any node.
mutual

theorem Selector.select_grouped : ∀ {s : Selector}, s.Sound r (2 ^ 63 - 1) strict → ∀ n,
    s.grouped.select document n = s.select document n
  | .name _, _, _ | .wildcard, _, _ | .index _, _, _ | .slice _ _ _, _, _ => rfl
  | .filter e, h, n => by
    have hholds (m : Node) : (e.grouped .logical).holds document m = e.holds document m :=
      TypedValue.logical.inj (Expr.supplied_grouped h m)
    simp only [Selector.grouped, Selector.select, hholds]

theorem Selector.selectAll_grouped : ∀ {ss : List Selector},
    Selector.AllSound r (2 ^ 63 - 1) strict ss →
    ∀ n, Selector.selectAll document n (Selector.allGrouped ss) =
      Selector.selectAll document n ss
  | [], _, _ => rfl
  | s :: ss, ⟨hs, hss⟩, n => by
    simp only [Selector.allGrouped, Selector.selectAll, Selector.select_grouped hs n,
      Selector.selectAll_grouped hss n]

theorem Segment.apply_grouped : ∀ {s : Segment}, s.Sound r (2 ^ 63 - 1) strict → ∀ n,
    s.grouped.apply document n = s.apply document n
  | .child _, ⟨_, hss⟩, n => Selector.selectAll_grouped hss n
  | .descendant ss, ⟨_, hss⟩, n => by
    have hselect := Selector.selectAll_grouped hss
    simp only [Segment.grouped, Segment.apply, hselect]

theorem Segment.applyAll_grouped : ∀ {ss : List Segment},
    Segment.AllSound r (2 ^ 63 - 1) strict ss →
    ∀ ns, Segment.applyAll document ns (Segment.allGrouped ss) = Segment.applyAll document ns ss
  | [], _, _ => rfl
  | s :: ss, ⟨hs, hss⟩, ns => by
    have happly := Segment.apply_grouped hs
    simp only [Segment.allGrouped, Segment.applyAll, happly, Segment.applyAll_grouped hss]

theorem Expr.supplied_grouped : ∀ {e : Expr} {t : ExprType}, e.Serves r (2 ^ 63 - 1) strict t → ∀ n,
    (e.grouped t).supplied document n t = e.supplied document n t
  | .logical op a b, _, ⟨rfl, ha, hb⟩, n => by
    have hleft := TypedValue.logical.inj (Expr.supplied_grouped ha n)
    have hright := TypedValue.logical.inj (Expr.supplied_grouped hb n)
    cases op <;> simp only [Expr.grouped, Expr.supplied, Expr.holds_join, Expr.holds,
      Expr.holds_enclosed, hleft, hright]
  | .not a, _, ⟨rfl, ha⟩, n => by
    have hinner := TypedValue.logical.inj (Expr.supplied_grouped ha n)
    simp only [Expr.grouped, Expr.supplied, Expr.holds, Expr.holds_enclosed, hinner]
  | .paren a, _, ⟨rfl, ha⟩, n => by
    have hinner := TypedValue.logical.inj (Expr.supplied_grouped ha n)
    simp only [Expr.grouped, Expr.supplied, Expr.holds, hinner]
  | .compare op a b, _, ⟨rfl, ha, hb⟩, n => by
    have hleft := TypedValue.value.inj (Expr.supplied_grouped ha n)
    have hright := TypedValue.value.inj (Expr.supplied_grouped hb n)
    simp only [Expr.grouped, Expr.supplied, Expr.holds, hleft, hright]
  | .exists anchor ss, _, ⟨rfl, hss⟩, n => by
    have hpath := Segment.applyAll_grouped hss
    cases anchor <;> simp only [Expr.grouped, Expr.supplied, Expr.holds, hpath]
  | .query anchor ss, t, ⟨_, hss⟩, n => by
    have hpath := Segment.applyAll_grouped hss
    cases anchor <;> cases t <;>
      simp only [Expr.grouped, Expr.supplied, Expr.holds, Expr.value?, Expr.nodes, hpath]
  | .call f args, t, ⟨_, _, _, hargs⟩, n => by
    have hgiven := Expr.arguments_grouped hargs n
    cases t <;>
      simp only [Expr.grouped, Expr.supplied, Expr.holds, Expr.value?, Expr.nodes, hgiven]
  | .literal v, _, ⟨_, hv, _⟩, n => by rw [Expr.grouped, Json.asRead_eq hv]

theorem Expr.arguments_grouped : ∀ {es : List Expr} {ts : List ExprType},
    Expr.AllServe r (2 ^ 63 - 1) strict es ts → ∀ n,
    Expr.arguments document n (Expr.allGrouped es ts) ts = Expr.arguments document n es ts
  | [], _, _, _ => rfl
  | _ :: _, [], h, _ => h.elim
  | e :: es, t :: ts, ⟨he, hes⟩, n => by
    rw [Expr.allGrouped, Expr.arguments_cons, Expr.arguments_cons, Expr.supplied_grouped he n,
      Expr.arguments_grouped hes n]

end

/-- Where the literals are read as they are, the spelled query selects what the query does. -/
theorem Query.evaluate_grouped {q : Query} (h : q.Sound r (2 ^ 63 - 1)) :
    q.grouped.evaluate document = q.evaluate document :=
  Segment.applyAll_grouped document h _

end Meaning
end JsonQuery
