import JsonQuery.Proofs.Query.Canonical
import JsonQuery.Proofs.Query.Grouping

namespace JsonQuery
open Token
open Canonical (parenthesized)

def enclosedKinds (needed : Bool) (ks : List Kind) : List Kind :=
  if needed then .openParen :: ks ++ [.closeParen] else ks

mutual

/-- The kinds of the tokens of the canonical text. -/
def Selector.kinds : Selector → List Kind
  | .name name => [.string name]
  | .wildcard => [.wildcard]
  | .index i => [.number (.ofInt i)]
  | .slice start stop step => sliceKinds start stop step
  | .filter e => .question :: e.kinds

/-- The tokens of the selectors behind the first. -/
def Selector.tailKinds : List Selector → List Kind
  | [] => []
  | s :: ss => .comma :: s.kinds ++ Selector.tailKinds ss

def Selector.listKinds : List Selector → List Kind
  | [] => []
  | s :: ss => s.kinds ++ Selector.tailKinds ss

def Segment.kinds : Segment → List Kind
  | .child ss => .openBracket :: Selector.listKinds ss ++ [.closeBracket]
  | .descendant ss => .doubleDot :: .openBracket :: Selector.listKinds ss ++ [.closeBracket]

def Segment.listKinds : List Segment → List Kind
  | [] => []
  | s :: ss => s.kinds ++ Segment.listKinds ss

def Expr.kinds : Expr → List Kind
  | .logical op a b =>
    enclosedKinds (op.encloses a) a.kinds ++ .logical op :: enclosedKinds (op.encloses b) b.kinds
  | .not a => .not :: enclosedKinds a.isCompound a.kinds
  | .paren a => .openParen :: a.kinds ++ [.closeParen]
  | .compare op a b => a.kinds ++ .comparison op :: b.kinds
  | .exists anchor ss | .query anchor ss => anchor.kind :: Segment.listKinds ss
  | .call f args => .function f.name :: .openParen :: Expr.listKinds args ++ [.closeParen]
  | .literal v => [v.kind]

/-- The tokens of the arguments behind the first. -/
def Expr.tailKinds : List Expr → List Kind
  | [] => []
  | e :: es => .comma :: e.kinds ++ Expr.tailKinds es

def Expr.listKinds : List Expr → List Kind
  | [] => []
  | e :: es => e.kinds ++ Expr.tailKinds es

end

def Query.kinds (q : Query) : List Kind := .root :: Segment.listKinds q.segments

section Lexing

variable {r : Registry} {top : Int}

theorem lexesApart_enclosed {cs : List Char} {ks : List Kind} (needed : Bool)
    (h : LexesApart cs ks) :
    LexesApart (if needed then parenthesized cs else cs) (enclosedKinds needed ks) := by
  cases needed with
  | false => exact h
  | true =>
    exact (Symbol.openParen.lexesBefore.append
      (h.closed (by simp) Symbol.closeParen.lexesBefore)).apart

theorem Expr.chars_logical (op : LogicalOp) (a b : Expr) : (Expr.logical op a b).chars =
    (if op.encloses a then parenthesized a.chars else a.chars) ++
      (' ' :: op.symbol.toList ++ [' ']) ++
      (if op.encloses b then parenthesized b.chars else b.chars) := by
  cases op <;> rfl

/-- No test starts with an equals sign. What `!` stands before is a test, in parentheses if it is
compound. -/
theorem Expr.negated_head {strict : Prop} {a : Expr} (h : a.Serves r top strict .logical) :
    ∃ c tail, (if a.isCompound then parenthesized a.chars else a.chars) = c :: tail ∧ c ≠ '=' := by
  have hanchor (anchor : Anchor) : anchor.char ≠ '=' := by cases anchor <;> decide
  match a with
  | .logical _ a b | .compare _ a b => exact ⟨'(', _, rfl, by decide⟩
  | .not a => exact ⟨'!', _, rfl, by decide⟩
  | .paren a => exact ⟨'(', _, rfl, by decide⟩
  | .exists anchor ss | .query anchor ss => exact ⟨anchor.char, _, rfl, hanchor anchor⟩
  | .literal v => exact absurd h.1 (by decide)
  | .call f args =>
    have hname := h.2.1
    cases hf : f.name.toList with
    | nil =>
      rw [hf] at hname
      cases hname
    | cons c tail =>
      rw [hf] at hname
      refine ⟨c, tail ++ parenthesized (Expr.listChars args), ?_, ?_⟩
      · change f.name.toList ++ _ = _
        rw [hf]
        rfl
      · rintro rfl
        cases hname

-- Every part of a sound tree is lexed as its tokens, before the end and before what separates it
-- from the next part. The induction is on the tree, with its lists.
mutual

theorem Selector.lexesApart : ∀ {s : Selector}, s.Sound r top True → LexesApart s.chars s.kinds
  | .name name, _ => (lexesBefore_string name).apart
  | .wildcard, _ => Symbol.wildcard.lexesBefore.apart
  | .index i, _ => Canonical.lexesApart_int i
  | .slice start stop step, _ => Canonical.lexesApart_slice start stop step
  | .filter _, h => Symbol.question.lexesBefore.append_apart (Expr.lexesApart h)

theorem Selector.lexesApart_tail : ∀ {ss : List Selector}, Selector.AllSound r top True ss →
    LexesApart (Selector.tailChars ss) (Selector.tailKinds ss)
  | [], _ => LexesBefore.nil.apart
  | _ :: ss, ⟨hs, hss⟩ =>
    (Canonical.lexesBefore_comma.append_apart (Selector.lexesApart hs)).append_apart
      (Selector.separates_tailChars ss) (Selector.lexesApart_tail hss)

theorem Selector.lexesApart_list : ∀ {ss : List Selector}, Selector.AllSound r top True ss →
    LexesApart (Selector.listChars ss) (Selector.listKinds ss)
  | [], _ => LexesBefore.nil.apart
  | _ :: ss, ⟨hs, hss⟩ =>
    (Selector.lexesApart hs).append_apart (Selector.separates_tailChars ss)
      (Selector.lexesApart_tail hss)

theorem Segment.lexesBefore : ∀ {s : Segment}, s.Sound r top True → LexesBefore s.chars s.kinds
  | .child _, ⟨_, hss⟩ => Symbol.openBracket.lexesBefore.append
      ((Selector.lexesApart_list hss).closed (by simp) Symbol.closeBracket.lexesBefore)
  | .descendant _, ⟨_, hss⟩ => lexesBefore_descendants.append
      ((Selector.lexesApart_list hss).closed (by simp) Symbol.closeBracket.lexesBefore)

theorem Segment.lexesBefore_list : ∀ {ss : List Segment}, Segment.AllSound r top True ss →
    LexesBefore (Segment.listChars ss) (Segment.listKinds ss)
  | [], _ => LexesBefore.nil
  | _ :: _, ⟨hs, hss⟩ => (Segment.lexesBefore hs).append (Segment.lexesBefore_list hss)

theorem Expr.lexesApart : ∀ {e : Expr} {t : ExprType}, e.Serves r top True t →
    LexesApart e.chars e.kinds
  | .logical op a b, _, ⟨_, ha, hb⟩ => by
    have hleft := lexesApart_enclosed (op.encloses a) (Expr.lexesApart ha)
    have hright := lexesApart_enclosed (op.encloses b) (Expr.lexesApart hb)
    rw [Expr.chars_logical]
    simpa [Expr.kinds] using (hleft.append (Separates.cons (by simp) _) (by simp)
      (lexesBefore_logical op)).append_apart hright
  | .not a, _, ⟨_, ha⟩ => lexesApart_not (lexesApart_enclosed a.isCompound (Expr.lexesApart ha))
      (Expr.negated_head ha)
  | .paren _, _, ⟨_, ha⟩ => lexesApart_enclosed true (Expr.lexesApart ha)
  | .compare op a b, _, ⟨_, ha, hb⟩ => by
    have hall := ((Expr.lexesApart ha).append (Separates.cons (by simp) _) (by simp)
      (lexesBefore_comparison op)).append_apart (Expr.lexesApart hb)
    simpa [Expr.chars, Expr.kinds] using hall
  | .exists anchor _, _, ⟨_, hss⟩ | .query anchor _, _, ⟨_, hss⟩ =>
    ((Canonical.lexesBefore_anchor anchor).append (Segment.lexesBefore_list hss)).apart
  | .call f args, _, ⟨_, hname, _, hargs⟩ => by
    have hcall := (lexesBefore_function hname).append
      ((Expr.lexesApart_list hargs).closed (by simp) Symbol.closeParen.lexesBefore)
    simpa [Expr.chars, Expr.kinds, parenthesized] using hcall.apart
  | .literal _, _, ⟨_, _, hv⟩ => Canonical.lexesApart_literal (hv trivial)

theorem Expr.lexesApart_tail : ∀ {es : List Expr} {ts : List ExprType},
    Expr.AllServe r top True es ts → LexesApart (Expr.tailChars es) (Expr.tailKinds es)
  | [], _, _ => LexesBefore.nil.apart
  | _ :: _, [], h => h.elim
  | _ :: es, _ :: _, ⟨he, hes⟩ =>
    (Canonical.lexesBefore_comma.append_apart (Expr.lexesApart he)).append_apart
      (Expr.separates_tailChars es) (Expr.lexesApart_tail hes)

theorem Expr.lexesApart_list : ∀ {es : List Expr} {ts : List ExprType},
    Expr.AllServe r top True es ts → LexesApart (Expr.listChars es) (Expr.listKinds es)
  | [], _, _ => LexesBefore.nil.apart
  | _ :: _, [], h => h.elim
  | _ :: es, _ :: _, ⟨he, hes⟩ =>
    (Expr.lexesApart he).append_apart (Expr.separates_tailChars es) (Expr.lexesApart_tail hes)

end

theorem Query.lexes {q : Query} (h : q.Sound r top) : Lexes .any q.chars q.kinds :=
  ((Canonical.lexesBefore_anchor .root).append (Segment.lexesBefore_list h)).lexes

end Lexing
end JsonQuery
