import JsonQuery.Proofs.Grammar.Outline
import JsonQuery.Proofs.Query.Tokens

namespace JsonQuery
open Token
open Canonical (parenthesized)
open Outline (GoesOn Leads next leads_append)

namespace Expr

def isNegation : Expr → Bool
  | .not _ => true
  | _ => false

end Expr

mutual

/-- No negation is the operand of another. -/
def Selector.NegatesOnce : Selector → Prop
  | .filter e => e.NegatesOnce
  | _ => True

def Selector.AllNegateOnce : List Selector → Prop
  | [] => True
  | s :: ss => s.NegatesOnce ∧ Selector.AllNegateOnce ss

def Segment.NegatesOnce : Segment → Prop
  | .child ss | .descendant ss => Selector.AllNegateOnce ss

def Segment.AllNegateOnce : List Segment → Prop
  | [] => True
  | s :: ss => s.NegatesOnce ∧ Segment.AllNegateOnce ss

def Expr.NegatesOnce : Expr → Prop
  | .logical _ a b | .compare _ a b => a.NegatesOnce ∧ b.NegatesOnce
  | .not a => a.isNegation = false ∧ a.NegatesOnce
  | .paren a => a.NegatesOnce
  | .exists _ ss | .query _ ss => Segment.AllNegateOnce ss
  | .call _ args => Expr.AllNegateOnce args
  | .literal _ => True

def Expr.AllNegateOnce : List Expr → Prop
  | [] => True
  | e :: es => e.NegatesOnce ∧ Expr.AllNegateOnce es

end

def Query.NegatesOnce (q : Query) : Prop := Segment.AllNegateOnce q.segments

namespace Outline

/-- A text has tokens, and they fit. -/
def Allows (o : Outline) (cs : List Char) : Prop := ∃ ks o', Lexes .any cs ks ∧ o.Leads ks o'

variable {o : Outline} {cs rest : List Char}

theorem allows_append {ks : List Kind} (h : LexesFront cs ks rest) :
    o.Allows (cs ++ rest) ↔ ∃ o', o.Leads ks o' ∧ o'.Allows rest := by
  constructor
  · rintro ⟨all, o'', hall, hleads⟩
    obtain ⟨more, rfl, hmore⟩ := (h all).mp hall
    obtain ⟨o', hfront, hrest⟩ := leads_append.mp hleads
    exact ⟨o', hfront, more, o'', hmore, hrest⟩
  · rintro ⟨o', hfront, more, o'', hmore, hrest⟩
    exact ⟨ks ++ more, o'', (h _).mpr ⟨more, rfl, hmore⟩, hfront.trans hrest⟩

theorem Allows.token {k : Kind} (h : o.Allows (cs ++ rest)) (hk : LexesFront cs [k] rest) :
    o.Fits k ∧ (o.next k).Allows rest := by
  obtain ⟨o', ⟨hfits, rfl⟩, hrest⟩ := (allows_append hk).mp h
  exact ⟨hfits, hrest⟩

/-- What holds of every text that is allowed where an expression may begin, and that the places are
the same behind it. -/
def Ensures (cs : List Char) (good : Prop) : Prop :=
  ∀ ps last rest, ps.head? ≠ some .selectors → ¬ GoesOn last → Separates rest →
    Outline.Allows ⟨ps, last⟩ (cs ++ rest) →
      good ∧ ∃ last', last' ≠ .openBracket ∧ Outline.Allows ⟨ps, last'⟩ rest

namespace Ensures

variable {good good' : Prop} {cs' : List Char}

theorem imp (h : Ensures cs good) (hgood : good → good') : Ensures cs good' := by
  intro ps last rest hp hl hr hall
  obtain ⟨hg, hend⟩ := h ps last rest hp hl hr hall
  exact ⟨hgood hg, hend⟩

theorem parenthesized (h : Ensures cs good) : Ensures (parenthesized cs) good := by
  intro ps last rest _ _ _ hall
  have hopen : LexesFront ['('] [.openParen] (cs ++ ([')'] ++ rest)) :=
    Symbol.openParen.lexesBefore _
  have htext : Canonical.parenthesized cs ++ rest = ['('] ++ (cs ++ ([')'] ++ rest)) := by
    simp [Canonical.parenthesized]
  rw [htext] at hall
  obtain ⟨-, hinner⟩ := hall.token hopen
  obtain ⟨hgood, last', -, hclose⟩ :=
    h (.parentheses :: ps) _ _ (by simp) (by simp [GoesOn]) (Separates.cons (by simp) _) hinner
  obtain ⟨-, hrest⟩ := hclose.token (Symbol.closeParen.lexesBefore _)
  exact ⟨hgood, .closeParen, by simp, hrest⟩

theorem enclosed (needed : Bool) (h : Ensures cs good) :
    Ensures (if needed then Canonical.parenthesized cs else cs) good := by
  cases needed with
  | true => exact h.parenthesized
  | false => exact h

/-- Two texts with an operator between them, which stays in its place. -/
theorem joined (h : Ensures cs good) (h' : Ensures cs' good') {symbol : List Char} {k : Kind}
    (hs : LexesBefore (' ' :: symbol ++ [' ']) [k]) (hk : ∀ o : Outline, o.next k = ⟨o.places, k⟩)
    (hg : ¬ GoesOn k) : Ensures (cs ++ (' ' :: symbol ++ [' ']) ++ cs') (good ∧ good') := by
  intro ps last rest hp hl hr hall
  rw [List.append_assoc, List.append_assoc] at hall
  obtain ⟨hgood, last', -, hop⟩ := h ps last _ hp hl (Separates.cons (by simp) _) hall
  obtain ⟨-, hright⟩ := hop.token (hs _)
  rw [hk] at hright
  obtain ⟨hgood', hend⟩ := h' ps k rest hp hg hr hright
  exact ⟨⟨hgood, hgood'⟩, hend⟩

end Ensures

theorem next_anchor (o : Outline) (anchor : Anchor) :
    o.next anchor.kind = ⟨o.places, anchor.kind⟩ := by cases anchor <;> rfl

theorem next_literal (o : Outline) (v : Json) :
    v.kind ≠ .openBracket ∧ o.next v.kind = ⟨o.places, v.kind⟩ := by
  match v with
  | .null | .bool _ | .string _ | .array _ | .object _ => exact ⟨by simp [Json.kind], rfl⟩
  | .number (.int _) | .number (.float _) => exact ⟨by simp [Json.kind], rfl⟩

/-- The text of an array begins with a bracket that belongs to no query, and that of an object with
no token at all. -/
theorem ensures_literal (v : Json) : Ensures (Canonical.literal v) v.IsPrimitive := by
  intro ps last rest hp hl hr hall
  have hprimitive (h : v.IsPrimitive) :
      v.IsPrimitive ∧ ∃ last', last' ≠ .openBracket ∧ Allows ⟨ps, last'⟩ rest := by
    obtain ⟨-, hrest⟩ := hall.token (Canonical.lexesApart_literal h rest hr)
    obtain ⟨hne, hnext⟩ := next_literal ⟨ps, last⟩ v
    exact ⟨h, v.kind, hne, hnext ▸ hrest⟩
  cases v with
  | null | bool _ | number _ | string _ => exact hprimitive trivial
  | array items =>
    obtain ⟨tail, htail⟩ : ∃ tail, Canonical.literal (.array items) = '[' :: tail := by
      cases items <;> exact ⟨_, rfl⟩
    rw [htail] at hall
    have hbracket := @Allows.token _ ['['] (tail ++ rest) _ hall
      (Symbol.openBracket.lexesBefore _)
    exact absurd hbracket.1 hl
  | object members =>
    obtain ⟨tail, htail⟩ : ∃ tail, Canonical.literal (.object members) = '\x7b' :: tail := by
      rcases members with _ | ⟨⟨name, value⟩, members⟩ <;> exact ⟨_, rfl⟩
    rw [htail] at hall
    obtain ⟨ks, -, hlexes, -⟩ := hall
    obtain ⟨s, hs, -⟩ := hlexes 0
    rw [List.cons_append, scanFrom] at hs
    cases hs

theorem leads_indexKinds {i : Option Int} {ps : List Place} {last : Kind} {o' : Outline}
    (h : Leads ⟨.selectors :: ps, last⟩ (indexKinds i) o') : (∀ j ∈ i, InIndexRange j) ∧
      ∃ last', (last ≠ .openBracket → last' ≠ .openBracket) ∧ o' = ⟨.selectors :: ps, last'⟩ := by
  cases i with
  | none =>
    obtain rfl := h
    exact ⟨by simp, last, id, rfl⟩
  | some i =>
    obtain ⟨hrange, rfl⟩ := h
    have hi : InIndexRange (Numeral.ofInt i).integer := hrange rfl
    rw [Numeral.ofInt_integer] at hi
    exact ⟨by simpa using hi, _, by simp, rfl⟩

theorem leads_slice {start stop step : Option Int} {ps : List Place} {last : Kind} {o' : Outline}
    (h : Leads ⟨.selectors :: ps, last⟩ (sliceKinds start stop step) o') :
    ((∀ i ∈ start, InIndexRange i) ∧ (∀ i ∈ stop, InIndexRange i) ∧ ∀ i ∈ step, InIndexRange i) ∧
      ∃ last', last' ≠ .openBracket ∧ o' = ⟨.selectors :: ps, last'⟩ := by
  unfold sliceKinds at h
  rw [List.append_assoc] at h
  obtain ⟨_, hfirst, hcolon⟩ := leads_append.mp h
  obtain ⟨hstart, k, -, rfl⟩ := leads_indexKinds hfirst
  obtain ⟨_, ⟨-, hsecond⟩, hthird⟩ := leads_append.mp hcolon
  obtain ⟨hstop, k', hne, rfl⟩ := leads_indexKinds hsecond
  cases step with
  | none =>
    exact ⟨⟨hstart, hstop, by simp⟩, k', hne (by simp), hthird.symm⟩
  | some i =>
    obtain ⟨hstep, k'', hne', rfl⟩ := leads_indexKinds hthird.2
    exact ⟨⟨hstart, hstop, hstep⟩, k'', hne' (by simp), rfl⟩

/-- A negation is allowed behind everything but another. -/
theorem allows_not {r : Registry} {top : Int} {strict : Prop} {a : Expr}
    (ha : a.Serves r top strict .logical) {ps : List Place} {last : Kind}
    (h : Allows ⟨ps, last⟩ ((Expr.not a).chars ++ rest)) : last ≠ .not ∧ Allows ⟨ps, .not⟩
      ((if a.isCompound then Canonical.parenthesized a.chars else a.chars) ++ rest) := by
  obtain ⟨c, tail, hchars, hc⟩ := Expr.negated_head ha
  have htext : (Expr.not a).chars ++ rest = ['!'] ++
      ((if a.isCompound then Canonical.parenthesized a.chars else a.chars) ++ rest) := rfl
  rw [htext] at h
  exact h.token (lexesFront_not (by rw [hchars]; simpa using hc))

end Outline

section Compiled

open Outline (Allows Ensures)

variable {r : Registry} {top : Int} {strict : Prop}

-- Where the text of a tree is allowed, the tree is sound and negates once. The induction is on the
-- tree, with its lists.
mutual

theorem Selector.sound_of_allows : ∀ {s : Selector}, s.Sound r top strict →
    ∀ {ps last rest}, Separates rest → Allows ⟨.selectors :: ps, last⟩ (s.chars ++ rest) →
      (s.Sound r top True ∧ s.NegatesOnce) ∧ ∃ p last', p ≠ .parentheses ∧
        last' ≠ .openBracket ∧ Allows ⟨p :: ps, last'⟩ rest
  | .name name, _, _, _, rest, _, hall => by
    obtain ⟨-, hrest⟩ := hall.token (lexesBefore_string name rest)
    exact ⟨⟨trivial, trivial⟩, .selectors, .string name, by simp, by simp, hrest⟩
  | .wildcard, _, _, _, _, _, hall => by
    obtain ⟨-, hrest⟩ := hall.token (Symbol.wildcard.lexesBefore _)
    exact ⟨⟨trivial, trivial⟩, .selectors, .wildcard, by simp, by simp, hrest⟩
  | .index i, _, _, _, _, hr, hall => by
    obtain ⟨hrange, hrest⟩ := hall.token (Canonical.lexesApart_int i _ hr)
    exact ⟨⟨fun _ => Numeral.ofInt_integer i ▸ hrange rfl, trivial⟩, .selectors, _, by simp,
      by simp, hrest⟩
  | .slice start stop step, _, _, _, _, hr, hall => by
    obtain ⟨_, hleads, hrest⟩ :=
      (Outline.allows_append (Canonical.lexesApart_slice start stop step _ hr)).mp hall
    obtain ⟨hranges, last', hne, rfl⟩ := Outline.leads_slice hleads
    exact ⟨⟨fun _ => hranges, trivial⟩, .selectors, last', by simp, hne, hrest⟩
  | .filter e, h, ps, last, rest, hr, hall => by
    have htext : (Selector.filter e).chars ++ rest = ['?'] ++ (e.chars ++ rest) := rfl
    rw [htext] at hall
    obtain ⟨-, htest⟩ := hall.token (Symbol.question.lexesBefore _)
    obtain ⟨hgood, last', hne, hrest⟩ :=
      Expr.sound_of_allows h (.filter :: ps) .question rest (by simp) (by simp [GoesOn]) hr htest
    exact ⟨hgood, .filter, last', by simp, hne, hrest⟩

theorem Selector.sound_of_allows_tail : ∀ {ss : List Selector}, Selector.AllSound r top strict ss →
    ∀ {p ps last rest}, p ≠ .parentheses → last ≠ .openBracket → Separates rest →
      Allows ⟨p :: ps, last⟩ (Selector.tailChars ss ++ rest) →
      (Selector.AllSound r top True ss ∧ Selector.AllNegateOnce ss) ∧ ∃ p last', p ≠ .parentheses ∧
        last' ≠ .openBracket ∧ Allows ⟨p :: ps, last'⟩ rest
  | [], _, p, _, last, _, hp, hl, _, hall => ⟨⟨trivial, trivial⟩, p, last, hp, hl, hall⟩
  | s :: ss, ⟨hs, hss⟩, p, ps, last, rest, hp, hl, hr, hall => by
    have htext : Selector.tailChars (s :: ss) ++ rest =
        [',', ' '] ++ (s.chars ++ (Selector.tailChars ss ++ rest)) := by
      simp [Selector.tailChars]
    rw [htext] at hall
    obtain ⟨-, hfirst⟩ := hall.token (Canonical.lexesBefore_comma _)
    rw [Outline.next_comma hp] at hfirst
    obtain ⟨⟨hsound, honce⟩, p', last', hp', hl', hothers⟩ :=
      Selector.sound_of_allows hs ((Selector.separates_tailChars ss).append hr) hfirst
    obtain ⟨⟨hsounds, honces⟩, hrest⟩ := Selector.sound_of_allows_tail hss hp' hl' hr hothers
    exact ⟨⟨⟨hsound, hsounds⟩, honce, honces⟩, hrest⟩

theorem Selector.sound_of_allows_list : ∀ {ss : List Selector}, Selector.AllSound r top strict ss →
    ∀ {ps rest}, Allows ⟨.selectors :: ps, .openBracket⟩ (Selector.listChars ss ++ ([']'] ++ rest)) →
      (ss ≠ [] ∧ Selector.AllSound r top True ss ∧ Selector.AllNegateOnce ss) ∧
        Allows ⟨ps, .closeBracket⟩ rest
  | [], _, ps, rest, hall => by
    have hclose : Allows ⟨.selectors :: ps, .openBracket⟩ ([']'] ++ rest) := hall
    obtain ⟨hfits, -⟩ := hclose.token (Symbol.closeBracket.lexesBefore rest)
    exact absurd rfl hfits
  | s :: ss, ⟨hs, hss⟩, ps, rest, hall => by
    have hclose : Separates ([']'] ++ rest) := Separates.cons (by simp) rest
    rw [Selector.listChars, List.append_assoc] at hall
    obtain ⟨⟨hsound, honce⟩, p, last, hp, hl, hothers⟩ :=
      Selector.sound_of_allows hs ((Selector.separates_tailChars ss).append hclose) hall
    obtain ⟨⟨hsounds, honces⟩, p', last', -, -, hend⟩ :=
      Selector.sound_of_allows_tail hss hp hl hclose hothers
    obtain ⟨-, hrest⟩ := hend.token (Symbol.closeBracket.lexesBefore rest)
    exact ⟨⟨by simp, ⟨hsound, hsounds⟩, honce, honces⟩, hrest⟩

theorem Segment.sound_of_allows : ∀ {s : Segment}, s.Sound r top strict →
    ∀ {ps last rest}, GoesOn last → Allows ⟨ps, last⟩ (s.chars ++ rest) →
      (s.Sound r top True ∧ s.NegatesOnce) ∧ Allows ⟨ps, .closeBracket⟩ rest
  | .child ss, ⟨_, hss⟩, ps, last, rest, _, hall => by
    have htext : (Segment.child ss).chars ++ rest =
        ['['] ++ (Selector.listChars ss ++ ([']'] ++ rest)) := by simp [Segment.chars]
    rw [htext] at hall
    obtain ⟨-, hinner⟩ := hall.token (Symbol.openBracket.lexesBefore _)
    obtain ⟨⟨hne, hsound, honce⟩, hrest⟩ := Selector.sound_of_allows_list hss hinner
    exact ⟨⟨⟨fun _ => hne, hsound⟩, honce⟩, hrest⟩
  | .descendant ss, ⟨_, hss⟩, ps, last, rest, _, hall => by
    have htext : (Segment.descendant ss).chars ++ rest =
        ['.', '.', '['] ++ (Selector.listChars ss ++ ([']'] ++ rest)) := by simp [Segment.chars]
    rw [htext] at hall
    obtain ⟨_, ⟨-, -, rfl⟩, hinner⟩ :=
      (Outline.allows_append (lexesBefore_descendants _)).mp hall
    obtain ⟨⟨hne, hsound, honce⟩, hrest⟩ := Selector.sound_of_allows_list hss hinner
    exact ⟨⟨⟨fun _ => hne, hsound⟩, honce⟩, hrest⟩

theorem Segment.sound_of_allows_list : ∀ {ss : List Segment}, Segment.AllSound r top strict ss →
    ∀ {ps last rest}, GoesOn last → Allows ⟨ps, last⟩ (Segment.listChars ss ++ rest) →
      (Segment.AllSound r top True ss ∧ Segment.AllNegateOnce ss) ∧
        ∃ last', last' ≠ .openBracket ∧ Allows ⟨ps, last'⟩ rest
  | [], _, _, last, _, hl, hall => ⟨⟨trivial, trivial⟩, last, hl.ne_openBracket, hall⟩
  | s :: ss, ⟨hs, hss⟩, ps, last, rest, hl, hall => by
    rw [Segment.listChars, List.append_assoc] at hall
    obtain ⟨⟨hsound, honce⟩, hothers⟩ := Segment.sound_of_allows hs hl hall
    have hgoes : GoesOn .closeBracket := trivial
    obtain ⟨⟨hsounds, honces⟩, hrest⟩ := Segment.sound_of_allows_list hss hgoes hothers
    exact ⟨⟨⟨hsound, hsounds⟩, honce, honces⟩, hrest⟩

theorem Expr.sound_of_allows : ∀ {e : Expr} {t : ExprType}, e.Serves r top strict t →
    Ensures e.chars (e.Serves r top True t ∧ e.NegatesOnce)
  | .logical op a b, _, ⟨ht, ha, hb⟩ => by
    have hboth := ((Expr.sound_of_allows ha).enclosed (op.encloses a)).joined
      ((Expr.sound_of_allows hb).enclosed (op.encloses b)) (lexesBefore_logical op)
      (fun _ => rfl) (by simp [GoesOn])
    rw [Expr.chars_logical]
    exact hboth.imp (fun ⟨⟨hsa, hna⟩, hsb, hnb⟩ => ⟨⟨ht, hsa, hsb⟩, hna, hnb⟩)
  | .not a, _, ⟨ht, ha⟩ => by
    have hoperand := (Expr.sound_of_allows ha).enclosed a.isCompound
    intro ps last rest hp _ hr hall
    obtain ⟨-, hinner⟩ := Outline.allows_not ha hall
    obtain ⟨⟨hs, hn⟩, hend⟩ := hoperand ps .not rest hp (by simp [GoesOn]) hr hinner
    refine ⟨⟨⟨ht, hs⟩, ?_, hn⟩, hend⟩
    cases a with
    | not b => exact absurd rfl (Outline.allows_not ha.2 hinner).1
    | _ => rfl
  | .paren a, _, ⟨ht, ha⟩ =>
    (Expr.sound_of_allows ha).parenthesized.imp (fun ⟨hs, hn⟩ => ⟨⟨ht, hs⟩, hn⟩)
  | .compare op a b, _, ⟨ht, ha, hb⟩ => by
    have hboth := (Expr.sound_of_allows ha).joined (Expr.sound_of_allows hb)
      (lexesBefore_comparison op) (fun _ => rfl) (by simp [GoesOn])
    have htext : (Expr.compare op a b).chars =
        a.chars ++ (' ' :: op.symbol.toList ++ [' ']) ++ b.chars := by simp [Expr.chars]
    rw [htext]
    exact hboth.imp (fun ⟨⟨hsa, hna⟩, hsb, hnb⟩ => ⟨⟨ht, hsa, hsb⟩, hna, hnb⟩)
  | .exists anchor ss, _, ⟨ht, hss⟩ | .query anchor ss, _, ⟨ht, hss⟩ => by
    intro ps last rest _ _ _ hall
    have hanchor : Allows ⟨ps, last⟩ ([anchor.char] ++ (Segment.listChars ss ++ rest)) := hall
    obtain ⟨-, hpath⟩ := hanchor.token (Canonical.lexesBefore_anchor anchor _)
    rw [Outline.next_anchor] at hpath
    obtain ⟨⟨hsound, honce⟩, hend⟩ := Segment.sound_of_allows_list hss anchor.goesOn hpath
    exact ⟨⟨⟨ht, hsound⟩, honce⟩, hend⟩
  | .call f args, _, ⟨hf, hname, hfits, hargs⟩ => by
    intro ps last rest _ _ _ hall
    have htext : (Expr.call f args).chars ++ rest =
        (f.name.toList ++ ['(']) ++ (Expr.listChars args ++ ([')'] ++ rest)) := by
      simp [Expr.chars, parenthesized]
    rw [htext] at hall
    obtain ⟨_, ⟨-, -, rfl⟩, hinner⟩ :=
      (Outline.allows_append (lexesBefore_function hname _)).mp hall
    obtain ⟨⟨hsound, honce⟩, hrest⟩ := Expr.sound_of_allows_list hargs hinner
    exact ⟨⟨⟨hf, hname, hfits, hsound⟩, honce⟩, .closeParen, by simp, hrest⟩
  | .literal v, _, ⟨ht, hv, _⟩ =>
    (Outline.ensures_literal v).imp (fun hp => ⟨⟨ht, hv, fun _ => hp⟩, trivial⟩)

theorem Expr.sound_of_allows_tail : ∀ {es : List Expr} {ts : List ExprType},
    Expr.AllServe r top strict es ts → ∀ {ps last rest}, Separates rest →
      Allows ⟨.parentheses :: ps, last⟩ (Expr.tailChars es ++ rest) →
      (Expr.AllServe r top True es ts ∧ Expr.AllNegateOnce es) ∧
        ∃ last', Allows ⟨.parentheses :: ps, last'⟩ rest
  | [], _, h, _, last, _, _, hall => ⟨⟨h, trivial⟩, last, hall⟩
  | _ :: _, [], h, _, _, _, _, _ => h.elim
  | e :: es, _ :: _, ⟨he, hes⟩, ps, last, rest, hr, hall => by
    have htext : Expr.tailChars (e :: es) ++ rest =
        [',', ' '] ++ (e.chars ++ (Expr.tailChars es ++ rest)) := by
      simp [Expr.tailChars]
    rw [htext] at hall
    obtain ⟨-, hfirst⟩ := hall.token (Canonical.lexesBefore_comma _)
    obtain ⟨⟨hsound, honce⟩, last', -, hothers⟩ :=
      Expr.sound_of_allows he (.parentheses :: ps) .comma _ (by simp) (by simp [GoesOn])
        ((Expr.separates_tailChars es).append hr) hfirst
    obtain ⟨⟨hsounds, honces⟩, hrest⟩ := Expr.sound_of_allows_tail hes hr hothers
    exact ⟨⟨⟨hsound, hsounds⟩, honce, honces⟩, hrest⟩

theorem Expr.sound_of_allows_list : ∀ {es : List Expr} {ts : List ExprType},
    Expr.AllServe r top strict es ts → ∀ {ps rest},
      Allows ⟨.parentheses :: ps, .openParen⟩ (Expr.listChars es ++ ([')'] ++ rest)) →
      (Expr.AllServe r top True es ts ∧ Expr.AllNegateOnce es) ∧ Allows ⟨ps, .closeParen⟩ rest
  | [], _, h, ps, rest, hall => by
    have hclose : Allows ⟨.parentheses :: ps, .openParen⟩ ([')'] ++ rest) := hall
    obtain ⟨-, hrest⟩ := hclose.token (Symbol.closeParen.lexesBefore rest)
    exact ⟨⟨h, trivial⟩, hrest⟩
  | _ :: _, [], h, _, _, _ => h.elim
  | e :: es, _ :: _, ⟨he, hes⟩, ps, rest, hall => by
    have hclose : Separates ([')'] ++ rest) := Separates.cons (by simp) rest
    rw [Expr.listChars, List.append_assoc] at hall
    obtain ⟨⟨hsound, honce⟩, last', -, hothers⟩ :=
      Expr.sound_of_allows he (.parentheses :: ps) .openParen _ (by simp) (by simp [GoesOn])
        ((Expr.separates_tailChars es).append hclose) hall
    obtain ⟨⟨hsounds, honces⟩, last'', hend⟩ := Expr.sound_of_allows_tail hes hclose hothers
    obtain ⟨-, hrest⟩ := hend.token (Symbol.closeParen.lexesBefore rest)
    exact ⟨⟨⟨hsound, hsounds⟩, honce, honces⟩, hrest⟩

end

/-- A built query whose text has tokens that spell a well typed one is sound and negates once. -/
theorem Query.sound_of_spells {q q' : Query} {ks : List Kind}
    (h : Segment.AllSound r top strict q.segments) (hl : Lexes .any q.chars ks)
    (hs : q'.Spells ks) (ht : q'.WellTyped r) :
    q.Sound r top ∧ q.NegatesOnce := by
  obtain ⟨o, hleads⟩ := Query.leads hs ht
  have hall : Allows .start (['$'] ++ (Segment.listChars q.segments ++ [])) := by
    rw [List.append_nil]
    exact ⟨ks, o, hl, hleads⟩
  obtain ⟨-, hpath⟩ := hall.token (Canonical.lexesBefore_anchor .root _)
  exact (Segment.sound_of_allows_list h (Anchor.goesOn .root) hpath).1

end Compiled
end JsonQuery
