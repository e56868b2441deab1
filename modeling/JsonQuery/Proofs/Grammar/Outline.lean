import JsonQuery.Proofs.Grammar.Completeness

namespace JsonQuery
open Token (Kind)

/-- Where a token stands: between the selectors of a segment, in a filter there, or between
parentheses. -/
inductive Place where
  | selectors
  | filter
  | parentheses

/-- What has been passed of a query: the places that are open, the innermost first, and the last
token. -/
structure Outline where
  places : List Place
  last : Kind

namespace Outline

/-- The tokens that a bracket may follow, since a query goes on behind them. -/
def GoesOn : Kind → Prop
  | .root | .current | .closeBracket | .name _ | .wildcard | .doubleDot => True
  | _ => False

/-- Whether a token may come next, as far as the last one and its place tell: brackets are not
empty and belong to a query, no negation follows another, and numbers between selectors are in
range. -/
def Fits (o : Outline) : Kind → Prop
  | .openBracket => GoesOn o.last
  | .closeBracket => o.last ≠ .openBracket
  | .not => o.last ≠ .not
  | .number n => o.places.head? = some .selectors → InIndexRange n.integer
  | _ => True

def next (o : Outline) (k : Kind) : Outline where
  last := k
  places :=
    match k, o.places with
    | .openBracket, ps => .selectors :: ps
    | .openParen, ps => .parentheses :: ps
    | .closeBracket, ps | .closeParen, ps => ps.tail
    | .question, ps => .filter :: ps.tail
    | .comma, .filter :: ps => .selectors :: ps
    | _, ps => ps

/-- Tokens lead from one outline to another, and each of them fits. -/
def Leads : Outline → List Kind → Outline → Prop
  | o, [], o' => o = o'
  | o, k :: ks, o' => o.Fits k ∧ (o.next k).Leads ks o'

theorem leads_append {o o'' : Outline} {ks ks' : List Kind} :
    o.Leads (ks ++ ks') o'' ↔ ∃ o', o.Leads ks o' ∧ o'.Leads ks' o'' := by
  induction ks generalizing o with
  | nil => simp [Leads]
  | cons k ks ih => simp [Leads, ih, and_assoc]

theorem Leads.trans {o o' o'' : Outline} {ks ks' : List Kind} (h : o.Leads ks o')
    (h' : o'.Leads ks' o'') : o.Leads (ks ++ ks') o'' := leads_append.mpr ⟨o', h, h'⟩

/-- Behind a comma, a place in brackets is one for selectors. -/
theorem next_comma {p : Place} (hp : p ≠ .parentheses) (ps : List Place) (last : Kind) :
    next ⟨p :: ps, last⟩ .comma = ⟨.selectors :: ps, .comma⟩ := by
  cases p with
  | parentheses => exact absurd rfl hp
  | selectors | filter => rfl

theorem GoesOn.ne_openBracket {k : Kind} (h : GoesOn k) : k ≠ .openBracket := by
  rintro rfl
  exact h

end Outline

theorem Anchor.goesOn (anchor : Anchor) : Outline.GoesOn anchor.kind := by
  cases anchor <;> trivial

section Spelled

open Outline

variable {r : Registry} (ps : List Place)

theorem SpellsOptionalIndex.leads {i : Option Int} {ks : List Kind} (h : SpellsOptionalIndex i ks)
    (hi : ∀ j ∈ i, InIndexRange j) (last : Kind) : ∃ last',
      (last ≠ .openBracket → last' ≠ .openBracket) ∧ Leads ⟨ps, last⟩ ks ⟨ps, last'⟩ := by
  cases i with
  | none =>
    obtain rfl : ks = [] := h
    exact ⟨last, id, rfl⟩
  | some i =>
    obtain ⟨n, rfl, -, -, rfl⟩ := h
    exact ⟨.number n, by simp, fun _ => hi _ rfl, rfl⟩

theorem Selector.SpelledShort.leads {s : Selector} {k : Kind} (h : s.SpelledShort k)
    (last : Kind) : GoesOn k ∧ Leads ⟨ps, last⟩ [k] ⟨ps, k⟩ := by
  cases s with
  | name _ | wildcard =>
    obtain rfl := h
    exact ⟨trivial, trivial, rfl⟩
  | index _ | slice _ _ _ | filter _ => exact h.elim

theorem Json.SpelledBy.leads {v : Json} {k : Kind} (h : v.SpelledBy k)
    (hp : ps.head? ≠ some .selectors) (last : Kind) :
    k ≠ .openBracket ∧ Leads ⟨ps, last⟩ [k] ⟨ps, k⟩ := by
  cases v with
  | null | bool _ | string _ =>
    obtain rfl := h
    exact ⟨by simp, trivial, rfl⟩
  | number x =>
    obtain ⟨n, rfl, -⟩ := h
    exact ⟨by simp, fun hs => absurd hs hp, rfl⟩
  | array _ | object _ => exact h.elim

-- The tokens of a query fit, and leave the places open that were open. The induction is on the
-- tree, with its lists; a selector may leave the place of a filter behind.
mutual

theorem Selector.leads : ∀ {s : Selector} {ks : List Kind}, s.Spells ks → s.WellTyped r →
    ∀ ps last, ∃ p last', p ≠ .parentheses ∧ last' ≠ .openBracket ∧
      Leads ⟨.selectors :: ps, last⟩ ks ⟨p :: ps, last'⟩
  | .name name, _, rfl, _, _, _ => ⟨.selectors, .string name, by simp, by simp, trivial, rfl⟩
  | .wildcard, _, rfl, _, _, _ => ⟨.selectors, .wildcard, by simp, by simp, trivial, rfl⟩
  | .index i, _, ⟨n, rfl, hn⟩, hi, _, _ =>
    ⟨.selectors, .number n, by simp, by simp, fun _ => hn.2.2 ▸ hi, rfl⟩
  | .slice _ _ _, _, ⟨first, second, third, hfirst, hsecond, hthird, h⟩, ⟨hi, hj, hk⟩, ps, last => by
    obtain ⟨k, -, hstart⟩ := hfirst.leads (.selectors :: ps) hi last
    obtain ⟨k', hne, hstop⟩ := hsecond.leads (.selectors :: ps) hj .colon
    have hcolon : Leads ⟨.selectors :: ps, last⟩ (first ++ .colon :: second)
        ⟨.selectors :: ps, k'⟩ := hstart.trans ⟨trivial, hstop⟩
    rcases h with ⟨rfl, -⟩ | rfl
    · exact ⟨.selectors, k', by simp, hne (by simp), hcolon⟩
    · obtain ⟨k'', hne', hstep⟩ := hthird.leads (.selectors :: ps) hk .colon
      exact ⟨.selectors, k'', by simp, hne' (by simp), hcolon.trans ⟨trivial, hstep⟩⟩
  | .filter _, _, ⟨_, rfl, he⟩, ht, ps, _ => by
    obtain ⟨last', hne, htest⟩ := Expr.leads he ht (.filter :: ps) (by simp) .question (by simp)
    exact ⟨.filter, last', by simp, hne, trivial, htest⟩

theorem Selector.leads_tail : ∀ {ss : List Selector} {ks : List Kind}, Selector.SpellsTail ss ks →
    Selector.AllWellTyped r ss → ∀ ps {p last}, p ≠ .parentheses → last ≠ .openBracket →
      ∃ p' last', p' ≠ .parentheses ∧ last' ≠ .openBracket ∧
        Leads ⟨p :: ps, last⟩ ks ⟨p' :: ps, last'⟩
  | [], _, rfl, _, _, p, last, hp, hl => ⟨p, last, hp, hl, rfl⟩
  | _ :: _, _, ⟨_, _, rfl, hs, hss⟩, ⟨ht, hts⟩, ps, p, last, hp, hl => by
    obtain ⟨p', last', hp', hl', hfirst⟩ := Selector.leads hs ht ps .comma
    obtain ⟨p'', last'', hp'', hl'', hothers⟩ := Selector.leads_tail hss hts ps hp' hl'
    refine ⟨p'', last'', hp'', hl'', trivial, ?_⟩
    rw [next_comma hp]
    exact hfirst.trans hothers

theorem Selector.leads_all : ∀ {ss : List Selector} {ks : List Kind}, Selector.SpellsAll ss ks →
    Selector.AllWellTyped r ss → ∀ ps last, ∃ p last', p ≠ .parentheses ∧ last' ≠ .openBracket ∧
      Leads ⟨.selectors :: ps, last⟩ ks ⟨p :: ps, last'⟩
  | [], _, h, _, _, _ => h.elim
  | _ :: _, _, ⟨_, _, rfl, hs, hss⟩, ⟨ht, hts⟩, ps, last => by
    obtain ⟨p, last', hp, hl, hfirst⟩ := Selector.leads hs ht ps last
    obtain ⟨p', last'', hp', hl', hothers⟩ := Selector.leads_tail hss hts ps hp hl
    exact ⟨p', last'', hp', hl', hfirst.trans hothers⟩

theorem Segment.leads : ∀ {s : Segment} {ks : List Kind}, s.Spells ks → s.WellTyped r →
    ∀ ps {last}, GoesOn last → ∃ last', GoesOn last' ∧ Leads ⟨ps, last⟩ ks ⟨ps, last'⟩
  | .child _, _, .inl ⟨_, k, _, hs, rfl⟩, _, ps, _, _
  | .descendant _, _, .inl ⟨_, k, _, hs, rfl⟩, _, ps, _, _ =>
    ⟨k, (hs.leads ps k).1, trivial, (hs.leads ps _).2⟩
  | .child _, _, .inr ⟨_, rfl, hss⟩, ⟨_, ht⟩, ps, _, hl => by
    obtain ⟨p, last', -, hl', hinner⟩ := Selector.leads_all hss ht ps .openBracket
    exact ⟨.closeBracket, trivial, hl, hinner.trans ⟨hl', rfl⟩⟩
  | .descendant _, _, .inr ⟨_, rfl, hss⟩, ⟨_, ht⟩, ps, _, _ => by
    obtain ⟨p, last', -, hl', hinner⟩ := Selector.leads_all hss ht ps .openBracket
    exact ⟨.closeBracket, trivial, trivial, trivial, hinner.trans ⟨hl', rfl⟩⟩

theorem Segment.leads_all : ∀ {ss : List Segment} {ks : List Kind}, Segment.SpellsAll ss ks →
    Segment.AllWellTyped r ss → ∀ ps {last}, GoesOn last → ∃ last', GoesOn last' ∧
      Leads ⟨ps, last⟩ ks ⟨ps, last'⟩
  | [], _, rfl, _, _, last, hl => ⟨last, hl, rfl⟩
  | _ :: _, _, ⟨_, _, rfl, hs, hss⟩, ⟨ht, hts⟩, ps, _, hl => by
    obtain ⟨_, hl', hfirst⟩ := Segment.leads hs ht ps hl
    obtain ⟨last'', hl'', hothers⟩ := Segment.leads_all hss hts ps hl'
    exact ⟨last'', hl'', hfirst.trans hothers⟩

theorem Expr.leads : ∀ {e : Expr} {l : Level} {ks : List Kind}, e.Spells l ks →
    ∀ {t : ExprType}, e.HasType r t → ∀ ps : List Place, ps.head? ≠ some .selectors →
      ∀ last, (last = .not → Level.negated.rank ≤ l.rank) → ∃ last', last' ≠ .openBracket ∧
        Leads ⟨ps, last⟩ ks ⟨ps, last'⟩
  | .logical op _ _, _, _, ⟨hl, _, _, rfl, ha, hb⟩, _, ⟨_, hta, htb⟩, ps, hp, last, hn => by
    obtain ⟨_, _, hleft⟩ := Expr.leads ha hta ps hp last (fun h => Nat.le_trans (hn h) hl)
    obtain ⟨last', hne, hright⟩ := Expr.leads hb htb ps hp (.logical op) (by simp)
    exact ⟨last', hne, hleft.trans ⟨trivial, hright⟩⟩
  | .not _, _, _, ⟨hl, _, rfl, ha⟩, _, ⟨_, hta⟩, ps, hp, last, hn => by
    have hlast : last ≠ .not := fun h => absurd (Nat.le_trans (hn h) hl) (by decide)
    obtain ⟨last', hne, hinner⟩ := Expr.leads ha hta ps hp .not (fun _ => Nat.le_refl _)
    exact ⟨last', hne, hlast, hinner⟩
  | .paren _, _, _, ⟨_, _, rfl, ha⟩, _, ⟨_, hta⟩, ps, _, _, _ => by
    obtain ⟨_, _, hinner⟩ := Expr.leads ha hta (.parentheses :: ps) (by simp) .openParen (by simp)
    exact ⟨.closeParen, by simp, trivial, hinner.trans ⟨trivial, rfl⟩⟩
  | .compare op _ _, _, _, ⟨_, _, _, rfl, ha, hb⟩, _, ⟨_, hta, htb⟩, ps, hp, last, _ => by
    obtain ⟨_, _, hleft⟩ := Expr.leads ha hta ps hp last (fun _ => by decide)
    obtain ⟨last', hne, hright⟩ := Expr.leads hb htb ps hp (.comparison op) (by simp)
    exact ⟨last', hne, hleft.trans ⟨trivial, hright⟩⟩
  | .exists anchor _, _, _, ⟨_, rfl, hss⟩, _, ⟨_, ht⟩, ps, _, _, _
  | .query anchor _, _, _, ⟨_, rfl, hss⟩, _, ⟨_, ht⟩, ps, _, _, _ => by
    obtain ⟨last', hl, hpath⟩ := Segment.leads_all hss ht ps anchor.goesOn
    refine ⟨last', hl.ne_openBracket, ?_⟩
    cases anchor <;> exact ⟨trivial, hpath⟩
  | .call _ _, _, _, ⟨_, rfl, hes⟩, _, ⟨_, _, ht⟩, ps, _, _, _ => by
    obtain ⟨_, hargs⟩ := Expr.leads_all hes ht ps .openParen (by simp)
    exact ⟨.closeParen, by simp, trivial, trivial, hargs.trans ⟨trivial, rfl⟩⟩
  | .literal _, _, _, ⟨k, rfl, hv⟩, _, _, ps, hp, last, _ => ⟨k, hv.leads ps hp last⟩

theorem Expr.leads_tail : ∀ {es : List Expr} {ks : List Kind}, Expr.SpellsTail es ks →
    ∀ {ts : List ExprType}, Expr.HaveTypes r es ts → ∀ ps last, ∃ last',
      Leads ⟨.parentheses :: ps, last⟩ ks ⟨.parentheses :: ps, last'⟩
  | [], _, rfl, _, _, _, last => ⟨last, rfl⟩
  | _ :: _, _, _, [], h, _, _ => h.elim
  | _ :: _, _, ⟨_, _, rfl, he, hes⟩, _ :: _, ⟨ht, hts⟩, ps, _ => by
    obtain ⟨last', _, hfirst⟩ := Expr.leads he ht (.parentheses :: ps) (by simp) .comma (by simp)
    obtain ⟨last'', hothers⟩ := Expr.leads_tail hes hts ps last'
    exact ⟨last'', trivial, hfirst.trans hothers⟩

theorem Expr.leads_all : ∀ {es : List Expr} {ks : List Kind}, Expr.SpellsAll es ks →
    ∀ {ts : List ExprType}, Expr.HaveTypes r es ts → ∀ ps last, last ≠ .not → ∃ last',
      Leads ⟨.parentheses :: ps, last⟩ ks ⟨.parentheses :: ps, last'⟩
  | [], _, rfl, _, _, _, last, _ => ⟨last, rfl⟩
  | _ :: _, _, _, [], h, _, _, _ => h.elim
  | _ :: _, _, ⟨_, _, rfl, he, hes⟩, _ :: _, ⟨ht, hts⟩, ps, last, hl => by
    obtain ⟨last', _, hfirst⟩ :=
      Expr.leads he ht (.parentheses :: ps) (by simp) last (fun h => absurd h hl)
    obtain ⟨last'', hothers⟩ := Expr.leads_tail hes hts ps last'
    exact ⟨last'', hfirst.trans hothers⟩

end

/-- The outline in front of a query. -/
def Outline.start : Outline := ⟨[], .endOfQuery⟩

/-- All tokens of a query fit. -/
theorem Query.leads {q : Query} {ks : List Kind} (h : q.Spells ks) (ht : q.WellTyped r) :
    ∃ o, Outline.start.Leads ks o := by
  obtain ⟨path, rfl, hss⟩ := h
  obtain ⟨last, -, hpath⟩ := Segment.leads_all hss ht [] (Anchor.goesOn .root)
  exact ⟨_, trivial, hpath⟩

end Spelled
end JsonQuery
