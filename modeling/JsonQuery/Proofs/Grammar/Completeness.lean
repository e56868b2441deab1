import JsonQuery.Proofs.Grammar.Soundness

namespace JsonQuery
open Token (Kind kinds)

namespace Expr

/-- The form in which an expression is read: a test of existence shows only in its place. -/
def asRead : Expr → Expr
  | .exists anchor ss => .query anchor ss
  | e => e

theorem asTest_asRead {r : Registry} {e : Expr} (h : e.HasType r .logical) :
    e.asRead.asTest = .ok e := by
  cases e <;> simp_all [asRead, asTest, HasType]

theorem comparable_asRead {r : Registry} {e : Expr} (h : e.HasType r .value) :
    e.asRead = e ∧ e.comparisonFault? = none := by
  cases e <;> simp_all [asRead, comparisonFault?, HasType, ExprType.FitsAs]

theorem asArgument_asRead {r : Registry} {e : Expr} {t : ExprType} (h : e.HasType r t)
    (name : String) (position : Nat) : e.asRead.asArgument name position t = .ok e := by
  cases e <;> cases t <;> simp_all [asRead, asArgument, fits, HasType]
  all_goals grind [ExprType.FitsAs]

end Expr

namespace Level

/-- Whether a token behind a part belongs to it. -/
def extendedBy (l : Level) : Kind → Bool
  | .dot | .doubleDot | .openBracket => true
  | .comparison _ => l.rank ≤ Level.basic.rank
  | .logical op => l.rank ≤ op.level.rank
  | _ => false

end Level

namespace Grammar

/-- No token behind a part belongs to it. -/
def Stops (l : Level) : List Token → Prop
  | [] => True
  | t :: _ => l.extendedBy t.kind = false

/-- A reader that takes a part and leaves the rest. -/
def Part.Reads {α : Type} {bound : Nat} (p : Part α bound) (value : α) (rest : List Token) : Prop :=
  ∃ below, p = .ok ⟨value, rest, below⟩

variable {g : Grammar} {nested : Option (Reader Expr)}

theorem kinds_eq_cons {ts : List Token} {k : Kind} {ks : List Kind} :
    kinds ts = k :: ks ↔ ∃ o us, ts = ⟨k, o⟩ :: us ∧ kinds us = ks := by
  constructor
  · intro h
    obtain ⟨⟨k', o⟩, us, rfl, rfl, hus⟩ := List.map_eq_cons_iff.mp h
    exact ⟨o, us, rfl, hus⟩
  · intro hright
    rcases hright with ⟨o, us, rfl, hus⟩
    exact List.map_eq_cons_iff.mpr ⟨_, us, rfl, rfl, hus⟩

theorem kinds_eq_append {ts : List Token} {ks ks' : List Kind} :
    kinds ts = ks ++ ks' ↔ ∃ us us', ts = us ++ us' ∧ kinds us = ks ∧ kinds us' = ks' :=
  List.map_eq_append_iff

theorem kinds_eq_nil {ts : List Token} : kinds ts = [] ↔ ts = [] := List.map_eq_nil_iff

theorem kinds_eq_enclosed {ts : List Token} {k c : Kind} {inner : List Kind}
    (h : kinds ts = k :: inner ++ [c]) :
    ∃ o us o', ts = ⟨k, o⟩ :: us ++ [⟨c, o'⟩] ∧ kinds us = inner := by
  obtain ⟨o, us, rfl, hus⟩ := kinds_eq_cons.mp h
  obtain ⟨vs, ws, rfl, hvs, hws⟩ := kinds_eq_append.mp hus
  obtain ⟨o', ws', rfl, hws'⟩ := kinds_eq_cons.mp hws
  rw [kinds_eq_nil.mp hws']
  exact ⟨o, vs, o', rfl, hvs⟩

theorem enclosed_append {α : Type} (first last : α) (inner rest : List α) :
    first :: inner ++ [last] ++ rest = first :: (inner ++ last :: rest) := by simp

theorem optionalIndex_reads {i : Option Int} {ks : List Kind} (hs : SpellsOptionalIndex i ks)
    (hi : ∀ j ∈ i, InIndexRange j) {ts : List Token} (hk : kinds ts = ks) (rest : List Token)
    (hrest : ∀ n o us, rest ≠ ⟨.number n, o⟩ :: us) :
    (optionalIndex (ts ++ rest)).Reads i rest := by
  cases i with
  | none =>
    simp only [SpellsOptionalIndex] at hs
    subst hs
    rw [kinds_eq_nil.mp hk, List.nil_append]
    unfold optionalIndex
    split
    · rename_i n o us
      exact absurd rfl (hrest n o us)
    · exact ⟨_, rfl⟩
  | some i =>
    obtain ⟨n, rfl, hn⟩ := hs
    obtain ⟨o, us, rfl, hus⟩ := kinds_eq_cons.mp hk
    rw [kinds_eq_nil.mp hus]
    have : index o n = .ok i := index_ok.mpr ⟨hn, hi i rfl⟩
    refine ⟨by grind, ?_⟩
    simp [optionalIndex, this, bind, Except.bind, pure, Except.pure]

/-- What stands behind a selector. -/
def EndsSelector (rest : List Token) : Prop :=
  ∃ o us, rest = ⟨.comma, o⟩ :: us ∨ rest = ⟨.closeBracket, o⟩ :: us

theorem sliceTail_reads (start : Option Int) {stop step : Option Int} {second third ks : List Kind}
    (hstop : SpellsOptionalIndex stop second) (hstep : SpellsOptionalIndex step third)
    (hk : ks = second ∧ third = [] ∨ ks = second ++ .colon :: third)
    (hi : ∀ i ∈ stop, InIndexRange i) (hj : ∀ i ∈ step, InIndexRange i)
    {ts rest : List Token} (hts : kinds ts = ks) (hrest : EndsSelector rest) :
    (sliceTail start (ts ++ rest)).Reads (.slice start stop step) rest := by
  rcases hk with ⟨rfl, rfl⟩ | rfl
  · have hstep : step = none := by
      cases step with
      | none => rfl
      | some i => obtain ⟨n, hn, _⟩ := hstep; cases hn
    subst hstep
    obtain ⟨below, hread⟩ := optionalIndex_reads hstop hi hts rest (by
      obtain ⟨o, us, rfl | rfl⟩ := hrest <;> simp)
    obtain ⟨o, us, rfl | rfl⟩ := hrest
    all_goals
      refine ⟨below, ?_⟩
      simp only [sliceTail, hread]
      rfl
  · obtain ⟨us, vs, rfl, hus, hvs⟩ := kinds_eq_append.mp hts
    obtain ⟨o, ws, rfl, hws⟩ := kinds_eq_cons.mp hvs
    obtain ⟨below, hread⟩ := optionalIndex_reads hstop hi hus (⟨.colon, o⟩ :: ws ++ rest)
      (by simp)
    obtain ⟨below', hread'⟩ := optionalIndex_reads hstep hj hws rest (by
      obtain ⟨o, us, rfl | rfl⟩ := hrest <;> simp)
    rw [List.append_assoc]
    refine ⟨by grind, ?_⟩
    simp only [sliceTail, hread]
    simp only [List.cons_append, bind, Except.bind, hread']
    rfl

/-- Readers of what is nested inside a filter, parenthesis or call read everything that is spelled
and well typed, and no deeper than the levels that are left. -/
def SelectorReads (g : Grammar) (s : Selector) : Prop :=
  ∀ ⦃d ks ts rest⦄, s.Spells ks → s.WellTyped g.registry → s.depth ≤ d → kinds ts = ks →
    EndsSelector rest → (g.selector (g.nested d) (ts ++ rest)).Reads s rest

theorem nonfilter_reads {s : Selector} (hf : ∀ e, s ≠ .filter e) : SelectorReads g s := by
  intro d ks ts rest hs ht _ hk hrest
  cases s with
  | name s =>
    subst hs
    obtain ⟨o, us, rfl, hus⟩ := kinds_eq_cons.mp hk
    rw [kinds_eq_nil.mp hus]
    exact ⟨by simp, rfl⟩
  | wildcard =>
    subst hs
    obtain ⟨o, us, rfl, hus⟩ := kinds_eq_cons.mp hk
    rw [kinds_eq_nil.mp hus]
    exact ⟨by simp, rfl⟩
  | index i =>
    obtain ⟨n, rfl, hn⟩ := hs
    obtain ⟨o, us, rfl, hus⟩ := kinds_eq_cons.mp hk
    rw [kinds_eq_nil.mp hus]
    have hi : index o n = .ok i := index_ok.mpr ⟨hn, ht⟩
    obtain ⟨o', us', rfl | rfl⟩ := hrest
    all_goals
      refine ⟨by simp, ?_⟩
      simp only [selector, List.cons_append, List.nil_append, hi]
      rfl
  | slice start stop step =>
    obtain ⟨first, second, third, hstart, hstop, hstep, hks⟩ := hs
    obtain ⟨tstart, tstop, tstep⟩ := ht
    obtain ⟨ks', rfl, hks'⟩ : ∃ ks', ks = first ++ .colon :: ks' ∧
        (ks' = second ∧ third = [] ∨ ks' = second ++ .colon :: third) := by
      rcases hks with ⟨rfl, rfl⟩ | rfl
      · exact ⟨second, rfl, .inl ⟨rfl, rfl⟩⟩
      · exact ⟨second ++ .colon :: third, by simp, .inr rfl⟩
    obtain ⟨us, vs, rfl, hus, hvs⟩ := kinds_eq_append.mp hk
    obtain ⟨o, ws, rfl, hws⟩ := kinds_eq_cons.mp hvs
    obtain ⟨below, hread⟩ := sliceTail_reads start hstop hstep hks' tstop tstep hws hrest
    cases start with
    | none =>
      simp only [SpellsOptionalIndex] at hstart
      subst hstart
      rw [kinds_eq_nil.mp hus]
      refine ⟨by grind, ?_⟩
      simp only [selector, List.cons_append, List.nil_append, hread]
      rfl
    | some i =>
      obtain ⟨n, rfl, hn⟩ := hstart
      obtain ⟨o', us', rfl, hus'⟩ := kinds_eq_cons.mp hus
      rw [kinds_eq_nil.mp hus']
      have hi : index o' n = .ok i := index_ok.mpr ⟨hn, tstart i rfl⟩
      refine ⟨by grind, ?_⟩
      simp only [selector, List.cons_append, List.nil_append, hi]
      simp only [bind, Except.bind, hread]
      rfl
  | filter e => exact absurd rfl (hf e)

theorem selectors_reads {d : Nat} {ss : List Selector} (h : ∀ s ∈ ss, SelectorReads g s)
    {ks : List Kind} (hs : Selector.SpellsAll ss ks) (ht : Selector.AllWellTyped g.registry ss)
    (hd : Selector.maxDepth ss ≤ d) {ts : List Token} (hk : kinds ts = ks) (o : Nat)
    (rest : List Token) :
    (g.selectors (g.nested d) (ts ++ ⟨.closeBracket, o⟩ :: rest)).Reads ss rest := by
  induction ss generalizing ts ks with
  | nil => exact hs.elim
  | cons s ss ih =>
    obtain ⟨first, others, rfl, hfirst, hothers⟩ := hs
    obtain ⟨us, vs, rfl, hus, hvs⟩ := kinds_eq_append.mp hk
    have hd' := Nat.max_le.mp hd
    rw [List.append_assoc, selectors]
    cases ss with
    | nil =>
      rw [hothers] at hvs
      rw [kinds_eq_nil.mp hvs]
      have hend : EndsSelector (⟨.closeBracket, o⟩ :: rest) := ⟨o, rest, .inr rfl⟩
      obtain ⟨below, hread⟩ := h s (by simp) hfirst ht.1 hd'.1 hus hend
      refine ⟨by grind, ?_⟩
      simp only [List.nil_append, hread]
      rfl
    | cons t ss =>
      obtain ⟨second, more, rfl, hsecond, hmore⟩ := hothers
      obtain ⟨o', ws, rfl, hws⟩ := kinds_eq_cons.mp hvs
      have hend : EndsSelector (⟨.comma, o'⟩ :: ws ++ ⟨.closeBracket, o⟩ :: rest) :=
        ⟨o', _, .inl rfl⟩
      obtain ⟨below, hread⟩ := h s (by simp) hfirst ht.1 hd'.1 hus hend
      obtain ⟨below', hread'⟩ := ih (fun t ht => h t (List.mem_cons_of_mem s ht))
        ⟨second, more, rfl, hsecond, hmore⟩ ht.2 hd'.2 hws
      refine ⟨by grind, ?_⟩
      simp only [hread]
      simp only [List.cons_append, bind, Except.bind, hread']
      rfl

def SegmentReads (g : Grammar) (s : Segment) : Prop :=
  ∀ ⦃d ks ts rest others rest'⦄, s.Spells ks → s.WellTyped g.registry → s.depth ≤ d →
    kinds ts = ks → (g.segments (g.nested d) rest).Reads others rest' →
    (g.segments (g.nested d) (ts ++ rest)).Reads (s :: others) rest'

theorem shorthand_reads {s : Selector} {k : Kind} (h : s.SpelledShort k) (o : Nat)
    (rest : List Token) : g.shorthand (⟨k, o⟩ :: rest) = .ok (.of s rest) := by
  cases s <;> first | exact h.elim | (cases h; rfl)

theorem segment_reads {s : Segment} (h : ∀ t ∈ s.selectors, SelectorReads g t) :
    SegmentReads g s := by
  rintro d ks ts rest others rest' hs ht hd hk ⟨below, hread⟩
  cases s with
  | child ss =>
    rcases hs with ⟨s, k, rfl, hshort, rfl⟩ | ⟨inner, rfl, hinner⟩
    · obtain ⟨o, us, rfl, hus⟩ := kinds_eq_cons.mp hk
      obtain ⟨o', vs, rfl, hvs⟩ := kinds_eq_cons.mp hus
      rw [kinds_eq_nil.mp hvs]
      refine ⟨by grind, ?_⟩
      rw [segments.eq_def]
      simp only [List.cons_append, List.nil_append, shorthand_reads hshort, bind, Except.bind,
        hread]
      rfl
    · obtain ⟨o, us, o', rfl, hus⟩ := kinds_eq_enclosed hk
      obtain ⟨below', hread'⟩ := selectors_reads h hinner ht.2 hd hus o' rest
      rw [enclosed_append]
      refine ⟨by grind, ?_⟩
      rw [segments.eq_def]
      simp only [bind, Except.bind, hread', hread]
      rfl
  | descendant ss =>
    rcases hs with ⟨s, k, rfl, hshort, rfl⟩ | ⟨inner, rfl, hinner⟩
    · obtain ⟨o, us, rfl, hus⟩ := kinds_eq_cons.mp hk
      obtain ⟨o', vs, rfl, hvs⟩ := kinds_eq_cons.mp hus
      rw [kinds_eq_nil.mp hvs]
      refine ⟨by grind, ?_⟩
      rw [segments.eq_def]
      cases s <;> cases hshort
      all_goals
        simp only [List.cons_append, List.nil_append, shorthand, bind, Except.bind, hread]
        rfl
    · obtain ⟨o, us, rfl, hus⟩ := kinds_eq_cons.mp hk
      obtain ⟨o', us, o'', rfl, hus'⟩ := kinds_eq_enclosed hus
      obtain ⟨below', hread'⟩ := selectors_reads h hinner ht.2 hd hus' o'' rest
      rw [List.cons_append, enclosed_append]
      refine ⟨by grind, ?_⟩
      rw [segments.eq_def]
      simp only [bind, Except.bind, hread', hread]
      rfl

theorem segments_stop {rest : List Token} (h : Stops .operand rest) :
    (g.segments nested rest).Reads [] rest := by
  rw [segments.eq_def]
  split <;> first | exact ⟨_, rfl⟩ | cases h

theorem segments_reads {d : Nat} {ss : List Segment} (h : ∀ s ∈ ss, SegmentReads g s)
    {ks : List Kind} (hs : Segment.SpellsAll ss ks) (ht : Segment.AllWellTyped g.registry ss)
    (hd : Segment.maxDepth ss ≤ d) {ts rest : List Token} (hk : kinds ts = ks)
    (hrest : Stops .operand rest) :
    (g.segments (g.nested d) (ts ++ rest)).Reads ss rest := by
  induction ss generalizing ts ks with
  | nil =>
    simp only [Segment.SpellsAll] at hs
    subst hs
    rw [kinds_eq_nil.mp hk]
    exact segments_stop hrest
  | cons s ss ih =>
    obtain ⟨first, others, rfl, hfirst, hothers⟩ := hs
    obtain ⟨us, vs, rfl, hus, hvs⟩ := kinds_eq_append.mp hk
    have hd' := Nat.max_le.mp hd
    rw [List.append_assoc]
    exact h s (by simp) hfirst ht.1 hd'.1 hus
      (ih (fun t ht => h t (List.mem_cons_of_mem s ht)) hothers ht.2 hd'.2 hvs)

/-- The reader of parts of a filter. What stands behind `!` has none of its own. -/
def reader (g : Grammar) (nested : Option (Reader Expr)) : Level → Reader Expr
  | .disjunction => g.chain .or (g.chain .and (g.basic nested))
  | .conjunction => g.chain .and (g.basic nested)
  | .basic => g.basic nested
  | .negated | .operand => g.operand nested

theorem expr_eq_reader (g : Grammar) (d : Nat) :
    g.expr d = g.reader (g.nested d) .disjunction := expr_eq g d

/-- Tokens with which an operator stands in front of them. -/
def Continues (op : LogicalOp) (rest : List Token) : Prop := ∃ o us, rest = ⟨.logical op, o⟩ :: us

/-- A part of a filter is read where it stands alone, where operators of a chain follow, and
behind `!`. -/
structure ExprReads (g : Grammar) (e : Expr) : Prop where
  alone : ∀ ⦃l d ks t ts rest⦄, l ≠ .negated → e.Spells l ks → e.HasType g.registry t →
    e.depth ≤ d → kinds ts = ks → Stops l rest →
    (g.reader (g.nested d) l (ts ++ rest)).Reads e.asRead rest
  chained : ∀ ⦃op d ks ts rest value rest'⦄, e.Spells op.level ks → e.HasType g.registry .logical →
    e.depth ≤ d → kinds ts = ks → Continues op rest →
    (g.chainTail op (g.reader (g.nested d) op.rightLevel) e rest).Reads value rest' →
    (g.reader (g.nested d) op.level (ts ++ rest)).Reads value rest'
  negated : ∀ ⦃d ks ts rest⦄, e.Spells .negated ks → e.HasType g.registry .logical →
    e.depth ≤ d → kinds ts = ks → Stops .negated rest → ∀ o,
    (g.basic (g.nested d) (⟨.not, o⟩ :: ts ++ rest)).Reads (.not e) rest

theorem reader_level (op : LogicalOp) :
    g.reader nested op.level = g.chain op (g.reader nested op.rightLevel) := by
  cases op <;> rfl

theorem Continues.stops {op : LogicalOp} {rest : List Token} (h : Continues op rest) :
    Stops op.rightLevel rest := by
  obtain ⟨o, us, rfl⟩ := h
  cases op <;> rfl

/-- A part that is no chain of an operator starts one. -/
theorem chain_first {op : LogicalOp} {read : Reader Expr} {ts rest rest' : List Token}
    {e value : Expr} (hread : (read (ts ++ rest)).Reads e.asRead rest)
    (ht : e.HasType g.registry .logical) (hc : Continues op rest)
    (htail : (g.chainTail op read e rest).Reads value rest') :
    (g.chain op read (ts ++ rest)).Reads value rest' := by
  obtain ⟨below, hread⟩ := hread
  obtain ⟨below', htail⟩ := htail
  obtain ⟨o, us, rfl⟩ := hc
  refine ⟨by omega, ?_⟩
  unfold chain
  simp only [bind, Except.bind, hread, Expr.asTest_asRead ht, typed, Except.mapError, htail,
    if_true]
  rfl

theorem Stops.ne_of_logical {op op' : LogicalOp} {o : Nat} {us : List Token}
    (h : Stops op.level (⟨.logical op', o⟩ :: us)) : op' ≠ op := by
  intro heq
  subst heq
  simp [Stops, Level.extendedBy] at h

/-- A part alone is a chain of any operator. -/
theorem chain_alone {op : LogicalOp} {read : Reader Expr} {ts rest : List Token} {e : Expr}
    (hread : (read (ts ++ rest)).Reads e rest) (hs : Stops op.level rest) :
    (g.chain op read (ts ++ rest)).Reads e rest := by
  obtain ⟨below, hread⟩ := hread
  refine ⟨below, ?_⟩
  unfold chain
  simp only [bind, Except.bind, hread]
  split
  · rename_i op' o us
    rw [if_neg hs.ne_of_logical]
    rfl
  · rfl

theorem chainTail_stop {op : LogicalOp} {read : Reader Expr} {rest : List Token} {e : Expr}
    (hs : Stops op.level rest) : (g.chainTail op read e rest).Reads e rest := by
  rw [chainTail.eq_def]
  split
  · rename_i op' o us
    rw [if_neg hs.ne_of_logical]
    exact ⟨_, rfl⟩
  · exact ⟨_, rfl⟩

theorem chainTail_step {op : LogicalOp} {read : Reader Expr} {ts rest rest' : List Token}
    {left right value : Expr} (o : Nat) (hread : (read (ts ++ rest)).Reads right.asRead rest)
    (ht : right.HasType g.registry .logical)
    (htail : (g.chainTail op read (.logical op left right) rest).Reads value rest') :
    (g.chainTail op read left (⟨.logical op, o⟩ :: ts ++ rest)).Reads value rest' := by
  obtain ⟨below, hread⟩ := hread
  obtain ⟨below', htail⟩ := htail
  refine ⟨by grind, ?_⟩
  rw [chainTail.eq_def]
  simp only [List.cons_append, bind, Except.bind, hread, Expr.asTest_asRead ht, typed,
    Except.mapError, htail, if_true]
  rfl

theorem Stops.mono {l m : Level} {rest : List Token} (h : Stops l rest) (hl : l.rank ≤ m.rank) :
    Stops m rest := by
  cases rest with
  | nil => trivial
  | cons t us =>
    obtain ⟨k, o⟩ := t
    cases k <;> simp_all [Stops, Level.extendedBy] <;> omega

/-- The first token of an expression. -/
theorem spells_head {e : Expr} {l : Level} {ks : List Kind} (h : e.Spells l ks) :
    ∃ k ks', ks = k :: ks' ∧ k ≠ .closeParen ∧
      (l = .operand → k ≠ .not ∧ k ≠ .openParen) := by
  match e with
  | .logical op a b =>
    obtain ⟨hl, left, right, rfl, ha, _⟩ := h
    obtain ⟨k, ks', rfl, hk, _⟩ := spells_head ha
    exact ⟨k, _, rfl, hk, by rintro rfl; cases op <;> exact absurd hl (by decide)⟩
  | .compare op a b =>
    obtain ⟨hl, left, right, rfl, ha, _⟩ := h
    obtain ⟨k, ks', rfl, hk, _⟩ := spells_head ha
    exact ⟨k, _, rfl, hk, by rintro rfl; exact absurd hl (by decide)⟩
  | .not a =>
    obtain ⟨hl, inner, rfl, _⟩ := h
    exact ⟨_, _, rfl, by simp, by rintro rfl; exact absurd hl (by decide)⟩
  | .paren a =>
    obtain ⟨hl, inner, rfl, _⟩ := h
    exact ⟨_, _, rfl, by simp, by rintro rfl; exact absurd hl (by decide)⟩
  | .exists anchor ss | .query anchor ss =>
    obtain ⟨path, rfl, _⟩ := h
    cases anchor <;> exact ⟨_, _, rfl, by simp [Anchor.kind], by simp [Anchor.kind]⟩
  | .call f args =>
    obtain ⟨inner, rfl, _⟩ := h
    exact ⟨_, _, rfl, by simp, by simp⟩
  | .literal v =>
    obtain ⟨k, rfl, hv⟩ := h
    refine ⟨k, [], rfl, ?_⟩
    cases v <;> simp only [Json.SpelledBy] at hv <;> grind

theorem basic_eq_comparison {ts : List Token} {k : Kind} {ks : List Kind} (hk : kinds ts = k :: ks)
    (hn : k ≠ .not) (hp : k ≠ .openParen) : g.basic nested ts = g.comparison nested ts := by
  obtain ⟨o, us, rfl, _⟩ := kinds_eq_cons.mp hk
  cases k <;> first | contradiction | rfl

/-- A reader takes an expression where the tokens that spell it at a level stand alone. -/
def ReadsAlone (g : Grammar) (e : Expr) (l : Level)
    (read : Option (Reader Expr) → Reader Expr) : Prop :=
  ∀ ⦃d ks t ts rest⦄, e.Spells l ks → e.HasType g.registry t → e.depth ≤ d → kinds ts = ks →
    Stops l rest → (read (g.nested d) (ts ++ rest)).Reads e.asRead rest

/-- A part that is no chain is read at each level once it is read between operators. -/
theorem reads_of_basic {e : Expr} (hc : ∀ op a b, e ≠ .logical op a b)
    (ho : ReadsAlone g e .operand g.operand) (hb : ReadsAlone g e .basic g.basic)
    (hn : ∀ ⦃d ks ts rest⦄, e.Spells .negated ks → e.HasType g.registry .logical → e.depth ≤ d →
      kinds ts = ks → Stops .negated rest → ∀ o,
      (g.basic (g.nested d) (⟨.not, o⟩ :: ts ++ rest)).Reads (.not e) rest) : ExprReads g e := by
  have raise : ∀ l ks, l.rank ≤ Level.basic.rank → e.Spells l ks → e.Spells .basic ks := by
    intro l ks hl h
    cases e <;> simp_all [Expr.Spells, Level.rank]
  have halone : ∀ ⦃l d ks t ts rest⦄, l ≠ .negated → e.Spells l ks → e.HasType g.registry t →
      e.depth ≤ d → kinds ts = ks → Stops l rest →
      (g.reader (g.nested d) l (ts ++ rest)).Reads e.asRead rest := by
    intro l d ks t ts rest hl hs ht hd hk hrest
    cases l with
    | disjunction =>
      exact chain_alone (chain_alone (hb (raise _ _ (by decide) hs) ht hd hk
        (hrest.mono (by decide))) (hrest.mono (by decide))) hrest
    | conjunction =>
      exact chain_alone (hb (raise _ _ (by decide) hs) ht hd hk (hrest.mono (by decide))) hrest
    | basic => exact hb hs ht hd hk hrest
    | negated => exact absurd rfl hl
    | operand => exact ho hs ht hd hk hrest
  refine ⟨halone, ?_, hn⟩
  intro op d ks ts rest value rest' hs ht hd hk hcont htail
  rw [reader_level]
  refine chain_first (halone ?_ ?_ ht hd hk hcont.stops) ht hcont htail
  · cases op <;> simp [LogicalOp.rightLevel]
  · exact spells_mono (raise _ _ (by cases op <;> decide) hs) (by cases op <;> decide)

theorem basic_not {k : Kind} (hp : k ≠ .openParen) {o o' : Nat} {us : List Token} :
    g.basic nested (⟨.not, o⟩ :: ⟨k, o'⟩ :: us) = (do
      let e ← g.negated nested (⟨k, o'⟩ :: us)
      return .of e.value e.rest) := by
  cases k <;> first | contradiction | rfl

theorem negated_reads {a : Expr} {k : Kind} {ks : List Kind} (hp : k ≠ .openParen)
    (ht : a.HasType g.registry .logical) {us rest : List Token} (hus : kinds us = k :: ks)
    (hread : (g.operand nested (us ++ rest)).Reads a.asRead rest) (o : Nat) :
    (g.basic nested (⟨.not, o⟩ :: us ++ rest)).Reads (.not a) rest := by
  obtain ⟨o', vs, rfl, hvs⟩ := kinds_eq_cons.mp hus
  obtain ⟨below, hread⟩ := hread
  have hnegated : g.negated nested (⟨k, o'⟩ :: (vs ++ rest)) = .ok ⟨.not a, rest, below⟩ := by
    unfold negated
    simp only [List.cons_append] at hread
    simp only [bind, Except.bind, hread]
    split
    · rename_i v hv
      cases a <;> simp_all [Expr.asRead, Expr.HasType]
    · rw [Expr.asTest_asRead ht]
      rfl
  rw [List.cons_append, List.cons_append, basic_not hp]
  refine ⟨by grind, ?_⟩
  simp only [bind, Except.bind, hnegated]
  rfl

/-- Operands that stand alone. -/
theorem reads_of_operand {e : Expr} (hs : ∀ l ks, e.Spells l ks → e.Spells .operand ks)
    (ho : ReadsAlone g e .operand g.operand) (hc : ∀ op a b, e ≠ .logical op a b) :
    ExprReads g e := by
  refine reads_of_basic hc ho ?_ ?_
  · intro d ks t ts rest h ht hd hk hrest
    obtain ⟨k, ks', rfl, _, hhead⟩ := spells_head (hs _ _ h)
    obtain ⟨hn, hp⟩ := hhead rfl
    obtain ⟨below, hread⟩ := ho (hs _ _ h) ht hd hk (hrest.mono (by decide))
    have hfirst : kinds (ts ++ rest) = k :: (ks' ++ kinds rest) := by simp [hk]
    rw [basic_eq_comparison hfirst hn hp]
    refine ⟨below, ?_⟩
    unfold comparison
    simp only [bind, Except.bind, hread]
    split
    · simp [Stops, Level.extendedBy] at hrest
    · rfl
  · intro d ks ts rest h ht hd hk hrest o
    obtain ⟨k, ks', rfl, _, hhead⟩ := spells_head (hs _ _ h)
    exact negated_reads (hhead rfl).2 ht hk (ho (hs _ _ h) ht hd hk (hrest.mono (by decide))) o

theorem literal_reads (v : Json) : ExprReads g (.literal v) := by
  refine reads_of_operand (by intro l ks h; exact h) ?_ (by simp)
  intro d ks t ts rest ⟨k, hks, hv⟩ _ _ hk _
  subst hks
  obtain ⟨o, us, rfl, hus⟩ := kinds_eq_cons.mp hk
  rw [kinds_eq_nil.mp hus]
  cases v with
  | array | object => exact hv.elim
  | number x =>
    obtain ⟨n, rfl, hx⟩ := hv
    have hx : literalNumber o n = .ok x := literalNumber_ok.mpr hx
    refine ⟨by simp, ?_⟩
    simp only [operand, List.cons_append, List.nil_append, hx]
    rfl
  | null | bool | string => cases hv; exact ⟨by simp, rfl⟩

theorem query_operand_reads {anchor : Anchor} {ss : List Segment} (h : ∀ s ∈ ss, SegmentReads g s)
    {d : Nat} {path : List Kind} (hs : Segment.SpellsAll ss path)
    (ht : Segment.AllWellTyped g.registry ss) (hd : Segment.maxDepth ss ≤ d) {ts rest : List Token}
    (hk : kinds ts = anchor.kind :: path) (hrest : Stops .operand rest) :
    (g.operand (g.nested d) (ts ++ rest)).Reads (.query anchor ss) rest := by
  obtain ⟨o, us, rfl, hus⟩ := kinds_eq_cons.mp hk
  obtain ⟨below, hread⟩ := segments_reads h hs ht hd hus hrest
  refine ⟨by grind, ?_⟩
  cases anchor
  all_goals
    simp only [operand, Anchor.kind, List.cons_append, bind, Except.bind, hread]
    rfl

/-- A query is read the same way as an operand and as a test. -/
theorem query_reads {anchor : Anchor} {ss : List Segment} (h : ∀ s ∈ ss, SegmentReads g s)
    {e : Expr} (he : e = .query anchor ss ∨ e = .exists anchor ss) : ExprReads g e := by
  rcases he with rfl | rfl
  all_goals
    refine reads_of_operand (by intro l ks h; exact h) ?_ (by simp)
    intro d ks t ts rest ⟨path, hks, hs⟩ ht hd hk hrest
    exact query_operand_reads h hs ht.2 hd (hk.trans hks) hrest

theorem compare_reads {op : ComparisonOp} {a b : Expr} (ha : ExprReads g a) (hb : ExprReads g b) :
    ExprReads g (.compare op a b) := by
  refine reads_of_basic (by simp) (by rintro _ _ _ _ _ ⟨h, _⟩; exact absurd h (by decide)) ?_
    (by rintro _ _ _ _ ⟨h, _⟩; exact absurd h (by decide))
  intro d ks t ts rest ⟨_, left, right, hks, hleft, hright⟩ ⟨_, hta, htb⟩ hd hk hrest
  subst hks
  obtain ⟨us, vs, rfl, hus, hvs⟩ := kinds_eq_append.mp hk
  obtain ⟨o, ws, rfl, hws⟩ := kinds_eq_cons.mp hvs
  have hd' := Nat.max_le.mp hd
  obtain ⟨hra, hfa⟩ := Expr.comparable_asRead hta
  obtain ⟨hrb, hfb⟩ := Expr.comparable_asRead htb
  have hstop : Stops .operand (⟨.comparison op, o⟩ :: (ws ++ rest)) := rfl
  obtain ⟨below, hread⟩ := ha.alone (by simp) hleft hta hd'.1 hus hstop
  obtain ⟨below', hread'⟩ := hb.alone (by simp) hright htb hd'.2 hws (hrest.mono (by decide))
  obtain ⟨k, ks', rfl, _, hhead⟩ := spells_head hleft
  obtain ⟨hn, hp⟩ := hhead rfl
  have hfirst : kinds (us ++ ⟨.comparison op, o⟩ :: (ws ++ rest)) =
      k :: (ks' ++ .comparison op :: kinds (ws ++ rest)) := by simp [hus]
  rw [List.append_assoc, List.cons_append, basic_eq_comparison hfirst hn hp]
  simp only [reader] at hread hread'
  refine ⟨by grind, ?_⟩
  unfold comparison
  simp only [bind, Except.bind, hread]
  simp only [hread', hra, hrb, hfa, hfb]
  rfl

theorem paren_reads {a : Expr} (h : ExprReads g a) {d : Nat} {inner : List Kind}
    (hs : a.Spells .disjunction inner) (ht : a.HasType g.registry .logical)
    (hd : (Expr.paren a).depth ≤ d) {us : List Token} (hus : kinds us = inner) (o o' : Nat)
    (rest : List Token) :
    (g.paren (g.nested d) o (us ++ ⟨.closeParen, o'⟩ :: rest)).Reads (.paren a) rest := by
  cases d with
  | zero => simp [Expr.depth] at hd
  | succ d =>
    have hstop : Stops .disjunction (⟨.closeParen, o'⟩ :: rest) := rfl
    obtain ⟨below, hread⟩ := h.alone (by simp) hs ht (Nat.le_of_succ_le_succ hd) hus hstop
    rw [← expr_eq_reader] at hread
    refine ⟨by grind, ?_⟩
    unfold paren
    simp only [nested, enter, bind, Except.bind, hread, Expr.asTest_asRead ht, typed,
      Except.mapError]
    rfl

theorem paren_expr_reads {a : Expr} (h : ExprReads g a) : ExprReads g (.paren a) := by
  refine reads_of_basic (by simp) (by rintro _ _ _ _ _ ⟨h, _⟩; exact absurd h (by decide)) ?_ ?_
  · intro d ks t ts rest ⟨_, inner, hks, hs⟩ ⟨_, ht⟩ hd hk _
    subst hks
    obtain ⟨o, us, o', rfl, hus⟩ := kinds_eq_enclosed hk
    obtain ⟨below, hread⟩ := paren_reads h hs ht hd hus o o' rest
    rw [enclosed_append]
    refine ⟨by grind, ?_⟩
    simp only [basic, bind, Except.bind, hread]
    rfl
  · intro d ks ts rest ⟨_, inner, hks, hs⟩ ⟨_, ht⟩ hd hk _ o
    subst hks
    obtain ⟨o', us, o'', rfl, hus⟩ := kinds_eq_enclosed hk
    obtain ⟨below, hread⟩ := paren_reads h hs ht hd hus o' o'' rest
    rw [List.cons_append, enclosed_append]
    refine ⟨by grind, ?_⟩
    simp only [basic, bind, Except.bind, hread]
    rfl

theorem not_reads {a : Expr} (h : ExprReads g a) : ExprReads g (.not a) := by
  refine reads_of_basic (by simp) (by rintro _ _ _ _ _ ⟨h, _⟩; exact absurd h (by decide)) ?_
    (by rintro _ _ _ _ ⟨h, _⟩; exact absurd h (by decide))
  intro d ks t ts rest ⟨_, inner, hks, hs⟩ ⟨_, ht⟩ hd hk hrest
  subst hks
  obtain ⟨o, us, rfl, hus⟩ := kinds_eq_cons.mp hk
  exact h.negated hs ht hd hus (hrest.mono (by decide)) o

theorem logical_reads {op : LogicalOp} {a b : Expr} (ha : ExprReads g a) (hb : ExprReads g b) :
    ExprReads g (.logical op a b) := by
  have htail : ∀ ⦃d ks t ts rest value rest'⦄, (Expr.logical op a b).Spells op.level ks →
      (Expr.logical op a b).HasType g.registry t → (Expr.logical op a b).depth ≤ d →
      kinds ts = ks → Stops op.rightLevel rest →
      (g.chainTail op (g.reader (g.nested d) op.rightLevel) (.logical op a b) rest).Reads
        value rest' →
      (g.reader (g.nested d) op.level (ts ++ rest)).Reads value rest' := by
    intro d ks t ts rest value rest' ⟨_, left, right, hks, hleft, hright⟩ ⟨_, hta, htb⟩ hd hk hstop
      hread
    subst hks
    obtain ⟨us, vs, rfl, hus, hvs⟩ := kinds_eq_append.mp hk
    obtain ⟨o, ws, rfl, hws⟩ := kinds_eq_cons.mp hvs
    have hd' := Nat.max_le.mp hd
    rw [List.append_assoc]
    refine ha.chained hleft hta hd'.1 hus ⟨o, ws ++ rest, rfl⟩ ?_
    exact chainTail_step o (hb.alone (by cases op <;> simp [LogicalOp.rightLevel]) hright htb hd'.2
      hws hstop) htb hread
  have hlevel : ∀ ⦃d ks t ts rest⦄, (Expr.logical op a b).Spells op.level ks →
      (Expr.logical op a b).HasType g.registry t → (Expr.logical op a b).depth ≤ d →
      kinds ts = ks → Stops op.level rest →
      (g.reader (g.nested d) op.level (ts ++ rest)).Reads (.logical op a b) rest := by
    intro d ks t ts rest hs ht hd hk hrest
    exact htail hs ht hd hk (hrest.mono (rank_level_le_rightLevel op)) (chainTail_stop hrest)
  have hspells : ∀ l ks, (Expr.logical op a b).Spells l ks →
      (Expr.logical op a b).Spells op.level ks := fun l ks h => ⟨Nat.le_refl _, h.2⟩
  constructor
  · intro l d ks t ts rest _ hs ht hd hk hrest
    by_cases hl : l = op.level
    · subst hl
      exact hlevel hs ht hd hk hrest
    · obtain ⟨rfl, rfl⟩ : l = .disjunction ∧ op = .and := by
        have := hs.1
        cases l <;> cases op <;> simp_all [LogicalOp.level, Level.rank]
      have hconjunction := hlevel (hspells _ _ hs) ht hd hk (hrest.mono (by decide))
      exact @chain_alone g .or _ ts rest _ hconjunction hrest
  · intro op' d ks ts rest value rest' hs ht hd hk hcont hread
    by_cases hop : op' = op
    · subst hop
      exact htail hs ht hd hk hcont.stops hread
    · obtain ⟨rfl, rfl⟩ : op' = .or ∧ op = .and := by
        have := hs.1
        cases op' <;> cases op <;> simp_all [LogicalOp.level, Level.rank]
      have hconjunction := hlevel (hspells _ _ hs) ht hd hk hcont.stops
      exact chain_first (e := .logical .and a b) hconjunction ht hcont hread
  · intro d ks ts rest hs
    exact absurd hs.1 (by cases op <;> decide)

theorem haveTypes_length {r : Registry} {es : List Expr} {ts : List ExprType}
    (h : Expr.HaveTypes r es ts) : es.length = ts.length := by
  induction es generalizing ts with
  | nil => simp_all [Expr.HaveTypes]
  | cons e es ih =>
    cases ts with
    | nil => exact h.elim
    | cons t ts => simp [ih h.2]

theorem typedArguments_asRead {r : Registry} {es : List Expr} {ts : List ExprType}
    (h : Expr.HaveTypes r es ts) {given : List (Expr × Nat)}
    (hg : given.map Prod.fst = es.map Expr.asRead) (name : String) (position : Nat) :
    typedArguments name position ts given = .ok es := by
  induction es generalizing ts given position with
  | nil =>
    simp only [List.map_nil, List.map_eq_nil_iff] at hg
    subst hg
    cases ts <;> rfl
  | cons e es ih =>
    cases ts with
    | nil => exact h.elim
    | cons t ts =>
      obtain ⟨⟨first, o⟩, rest, rfl, hfirst, hrest⟩ := List.map_eq_cons_iff.mp hg
      simp only at hfirst
      subst hfirst
      exact typedArguments_cons.mpr ⟨e, es, Expr.asArgument_asRead h.1 name position,
        ih h.2 hrest (position + 1), rfl⟩

theorem arguments_reads {d : Nat} {e : Expr} {es : List Expr}
    (h : ∀ e' ∈ e :: es, ExprReads g e') {ks : List Kind} (hs : Expr.SpellsAll (e :: es) ks)
    {types : List ExprType} (ht : Expr.HaveTypes g.registry (e :: es) types)
    (hd : Expr.maxDepth (e :: es) ≤ d) {ts : List Token} (hk : kinds ts = ks) (o : Nat)
    (rest : List Token) :
    ∃ given, given.map Prod.fst = (e :: es).map Expr.asRead ∧
      (g.arguments (g.expr d) (ts ++ ⟨.closeParen, o⟩ :: rest)).Reads given rest := by
  induction es generalizing e ts ks types with
  | nil =>
    obtain ⟨first, others, rfl, hfirst, hothers⟩ := hs
    simp only [Expr.SpellsTail] at hothers
    subst hothers
    obtain ⟨us, vs, rfl, hus, hvs⟩ := kinds_eq_append.mp hk
    rw [kinds_eq_nil.mp hvs]
    have hd' := Nat.max_le.mp hd
    cases types with
    | nil => exact ht.elim
    | cons t types =>
      have hstop : Stops .disjunction (⟨.closeParen, o⟩ :: rest) := rfl
      obtain ⟨below, hread⟩ := (h e (by simp)).alone (by simp) hfirst ht.1 hd'.1 hus hstop
      rw [← expr_eq_reader] at hread
      rw [List.append_assoc, List.nil_append, arguments]
      refine ⟨[(e.asRead, g.offset (us ++ ⟨.closeParen, o⟩ :: rest))], rfl, by grind, ?_⟩
      simp only [hread]
      rfl
  | cons e' es ih =>
    obtain ⟨first, _, rfl, hfirst, second, others, rfl, hsecond, hothers⟩ := hs
    obtain ⟨us, vs, rfl, hus, hvs⟩ := kinds_eq_append.mp hk
    obtain ⟨o', ws, rfl, hws⟩ := kinds_eq_cons.mp hvs
    have hd' := Nat.max_le.mp hd
    cases types with
    | nil => exact ht.elim
    | cons t types =>
      have hstop : Stops .disjunction (⟨.comma, o'⟩ :: ws ++ ⟨.closeParen, o⟩ :: rest) := rfl
      obtain ⟨below, hread⟩ := (h e (by simp)).alone (by simp) hfirst ht.1 hd'.1 hus hstop
      obtain ⟨given, hgiven, below', hread'⟩ := ih (fun a ha => h a (List.mem_cons_of_mem e ha))
        ⟨second, others, rfl, hsecond, hothers⟩ ht.2 hd'.2 hws
      rw [← expr_eq_reader] at hread
      rw [List.append_assoc, arguments]
      refine ⟨(e.asRead, g.offset (us ++ (⟨.comma, o'⟩ :: ws ++ ⟨.closeParen, o⟩ :: rest))) ::
        given, by simp [hgiven], by grind, ?_⟩
      simp only [hread]
      simp only [List.cons_append, bind, Except.bind, hread']
      rfl

theorem optionalArguments_eq {k : Kind} (hk : k ≠ .closeParen) {read : Reader Expr} {o : Nat}
    {us : List Token} :
    g.optionalArguments read (⟨k, o⟩ :: us) = g.arguments read (⟨k, o⟩ :: us) := by
  cases k <;> first | contradiction | rfl

theorem call_reads {f : Extension} {args : List Expr} (h : ∀ e ∈ args, ExprReads g e) :
    ExprReads g (.call f args) := by
  refine reads_of_operand (by intro l ks h; exact h) ?_ (by simp)
  intro d ks t ts rest ⟨inner, hks, hs⟩ ⟨hf, _, ht⟩ hd hk _
  subst hks
  obtain ⟨o, us, rfl, hus⟩ := kinds_eq_cons.mp hk
  obtain ⟨o', us, o'', rfl, hus'⟩ := kinds_eq_enclosed hus
  cases d with
  | zero => simp [Expr.depth] at hd
  | succ d =>
    have hd := Nat.le_of_succ_le_succ hd
    obtain ⟨given, hgiven, below, hread⟩ : ∃ given,
        given.map Prod.fst = args.map Expr.asRead ∧
        (g.optionalArguments (g.expr d) (us ++ ⟨.closeParen, o''⟩ :: rest)).Reads given rest := by
      cases args with
      | nil =>
        rw [kinds_eq_nil.mp (hus'.trans hs)]
        exact ⟨[], rfl, by simp, rfl⟩
      | cons e es =>
        obtain ⟨first, others, rfl, hfirst, _⟩ := id hs
        obtain ⟨k, ks', rfl, hk', _⟩ := spells_head hfirst
        obtain ⟨o₁, vs, rfl, _⟩ := kinds_eq_cons.mp hus'
        obtain ⟨given, hgiven, hread⟩ := arguments_reads h hs ht hd hus' o'' rest
        refine ⟨given, hgiven, ?_⟩
        rwa [List.cons_append, optionalArguments_eq hk']
    have hl : f.params.length = given.length := by
      rw [← haveTypes_length ht, ← List.length_map (f := Prod.fst), hgiven, List.length_map]
    rw [List.cons_append, enclosed_append]
    refine ⟨by grind, ?_⟩
    have hcall : g.call (g.nested (d + 1)) f.name o
        (⟨.openParen, o'⟩ :: (us ++ ⟨.closeParen, o''⟩ :: rest)) =
        .ok ⟨.call f args, rest, by grind⟩ := by
      unfold call
      split
      · simp_all
      · rename_i f' hf'
        cases hf.symm.trans hf'
        simp only [nested, enter, bind, Except.bind, hread]
        rw [if_neg (by simpa using hl), typedArguments_asRead ht hgiven]
        rfl
    simp only [operand, bind, Except.bind, hcall]
    rfl

mutual

theorem reads_selector (g : Grammar) : ∀ s : Selector, SelectorReads g s
  | .filter e => by
    intro d ks ts rest ⟨inner, hks, hs⟩ ht hd hk hrest
    subst hks
    obtain ⟨o, us, rfl, hus⟩ := kinds_eq_cons.mp hk
    cases d with
    | zero => simp [Selector.depth] at hd
    | succ d =>
      have hstop : Stops .disjunction rest := by
        obtain ⟨o, us, rfl | rfl⟩ := hrest <;> rfl
      obtain ⟨below, hread⟩ :=
        (reads_expr g e).alone (by simp) hs ht (Nat.le_of_succ_le_succ hd) hus hstop
      rw [← expr_eq_reader] at hread
      refine ⟨by grind, ?_⟩
      simp only [List.cons_append, selector, nested, enter, bind, Except.bind, hread,
        Expr.asTest_asRead ht, typed, Except.mapError]
      rfl
  | .name _ | .wildcard | .index _ | .slice _ _ _ => nonfilter_reads (by simp)

theorem reads_selectors (g : Grammar) : ∀ ss : List Selector, ∀ s ∈ ss, SelectorReads g s
  | [] => by simp
  | s :: ss => List.forall_mem_cons.mpr ⟨reads_selector g s, reads_selectors g ss⟩

theorem reads_segment (g : Grammar) : ∀ s : Segment, SegmentReads g s
  | .child ss => segment_reads (reads_selectors g ss)
  | .descendant ss => segment_reads (reads_selectors g ss)

theorem reads_segments (g : Grammar) : ∀ ss : List Segment, ∀ s ∈ ss, SegmentReads g s
  | [] => by simp
  | s :: ss => List.forall_mem_cons.mpr ⟨reads_segment g s, reads_segments g ss⟩

theorem reads_expr (g : Grammar) : ∀ e : Expr, ExprReads g e
  | .logical _ a b => logical_reads (reads_expr g a) (reads_expr g b)
  | .not a => not_reads (reads_expr g a)
  | .paren a => paren_expr_reads (reads_expr g a)
  | .compare _ a b => compare_reads (reads_expr g a) (reads_expr g b)
  | .exists _ ss => query_reads (reads_segments g ss) (.inr rfl)
  | .query _ ss => query_reads (reads_segments g ss) (.inl rfl)
  | .call _ args => call_reads (reads_exprs g args)
  | .literal v => literal_reads v

theorem reads_exprs (g : Grammar) : ∀ es : List Expr, ∀ e ∈ es, ExprReads g e
  | [] => by simp
  | e :: es => List.forall_mem_cons.mpr ⟨reads_expr g e, reads_exprs g es⟩

end

/-- Whatever tokens spell, well typed and nested no deeper than allowed, is read from them. -/
theorem query_complete {g : Grammar} {ts : List Token} {q : Query} (hs : q.Spells (kinds ts))
    (ht : q.WellTyped g.registry) (hd : q.depth ≤ g.maxDepth) : g.query ts = .ok q := by
  obtain ⟨path, hks, hs⟩ := hs
  obtain ⟨o, us, rfl, hus⟩ := kinds_eq_cons.mp hks
  have hstop : Stops .operand [] := trivial
  have hread := segments_reads (fun s _ => reads_segment g s) hs ht hd hus hstop
  rw [List.append_nil] at hread
  obtain ⟨below, hread⟩ := hread
  simp only [query, bind, Except.bind, hread]
  rfl

end Grammar
end JsonQuery
