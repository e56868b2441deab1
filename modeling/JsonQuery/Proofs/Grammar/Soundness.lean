import Mathlib
import JsonQuery.Proofs.Grammar.Spelling
import JsonQuery.Proofs.Grammar.Typing
import JsonQuery.Proofs.Grammar.Depth
import JsonQuery.Proofs.Text.Read

namespace JsonQuery
open Token (Kind kinds)

@[simp] theorem ExprType.fitsAs_logical {t : ExprType} : t.FitsAs .logical ↔ t ≠ .value := by
  cases t <;> simp [FitsAs]

@[simp] theorem ExprType.fitsAs_self (t : ExprType) : t.FitsAs t := .inl rfl

namespace Grammar

@[simp] theorem kinds_cons (k : Kind) (o : Nat) (ts : List Token) :
    kinds (⟨k, o⟩ :: ts) = k :: kinds ts := rfl

@[simp] theorem kinds_nil : kinds [] = [] := rfl

@[simp] theorem kinds_append (ts us : List Token) : kinds (ts ++ us) = kinds ts ++ kinds us :=
  List.map_append

theorem unexpected_ne_ok {α : Type} {g : Grammar} {expected : Expectation} {ts : List Token}
    {a : α} : g.unexpected expected ts ≠ .ok a := by
  cases ts <;> simp [unexpected]

theorem typed_ok {α : Type} {o : Nat} {x : Except TypeFault α} {a : α} :
    typed o x = .ok a ↔ x = .ok a := by
  cases x <;> simp [typed, Except.mapError]

theorem enter_ok {g : Grammar} {nested : Option (Reader Expr)} {o : Nat} {read : Reader Expr} :
    g.enter nested o = .ok read ↔ nested = some read := by
  cases nested <;> simp [enter]

theorem index_ok {o : Nat} {n : Numeral} {i : Int} :
    index o n = .ok i ↔ n.SpellsIndex i ∧ InIndexRange i := by
  unfold index Numeral.SpellsIndex InIndexRange
  cases n.isInteger <;> cases n.isMinusZero <;> simp
  split <;> simp <;> grind

theorem literalNumber_ok {o : Nat} {n : Numeral} {x : Number} :
    literalNumber o n = .ok x ↔ n.value? (-2 ^ 63) (2 ^ 63 - 1) = some x := by
  unfold literalNumber
  split <;> simp_all

/-- What can be said of everything that a reader takes: `holds` of the part and the kinds of its
tokens. -/
def Part.Yields {α : Type} {bound : Nat} (p : Part α bound) (ts : List Token)
    (holds : α → List Kind → Prop) : Prop :=
  ∀ r, p = .ok r → ∃ ks, kinds ts = ks ++ kinds r.rest ∧ holds r.value ks

theorem optionalIndex_sound (ts : List Token) :
    (optionalIndex ts).Yields ts (fun i ks =>
      SpellsOptionalIndex i ks ∧ ∀ j ∈ i, InIndexRange j) := by
  intro r h
  unfold optionalIndex at h
  split at h
  · rename_i n o rest
    simp only [bind_ok, pure_ok, index_ok] at h
    obtain ⟨i, ⟨hn, hi⟩, rfl⟩ := h
    exact ⟨[.number n], rfl, ⟨n, rfl, hn⟩, by simpa using hi⟩
  · cases h
    exact ⟨[], rfl, rfl, by simp⟩

theorem sliceTail_sound (start : Option Int) (ts : List Token) :
    (sliceTail start ts).Yields ts (fun s ks => ∃ stop step second third,
      s = .slice start stop step ∧ SpellsOptionalIndex stop second ∧
      SpellsOptionalIndex step third ∧
      (ks = second ∧ third = [] ∨ ks = second ++ .colon :: third) ∧
      (∀ i ∈ stop, InIndexRange i) ∧ ∀ i ∈ step, InIndexRange i) := by
  intro r h
  unfold sliceTail at h
  simp only [bind_ok] at h
  obtain ⟨stop, hstop, h⟩ := h
  obtain ⟨second, hsecond, hs, hsr⟩ := optionalIndex_sound ts stop hstop
  split at h
  · rename_i o rest hrest
    simp only [bind_ok, pure_ok] at h
    obtain ⟨step, hstep, rfl⟩ := h
    obtain ⟨third, hthird, ht, htr⟩ := optionalIndex_sound rest step hstep
    exact ⟨second ++ .colon :: third, hsecond.trans (by simp [hrest, hthird]), stop.value,
      step.value, second, third, rfl, hs, ht, .inr rfl, hsr, htr⟩
  · simp only [pure_ok] at h
    subst h
    exact ⟨second, hsecond, stop.value, none, second, [], rfl, hs, rfl, .inl ⟨rfl, rfl⟩, hsr,
      by simp⟩

/-- A slice from its start and what stands behind the first colon. -/
theorem slice_spells {start stop step : Option Int} {first second third ks : List Kind}
    (hstart : SpellsOptionalIndex start first) (hstop : SpellsOptionalIndex stop second)
    (hstep : SpellsOptionalIndex step third)
    (hk : ks = second ∧ third = [] ∨ ks = second ++ .colon :: third) :
    (Selector.slice start stop step).Spells (first ++ .colon :: ks) := by
  refine ⟨first, second, third, hstart, hstop, hstep, ?_⟩
  rcases hk with ⟨rfl, rfl⟩ | rfl
  · exact .inl ⟨rfl, rfl⟩
  · exact .inr (by simp)

theorem shorthand_sound (g : Grammar) (ts : List Token) :
    (g.shorthand ts).Yields ts (fun s ks =>
      ∃ k, ks = [k] ∧ s.SpelledShort k ∧ s.WellTyped g.registry ∧ s.depth = 0) := by
  intro r h
  unfold shorthand at h
  split at h
  · cases h
    exact ⟨[_], rfl, _, rfl, rfl, by simp [Selector.WellTyped], by simp [Selector.depth]⟩
  · cases h
    exact ⟨[_], rfl, _, rfl, rfl, by simp [Selector.WellTyped], by simp [Selector.depth]⟩
  · exact absurd h unexpected_ne_ok

/-- What a reader takes inside a filter, parenthesis or call, which fills one of `d` levels. -/
def ReadsNested (g : Grammar) (d : Nat) (read : Reader Expr) : Prop :=
  ∀ ts, (read ts).Yields ts (fun e ks =>
    e.Spells .disjunction ks ∧ e.HasType g.registry e.type ∧ e.depth < d)

def NestedSound (g : Grammar) (nested : Option (Reader Expr)) (d : Nat) : Prop :=
  ∀ read, nested = some read → 0 < d ∧ ReadsNested g d read

end Grammar

namespace Expr

/-- The type that an expression shows is one of those it has. -/
theorem hasType_type {r : Registry} {e : Expr} {t : ExprType} (h : e.HasType r t) :
    e.HasType r e.type := by
  cases e <;> simp_all [HasType, type]

theorem asTest_ok {r : Registry} {e test : Expr} (h : e.asTest = .ok test)
    (ht : e.HasType r e.type) : test.HasType r .logical := by
  cases e <;> simp only [asTest, Except.ok.injEq, reduceCtorEq] at h
  case call f args =>
    split at h
    · cases h
    · rename_i hf
      cases h
      simp only [HasType, type] at ht ⊢
      exact ⟨ht.1, ExprType.fitsAs_logical.mpr hf, ht.2.2⟩
  all_goals subst h; simp_all [HasType, type]

theorem asTest_spells {e test : Expr} (h : e.asTest = .ok test) {l : Level} {ks : List Kind}
    (hs : e.Spells l ks) : test.Spells l ks := by
  cases e <;> simp only [asTest, Except.ok.injEq, reduceCtorEq] at h
  case call f args => split at h <;> cases h; exact hs
  all_goals subst h; simpa [Spells] using hs

theorem asTest_depth {e test : Expr} (h : e.asTest = .ok test) : test.depth = e.depth := by
  cases e <;> simp only [asTest, Except.ok.injEq, reduceCtorEq] at h
  case call f args => split at h <;> cases h; rfl
  all_goals subst h; simp [depth]

theorem comparisonFault_none {r : Registry} {e : Expr} (h : e.comparisonFault? = none)
    (ht : e.HasType r e.type) : e.HasType r .value := by
  cases e <;> simp [comparisonFault?] at h
  all_goals simp_all [HasType, type, ExprType.FitsAs]

theorem asArgument_ok {r : Registry} {name : String} {position : Nat} {t : ExprType} {e arg : Expr}
    (h : e.asArgument name position t = .ok arg) (ht : e.HasType r e.type) : arg.HasType r t := by
  unfold asArgument at h
  split at h
  · cases h
    simp_all [HasType, type]
  · split at h
    · cases h
      rename_i hf
      cases t <;> cases e <;> simp_all [fits, HasType, type]
    · cases h

theorem asArgument_spells {name : String} {position : Nat} {t : ExprType} {e arg : Expr}
    (h : e.asArgument name position t = .ok arg) {l : Level} {ks : List Kind}
    (hs : e.Spells l ks) : arg.Spells l ks := by
  unfold asArgument at h
  split at h
  · cases h
    simpa [Spells] using hs
  · split at h <;> cases h
    exact hs

theorem asArgument_depth {name : String} {position : Nat} {t : ExprType} {e arg : Expr}
    (h : e.asArgument name position t = .ok arg) : arg.depth = e.depth := by
  unfold asArgument at h
  split at h
  · cases h
    simp [depth]
  · split at h <;> cases h
    rfl

end Expr

namespace Grammar

variable {g : Grammar} {nested : Option (Reader Expr)} {d : Nat}

theorem selector_sound (hn : NestedSound g nested d) (ts : List Token) :
    (g.selector nested ts).Yields ts (fun s ks =>
      s.Spells ks ∧ s.WellTyped g.registry ∧ s.depth ≤ d) := by
  intro r h
  unfold selector at h
  split at h
  · cases h
    exact ⟨[_], rfl, rfl, trivial, Nat.zero_le d⟩
  · cases h
    exact ⟨[_], rfl, rfl, trivial, Nat.zero_le d⟩
  · rename_i n o o' rest
    simp only [bind_ok, pure_ok, index_ok] at h
    obtain ⟨start, ⟨hi, hr⟩, slice, hslice, rfl⟩ := h
    obtain ⟨ks, hks, stop, step, second, third, hv, hs, ht, hkinds, hsr, htr⟩ :=
      sliceTail_sound (some start) rest slice hslice
    have hstart : SpellsOptionalIndex (some start) [.number n] := ⟨n, rfl, hi⟩
    refine ⟨.number n :: .colon :: ks, by simp [hks], ?_⟩
    rw [hv]
    exact ⟨slice_spells hstart hs ht hkinds, ⟨by simpa using hr, hsr, htr⟩, Nat.zero_le d⟩
  · rename_i n o rest _
    simp only [bind_ok, pure_ok, index_ok] at h
    obtain ⟨i, ⟨hi, hr⟩, rfl⟩ := h
    exact ⟨[.number n], rfl, ⟨n, rfl, hi⟩, hr, Nat.zero_le d⟩
  · rename_i o rest
    simp only [bind_ok, pure_ok] at h
    obtain ⟨slice, hslice, rfl⟩ := h
    obtain ⟨ks, hks, stop, step, second, third, hv, hs, ht, hkinds, hsr, htr⟩ :=
      sliceTail_sound none rest slice hslice
    have hstart : SpellsOptionalIndex none [] := rfl
    refine ⟨.colon :: ks, by simp [hks], ?_⟩
    rw [hv]
    exact ⟨slice_spells hstart hs ht hkinds, ⟨by simp, hsr, htr⟩, Nat.zero_le d⟩
  · rename_i o rest
    simp only [bind_ok, pure_ok, enter_ok, typed_ok] at h
    obtain ⟨read, hread, e, he, test, htest, rfl⟩ := h
    obtain ⟨ks, hks, hs, ht, hd⟩ := (hn read hread).2 rest e he
    refine ⟨.question :: ks, by simp [hks], ⟨ks, rfl, Expr.asTest_spells htest hs⟩,
      Expr.asTest_ok htest ht, ?_⟩
    simp only [Selector.depth, Expr.asTest_depth htest]
    omega
  · exact absurd h unexpected_ne_ok

theorem selectors_tail {ss : List Selector} {ks : List Kind} (h : Selector.SpellsAll ss ks) :
    Selector.SpellsTail ss (.comma :: ks) := by
  cases ss with
  | nil => exact h.elim
  | cons s ss =>
    obtain ⟨first, others, rfl, hs, ht⟩ := h
    exact ⟨first, others, rfl, hs, ht⟩

theorem selectors_ne_nil {ss : List Selector} {ks : List Kind} (h : Selector.SpellsAll ss ks) :
    ss ≠ [] := by
  rintro rfl
  exact h.elim

theorem selectors_sound (hn : NestedSound g nested d) (ts : List Token) :
    (g.selectors nested ts).Yields ts (fun ss ks => ∃ inner, ks = inner ++ [.closeBracket] ∧
      Selector.SpellsAll ss inner ∧ Selector.AllWellTyped g.registry ss ∧
      Selector.maxDepth ss ≤ d) := by
  intro r h
  rw [selectors] at h
  simp only [bind_ok] at h
  obtain ⟨first, hfirst, h⟩ := h
  obtain ⟨ks, hks, hs, ht, hd⟩ := selector_sound hn ts first hfirst
  split at h
  · rename_i o rest hrest
    simp only [bind_ok, pure_ok] at h
    obtain ⟨others, hothers, rfl⟩ := h
    have := first.below
    have : rest.length < ts.length := by simp_all; omega
    obtain ⟨ks', hks', inner, rfl, hs', ht', hd'⟩ := selectors_sound hn rest others hothers
    exact ⟨ks ++ .comma :: inner ++ [.closeBracket], hks.trans (by simp [hrest, hks']),
      ks ++ .comma :: inner, rfl, ⟨ks, _, rfl, hs, selectors_tail hs'⟩, ⟨ht, ht'⟩,
      Nat.max_le.mpr ⟨hd, hd'⟩⟩
  · rename_i o rest hrest
    simp only [pure_ok] at h
    subst h
    exact ⟨ks ++ [.closeBracket], hks.trans (by simp [hrest]), ks, rfl,
      ⟨ks, [], by simp, hs, rfl⟩, ⟨ht, trivial⟩, Nat.max_le.mpr ⟨hd, Nat.zero_le d⟩⟩
  · exact absurd h unexpected_ne_ok
termination_by ts.length

/-- What can be said of segments, from the first and the others. -/
theorem segments_cons {s : Segment} {ss : List Segment} {first others : List Kind}
    (hs : s.Spells first) (ht : s.WellTyped g.registry) (hd : s.depth ≤ d)
    (h : Segment.SpellsAll ss others ∧ Segment.AllWellTyped g.registry ss ∧
      Segment.maxDepth ss ≤ d) :
    Segment.SpellsAll (s :: ss) (first ++ others) ∧ Segment.AllWellTyped g.registry (s :: ss) ∧
      Segment.maxDepth (s :: ss) ≤ d := by
  obtain ⟨hspells, htyped, hdepth⟩ := h
  exact ⟨⟨first, others, rfl, hs, hspells⟩, ⟨ht, htyped⟩, Nat.max_le.mpr ⟨hd, hdepth⟩⟩

theorem segments_sound (hn : NestedSound g nested d) (ts : List Token) :
    (g.segments nested ts).Yields ts (fun ss ks =>
      Segment.SpellsAll ss ks ∧ Segment.AllWellTyped g.registry ss ∧ Segment.maxDepth ss ≤ d) := by
  intro r h
  unfold segments at h
  split at h
  · rename_i o rest
    simp only [bind_ok, pure_ok] at h
    obtain ⟨s, hs, others, hothers, rfl⟩ := h
    obtain ⟨_, hks, k, rfl, hshort, ht, hd⟩ := shorthand_sound g rest s hs
    have := s.below
    obtain ⟨ks', hks', hrest⟩ := segments_sound hn s.rest others hothers
    have hdepth : (Segment.child [s.value]).depth ≤ d := by
      simp [Segment.depth, Selector.maxDepth, hd]
    exact ⟨[.dot, k] ++ ks', by simp [hks, hks'],
      segments_cons (.inl ⟨s.value, k, rfl, hshort, rfl⟩) ⟨by simp, ht, trivial⟩ hdepth hrest⟩
  · rename_i o o' rest
    simp only [bind_ok, pure_ok] at h
    obtain ⟨ss, hss, others, hothers, rfl⟩ := h
    obtain ⟨_, hks, inner, rfl, hs, ht, hd⟩ := selectors_sound hn rest ss hss
    have := ss.below
    obtain ⟨ks', hks', hrest⟩ := segments_sound hn ss.rest others hothers
    exact ⟨.doubleDot :: .openBracket :: inner ++ [.closeBracket] ++ ks', by simp [hks, hks'],
      segments_cons (.inr ⟨inner, rfl, hs⟩) ⟨selectors_ne_nil hs, ht⟩ hd hrest⟩
  · rename_i o rest _
    simp only [bind_ok, pure_ok] at h
    obtain ⟨s, hs, others, hothers, rfl⟩ := h
    obtain ⟨_, hks, k, rfl, hshort, ht, hd⟩ := shorthand_sound g rest s hs
    have := s.below
    obtain ⟨ks', hks', hrest⟩ := segments_sound hn s.rest others hothers
    have hdepth : (Segment.descendant [s.value]).depth ≤ d := by
      simp [Segment.depth, Selector.maxDepth, hd]
    exact ⟨[.doubleDot, k] ++ ks', by simp [hks, hks'],
      segments_cons (.inl ⟨s.value, k, rfl, hshort, rfl⟩) ⟨by simp, ht, trivial⟩ hdepth hrest⟩
  · rename_i o rest
    simp only [bind_ok, pure_ok] at h
    obtain ⟨ss, hss, others, hothers, rfl⟩ := h
    obtain ⟨_, hks, inner, rfl, hs, ht, hd⟩ := selectors_sound hn rest ss hss
    have := ss.below
    obtain ⟨ks', hks', hrest⟩ := segments_sound hn ss.rest others hothers
    exact ⟨.openBracket :: inner ++ [.closeBracket] ++ ks', by simp [hks, hks'],
      segments_cons (.inr ⟨inner, rfl, hs⟩) ⟨selectors_ne_nil hs, ht⟩ hd hrest⟩
  · cases h
    exact ⟨[], rfl, rfl, trivial, Nat.zero_le d⟩
termination_by ts.length
decreasing_by
  all_goals subst_vars; simp only [List.length_cons]; omega

theorem arguments_tail {es : List Expr} {ks : List Kind} (h : Expr.SpellsAll es ks)
    (hne : es ≠ []) : Expr.SpellsTail es (.comma :: ks) := by
  cases es with
  | nil => exact absurd rfl hne
  | cons e es =>
    obtain ⟨first, others, rfl, hs, ht⟩ := h
    exact ⟨first, others, rfl, hs, ht⟩

theorem arguments_sound {read : Reader Expr} (hn : ReadsNested g d read) (ts : List Token) :
    (g.arguments read ts).Yields ts (fun es ks => ∃ inner, ks = inner ++ [.closeParen] ∧ es ≠ [] ∧
      Expr.SpellsAll (es.map Prod.fst) inner ∧
      ∀ e ∈ es, e.1.HasType g.registry e.1.type ∧ e.1.depth < d) := by
  intro r h
  rw [arguments] at h
  simp only [bind_ok] at h
  obtain ⟨first, hfirst, h⟩ := h
  obtain ⟨ks, hks, hs, htd⟩ := hn ts first hfirst
  split at h
  · rename_i o rest hrest
    simp only [bind_ok, pure_ok] at h
    obtain ⟨others, hothers, rfl⟩ := h
    have := first.below
    have : rest.length < ts.length := by simp_all; omega
    obtain ⟨_, hks', inner, rfl, hne, hs', htd'⟩ := arguments_sound hn rest others hothers
    have htail := arguments_tail hs' (by simpa using hne)
    refine ⟨ks ++ .comma :: inner ++ [.closeParen], hks.trans (by simp [hrest, hks']),
      ks ++ .comma :: inner, rfl, by simp, ⟨ks, _, rfl, hs, htail⟩, ?_⟩
    intro e he
    rcases List.mem_cons.mp he with rfl | he
    · exact htd
    · exact htd' e he
  · rename_i o rest hrest
    simp only [pure_ok] at h
    subst h
    exact ⟨ks ++ [.closeParen], hks.trans (by simp [hrest]), ks, rfl, by simp,
      ⟨ks, [], by simp, hs, rfl⟩, by simpa using htd⟩
  · exact absurd h unexpected_ne_ok
termination_by ts.length

theorem optionalArguments_sound {read : Reader Expr} (hn : ReadsNested g d read) (ts : List Token) :
    (g.optionalArguments read ts).Yields ts (fun es ks => ∃ inner, ks = inner ++ [.closeParen] ∧
      Expr.SpellsAll (es.map Prod.fst) inner ∧
      ∀ e ∈ es, e.1.HasType g.registry e.1.type ∧ e.1.depth < d) := by
  intro r h
  unfold optionalArguments at h
  split at h
  · cases h
    exact ⟨[.closeParen], rfl, [], rfl, rfl, by simp⟩
  · obtain ⟨ks, hks, inner, hinner, _, hs, htd⟩ := arguments_sound hn ts r h
    exact ⟨ks, hks, inner, hinner, hs, htd⟩

theorem typedArguments_cons {name : String} {position : Nat} {t : ExprType} {ts : List ExprType}
    {e : Expr} {o : Nat} {es : List (Expr × Nat)} {args : List Expr} :
    typedArguments name position (t :: ts) ((e, o) :: es) = .ok args ↔ ∃ arg others,
      e.asArgument name position t = .ok arg ∧
      typedArguments name (position + 1) ts es = .ok others ∧ args = arg :: others := by
  simp only [typedArguments, bind_ok, typed_ok, pure_ok]
  grind

theorem typedArguments_sound {name : String} {position : Nat} {ts : List ExprType}
    {es : List (Expr × Nat)} {args : List Expr} (h : typedArguments name position ts es = .ok args)
    (hl : ts.length = es.length)
    (htd : ∀ e ∈ es, e.1.HasType g.registry e.1.type ∧ e.1.depth < d) :
    Expr.HaveTypes g.registry args ts ∧ (∀ e ∈ args, e.depth < d) ∧
      (∀ ks, Expr.SpellsTail (es.map Prod.fst) ks → Expr.SpellsTail args ks) ∧
      ∀ ks, Expr.SpellsAll (es.map Prod.fst) ks → Expr.SpellsAll args ks := by
  induction ts generalizing position es args with
  | nil =>
    cases es with
    | nil => cases h; simp [Expr.HaveTypes]
    | cons => simp at hl
  | cons t ts ih =>
    cases es with
    | nil => simp at hl
    | cons e es =>
      obtain ⟨e, o⟩ := e
      obtain ⟨arg, others, harg, hothers, rfl⟩ := typedArguments_cons.mp h
      simp only [List.mem_cons, forall_eq_or_imp] at htd
      obtain ⟨ht, hd, htail, _⟩ := ih hothers (by simpa using hl) htd.2
      refine ⟨⟨Expr.asArgument_ok harg htd.1.1, ht⟩, ?_, ?_, ?_⟩
      · simpa [Expr.asArgument_depth harg] using ⟨htd.1.2, hd⟩
      · rintro _ ⟨first, rest, rfl, hs, hs'⟩
        exact ⟨first, rest, rfl, Expr.asArgument_spells harg hs, htail _ hs'⟩
      · rintro _ ⟨first, rest, rfl, hs, hs'⟩
        exact ⟨first, rest, rfl, Expr.asArgument_spells harg hs, htail _ hs'⟩

theorem maxDepth_lt {es : List Expr} {d : Nat} (hd : 0 < d) (h : ∀ e ∈ es, e.depth < d) :
    Expr.maxDepth es < d := by
  induction es with
  | nil => simpa [Expr.maxDepth] using hd
  | cons e es ih =>
    simp only [List.mem_cons, forall_eq_or_imp] at h
    exact Nat.max_lt.mpr ⟨h.1, ih h.2⟩

/-- An expression as it is read, before its place decides whether it fits. -/
def IsRead (g : Grammar) (l : Level) (d : Nat) (e : Expr) (ks : List Kind) : Prop :=
  e.Spells l ks ∧ e.HasType g.registry e.type ∧ e.depth ≤ d

def IsTest (g : Grammar) (l : Level) (d : Nat) (e : Expr) (ks : List Kind) : Prop :=
  e.Spells l ks ∧ e.HasType g.registry .logical ∧ e.depth ≤ d

theorem IsRead.asTest {l : Level} {e test : Expr} {ks : List Kind} (h : IsRead g l d e ks)
    (ht : e.asTest = .ok test) : IsTest g l d test ks :=
  ⟨Expr.asTest_spells ht h.1, Expr.asTest_ok ht h.2.1, Expr.asTest_depth ht ▸ h.2.2⟩

theorem IsTest.isRead {l : Level} {e : Expr} {ks : List Kind} (h : IsTest g l d e ks) :
    IsRead g l d e ks := ⟨h.1, Expr.hasType_type h.2.1, h.2.2⟩

theorem lookup_name {r : Registry} {name : String} {f : Extension} (h : r.lookup name = some f) :
    f.name = name := by
  simpa using List.find?_some h

theorem call_sound (hn : NestedSound g nested d) (name : String)
    (o : Nat) (ts : List Token) :
    (g.call nested name o ts).Yields ts (fun e ks =>
      IsRead g .operand d e (.function name :: ks)) := by
  intro r h
  unfold call at h
  split at h
  · cases h
  · rename_i f hf
    split at h
    · rename_i o' rest
      simp only [bind_ok, enter_ok] at h
      obtain ⟨read, hread, given, hgiven, h⟩ := h
      obtain ⟨_, hks, inner, rfl, hs, htd⟩ :=
        optionalArguments_sound (hn read hread).2 rest given hgiven
      split at h
      · cases h
      · rename_i hl
        simp only [bind_ok, pure_ok] at h
        obtain ⟨args, hargs, rfl⟩ := h
        obtain ⟨ht, hd, _, hspell⟩ := typedArguments_sound hargs (by simpa using hl) htd
        have hname := lookup_name hf
        subst hname
        exact ⟨.openParen :: inner ++ [.closeParen], by simp [hks], ⟨inner, rfl, hspell _ hs⟩,
          ⟨hf, ExprType.fitsAs_self _, ht⟩, maxDepth_lt (hn read hread).1 hd⟩
    · exact absurd h unexpected_ne_ok

theorem operand_sound (hn : NestedSound g nested d) (ts : List Token) :
    (g.operand nested ts).Yields ts (IsRead g .operand d) := by
  intro r h
  unfold operand at h
  split at h
  · cases h
    exact ⟨[_], rfl, ⟨_, rfl, rfl⟩, ⟨rfl, trivial⟩, Nat.zero_le d⟩
  · rename_i n o rest
    simp only [bind_ok, pure_ok, literalNumber_ok] at h
    obtain ⟨x, hx, rfl⟩ := h
    exact ⟨[.number n], rfl, ⟨_, rfl, n, rfl, hx⟩, ⟨rfl, trivial⟩, Nat.zero_le d⟩
  · cases h
    exact ⟨[_], rfl, ⟨_, rfl, rfl⟩, ⟨rfl, trivial⟩, Nat.zero_le d⟩
  · cases h
    exact ⟨[_], rfl, ⟨_, rfl, rfl⟩, ⟨rfl, trivial⟩, Nat.zero_le d⟩
  · rename_i o rest
    simp only [bind_ok, pure_ok] at h
    obtain ⟨ss, hss, rfl⟩ := h
    obtain ⟨ks, hks, hs, ht, hd⟩ := segments_sound hn rest ss hss
    exact ⟨.root :: ks, by simp [hks], ⟨ks, rfl, hs⟩, ⟨.inl rfl, ht⟩, hd⟩
  · rename_i o rest
    simp only [bind_ok, pure_ok] at h
    obtain ⟨ss, hss, rfl⟩ := h
    obtain ⟨ks, hks, hs, ht, hd⟩ := segments_sound hn rest ss hss
    exact ⟨.current :: ks, by simp [hks], ⟨ks, rfl, hs⟩, ⟨.inl rfl, ht⟩, hd⟩
  · rename_i name o rest
    simp only [bind_ok, pure_ok] at h
    obtain ⟨e, he, rfl⟩ := h
    obtain ⟨ks, hks, hr⟩ := call_sound hn name o rest e he
    exact ⟨.function name :: ks, by simp [hks], hr⟩
  · exact absurd h unexpected_ne_ok

theorem paren_sound (hn : NestedSound g nested d) (o : Nat) (ts : List Token) :
    (g.paren nested o ts).Yields ts (fun e ks => IsTest g .negated d e (.openParen :: ks)) := by
  intro r h
  unfold paren at h
  simp only [bind_ok, enter_ok, typed_ok] at h
  obtain ⟨read, hread, e, he, test, htest, h⟩ := h
  obtain ⟨ks, hks, hs, ht, hd⟩ := (hn read hread).2 ts e he
  split at h
  · rename_i o' rest hrest
    simp only [pure_ok] at h
    subst h
    refine ⟨ks ++ [.closeParen], hks.trans (by simp [hrest]),
      ⟨Nat.le_refl _, ks, rfl, Expr.asTest_spells htest hs⟩, ⟨rfl, Expr.asTest_ok htest ht⟩, ?_⟩
    simp only [Expr.depth, Expr.asTest_depth htest]
    omega
  · exact absurd h unexpected_ne_ok

/-- A part that binds more may stand where one that binds less is wanted. -/
theorem spells_mono {e : Expr} {l m : Level} {ks : List Kind} (h : e.Spells m ks)
    (hl : l.rank ≤ m.rank) : e.Spells l ks := by
  cases e <;> simp only [Expr.Spells] at h ⊢ <;> first | exact h | exact ⟨by omega, h.2⟩

theorem comparison_sound (hn : NestedSound g nested d)
    (ts : List Token) : (g.comparison nested ts).Yields ts (IsRead g .basic d) := by
  intro r h
  unfold comparison at h
  simp only [bind_ok] at h
  obtain ⟨left, hleft, h⟩ := h
  obtain ⟨ks, hks, hs, ht, hd⟩ := operand_sound hn ts left hleft
  split at h
  · rename_i op o rest hrest
    simp only [bind_ok] at h
    obtain ⟨right, hright, h⟩ := h
    obtain ⟨ks', hks', hs', ht', hd'⟩ := operand_sound hn rest right hright
    split at h
    · cases h
    · rename_i hfault
      split at h
      · cases h
      · rename_i hfault'
        simp only [pure_ok] at h
        subst h
        exact ⟨ks ++ .comparison op :: ks', hks.trans (by simp [hrest, hks']),
          ⟨Nat.le_refl _, ks, ks', rfl, hs, hs'⟩,
          ⟨rfl, Expr.comparisonFault_none (Option.eq_none_iff_forall_ne_some.mpr hfault) ht,
            Expr.comparisonFault_none (Option.eq_none_iff_forall_ne_some.mpr hfault') ht'⟩,
          Nat.max_le.mpr ⟨hd, hd'⟩⟩
  · simp only [pure_ok] at h
    subst h
    exact ⟨ks, hks, spells_mono hs (by decide), ht, hd⟩

theorem negated_sound (hn : NestedSound g nested d) (ts : List Token) :
    (g.negated nested ts).Yields ts (fun e ks => IsRead g .basic d e (.not :: ks)) := by
  intro r h
  unfold negated at h
  simp only [bind_ok] at h
  obtain ⟨e, he, h⟩ := h
  obtain ⟨ks, hks, hr⟩ := operand_sound hn ts e he
  split at h
  · cases h
  · simp only [bind_ok, typed_ok, pure_ok] at h
    obtain ⟨test, htest, rfl⟩ := h
    obtain ⟨hs, ht, hd⟩ := hr.asTest htest
    exact ⟨ks, hks, ⟨Nat.le_refl _, ks, rfl, spells_mono hs (by decide)⟩, ⟨rfl, ht⟩, hd⟩

theorem basic_sound (hn : NestedSound g nested d) (ts : List Token) :
    (g.basic nested ts).Yields ts (IsRead g .basic d) := by
  intro r h
  unfold basic at h
  split at h
  · rename_i o o' rest
    simp only [bind_ok, pure_ok] at h
    obtain ⟨e, he, rfl⟩ := h
    obtain ⟨ks, hks, hs, ht, hd⟩ := paren_sound hn o' rest e he
    exact ⟨.not :: .openParen :: ks, by simp [hks], ⟨Nat.le_refl _, _, rfl, hs⟩, ⟨rfl, ht⟩, hd⟩
  · rename_i o rest _
    simp only [bind_ok, pure_ok] at h
    obtain ⟨e, he, rfl⟩ := h
    obtain ⟨ks, hks, hr⟩ := negated_sound hn rest e he
    exact ⟨.not :: ks, by simp [hks], hr⟩
  · rename_i o rest
    simp only [bind_ok, pure_ok] at h
    obtain ⟨e, he, rfl⟩ := h
    obtain ⟨ks, hks, ht⟩ := paren_sound hn o rest e he
    exact ⟨.openParen :: ks, by simp [hks], spells_mono ht.1 (by decide), ht.isRead.2⟩
  · exact comparison_sound hn ts r h

theorem chainTail_sound {op : LogicalOp} {read : Reader Expr}
    (hr : ∀ ts, (read ts).Yields ts (IsRead g op.rightLevel d)) (left : Expr)
    (done : List Kind) (hl : IsTest g op.level d left done) (ts : List Token) :
    (g.chainTail op read left ts).Yields ts (fun e ks => IsTest g op.level d e (done ++ ks)) := by
  intro r h
  unfold chainTail at h
  split at h
  · rename_i op' o rest
    split at h
    · rename_i hop
      subst hop
      simp only [bind_ok, typed_ok, pure_ok] at h
      obtain ⟨e, he, test, htest, all, hall, rfl⟩ := h
      obtain ⟨ks, hks, hread⟩ := hr rest e he
      obtain ⟨hs, ht, hd⟩ := hread.asTest htest
      have hjoined : IsTest g op'.level d (.logical op' left test) (done ++ .logical op' :: ks) :=
        ⟨⟨Nat.le_refl _, done, ks, rfl, hl.1, hs⟩, ⟨rfl, hl.2.1, ht⟩, Nat.max_le.mpr ⟨hl.2.2, hd⟩⟩
      have := e.below
      obtain ⟨ks', hks', hall'⟩ := chainTail_sound hr _ _ hjoined e.rest all hall
      exact ⟨.logical op' :: ks ++ ks', by simp [hks, hks'], by simpa using hall'⟩
    · cases h
      exact ⟨[], rfl, by simpa using hl⟩
  · cases h
    exact ⟨[], rfl, by simpa using hl⟩
termination_by ts.length
decreasing_by
  all_goals subst_vars; simp only [List.length_cons]; omega

theorem rank_level_le_rightLevel (op : LogicalOp) : op.level.rank ≤ op.rightLevel.rank := by
  cases op <;> decide

theorem chain_sound {op : LogicalOp} {read : Reader Expr}
    (hr : ∀ ts, (read ts).Yields ts (IsRead g op.rightLevel d)) (ts : List Token) :
    (g.chain op read ts).Yields ts (IsRead g op.level d) := by
  intro r h
  unfold chain at h
  simp only [bind_ok] at h
  obtain ⟨first, hfirst, h⟩ := h
  obtain ⟨ks, hks, hread⟩ := hr ts first hfirst
  have hlone : IsRead g op.level d first.value ks :=
    ⟨spells_mono hread.1 (rank_level_le_rightLevel op), hread.2⟩
  split at h
  · split at h
    · rename_i hop
      subst hop
      simp only [bind_ok, typed_ok, pure_ok] at h
      obtain ⟨left, hleft, all, hall, rfl⟩ := h
      obtain ⟨ks', hks', htest⟩ :=
        chainTail_sound hr left ks (hlone.asTest hleft) first.rest all hall
      exact ⟨ks ++ ks', by simp [hks, hks'], htest.isRead⟩
    · simp only [pure_ok] at h
      subst h
      exact ⟨ks, hks, hlone⟩
  · simp only [pure_ok] at h
    subst h
    exact ⟨ks, hks, hlone⟩

/-- An expression is a chain of chains, with one level less inside. -/
theorem expr_eq (g : Grammar) (d : Nat) :
    g.expr d = g.chain .or (g.chain .and (g.basic (g.nested d))) := by
  funext ts
  cases d <;> rw [expr] <;> rfl

theorem expr_sound (hn : NestedSound g (g.nested d) d) (ts : List Token) :
    (g.expr d ts).Yields ts (IsRead g .disjunction d) := by
  rw [expr_eq]
  exact chain_sound (chain_sound (basic_sound hn)) ts

theorem nested_sound (g : Grammar) (d : Nat) : NestedSound g (g.nested d) d := by
  induction d with
  | zero =>
    intro read h
    cases h
  | succ d ih =>
    intro read h
    cases h
    refine ⟨Nat.succ_pos d, fun ts r h => ?_⟩
    obtain ⟨ks, hks, hs, ht, hd⟩ := expr_sound ih ts r h
    exact ⟨ks, hks, hs, ht, Nat.lt_succ_of_le hd⟩

/-- Whatever is read is spelled by the tokens, well typed, and nested no deeper than allowed. -/
theorem query_sound {g : Grammar} {ts : List Token} {q : Query} (h : g.query ts = .ok q) :
    q.Spells (kinds ts) ∧ q.WellTyped g.registry ∧ q.depth ≤ g.maxDepth := by
  unfold query at h
  split at h
  · rename_i o rest
    simp only [bind_ok] at h
    obtain ⟨ss, hss, h⟩ := h
    obtain ⟨ks, hks, hs, ht, hd⟩ := segments_sound (nested_sound g g.maxDepth) rest ss hss
    split at h
    · rename_i hrest
      simp only [pure_ok] at h
      subst h
      exact ⟨⟨ks, by simp [hks, hrest], hs⟩, ht, hd⟩
    · exact absurd h unexpected_ne_ok
  · exact absurd h unexpected_ne_ok

end Grammar
end JsonQuery
