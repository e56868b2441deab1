import JsonQuery.Proofs.Grammar.Soundness
import JsonQuery.Proofs.Query.Rebinding

namespace JsonQuery
open Token (Kind)

namespace Grammar

/-- What may differ between two runs of the grammar: the places of the tokens, and the functions
behind the names that are called, as long as they declare the same. -/
structure Variation where
  places : Nat → Nat → Prop
  called : String → Prop
  swap : Extension → Extension
  preserves : Extension.Preserves swap

namespace Variation

/-- The functions stay. -/
def ofPlaces (places : Nat → Nat → Prop) : Variation :=
  ⟨places, fun _ => True, id, Extension.preserves_id⟩

/-- The tokens of both runs. The end of a query is none of its tokens. -/
def Allows (v : Variation) : Kind → Prop
  | .endOfQuery => False
  | .function name => v.called name
  | _ => True

theorem Allows.ne_end {v : Variation} {k : Kind} (h : v.Allows k) : k ≠ .endOfQuery := by
  intro heq
  rw [heq] at h
  exact h

theorem Allows.of_ne_end {v : Variation} {k : Kind} (h : k ≠ .endOfQuery)
    (hcalled : ∀ name, k = .function name → v.called name) : v.Allows k := by
  cases k with
  | endOfQuery => exact absurd rfl h
  | function name => exact hcalled name rfl
  | _ => trivial

end Variation

/-- One token of two texts, with its places in both. -/
structure Twin (v : Variation) where
  kind : Kind
  left : Nat
  right : Nat
  placed : v.places left right
  allowed : v.Allows kind

variable {places : Nat → Nat → Prop} {v : Variation}

def lefts (xs : List (Twin v)) : List Token := xs.map (fun x => ⟨x.kind, x.left⟩)

def rights (xs : List (Twin v)) : List Token := xs.map (fun x => ⟨x.kind, x.right⟩)

@[simp] theorem length_lefts (xs : List (Twin v)) : (lefts xs).length = xs.length :=
  List.length_map ..

/-- Two grammars for the two texts: the second may allow fewer levels, and look up other functions
for the names that are called. -/
structure Varies (v : Variation) (g g' : Grammar) : Prop where
  lookup : ∀ name, v.called name →
    g'.registry.lookup name = (g.registry.lookup name).map v.swap
  stop : v.places g.stop g'.stop
  depth : g'.maxDepth ≤ g.maxDepth

/-- How a result of the second grammar follows one of the first: it is related to it, or the same
error at a related place, or the error of a nesting that only the first allows. An error of the end
of the query is at the end. -/
inductive Follows (places : Nat → Nat → Prop) (g g' : Grammar) {α β : Type} (rel : α → β → Prop) :
    Except QueryError α → Except QueryError β → Prop where
  | ok {a : α} {b : β} (h : rel a b) : Follows places g g' rel (.ok a) (.ok b)
  | error {cause : QueryError.Cause} {o o' : Nat} (h : places o o')
      (hend : ∀ expected, cause = .unexpected .endOfQuery expected → o = g.stop) :
      Follows places g g' rel (.error ⟨cause, o⟩) (.error ⟨cause, o'⟩)
  | tooDeep {x : Except QueryError α} {o' : Nat} (h : g'.maxDepth < g.maxDepth) :
      Follows places g g' rel x (.error ⟨.nestingTooDeep g'.maxDepth, o'⟩)

/-- Related parts, with the same tokens behind them. -/
def Alike (v : Variation) {α β : Type} {n m : Nat} (rel : α → β → Prop)
    (r : Read α Token n) (r' : Read β Token m) : Prop :=
  rel r.value r'.value ∧ ∃ ys : List (Twin v), r.rest = lefts ys ∧ r'.rest = rights ys

/-- How a part that the second grammar reads follows the same part of the first. -/
abbrev Part.Follows (v : Variation) (g g' : Grammar) {α β : Type} {n m : Nat}
    (rel : α → β → Prop) (p : Part α n) (p' : Part β m) : Prop :=
  Grammar.Follows v.places g g' (Alike v rel) p p'

variable {g g' : Grammar}

theorem Follows.bind {α β γ δ : Type} {rel : α → β → Prop} {rel' : γ → δ → Prop}
    {x : Except QueryError α} {x' : Except QueryError β} {f : α → Except QueryError γ}
    {f' : β → Except QueryError δ} (h : Follows places g g' rel x x')
    (hf : ∀ a b, rel a b → Follows places g g' rel' (f a) (f' b)) :
    Follows places g g' rel' (x >>= f) (x' >>= f') := by
  cases h with
  | ok h => exact hf _ _ h
  | error h hend => exact .error h hend
  | tooDeep h => exact .tooDeep h

/-- After a result and its image. -/
theorem Follows.bind_map {α β γ δ : Type} {image : α → β} {rel : γ → δ → Prop}
    {x : Except QueryError α} {x' : Except QueryError β} {f : α → Except QueryError γ}
    {f' : β → Except QueryError δ} (h : Follows places g g' (image · = ·) x x')
    (hf : ∀ a, Follows places g g' rel (f a) (f' (image a))) :
    Follows places g g' rel (x >>= f) (x' >>= f') := by
  refine h.bind (fun a b heq => ?_)
  subst heq
  exact hf a

theorem Follows.bind_eq {α γ δ : Type} {rel : γ → δ → Prop} {x x' : Except QueryError α}
    {f : α → Except QueryError γ} {f' : α → Except QueryError δ}
    (h : Follows places g g' Eq x x') (hf : ∀ a, Follows places g g' rel (f a) (f' a)) :
    Follows places g g' rel (x >>= f) (x' >>= f') := by
  have hid : Follows places g g' (id · = ·) x x' := h
  exact hid.bind_map hf

theorem Follows.ite {α β : Type} {rel : α → β → Prop} {c : Prop} [Decidable c]
    {x y : Except QueryError α} {x' y' : Except QueryError β}
    (hx : Follows places g g' rel x x') (hy : Follows places g g' rel y y') :
    Follows places g g' rel (if c then x else y) (if c then x' else y') := by
  split
  · exact hx
  · exact hy

/-- After a part and its image, on what is behind them. -/
theorem Part.Follows.bind_map {α β γ δ : Type} {image : α → β} {n m : Nat} {rel : γ → δ → Prop}
    {p : Part α n} {p' : Part β m} {f : Read α Token n → Except QueryError γ}
    {f' : Read β Token m → Except QueryError δ} (h : Part.Follows v g g' (image · = ·) p p')
    (hf : ∀ a (ys : List (Twin v)) hb hb',
      Grammar.Follows v.places g g' rel (f ⟨a, lefts ys, hb⟩) (f' ⟨image a, rights ys, hb'⟩)) :
    Grammar.Follows v.places g g' rel (p >>= f) (p' >>= f') := by
  refine h.bind ?_
  rintro ⟨a, rest, hb⟩ ⟨b, rest', hb'⟩ ⟨rfl, ys, rfl, rfl⟩
  exact hf a ys hb hb'

theorem Part.Follows.bind_eq {α γ δ : Type} {n m : Nat} {rel : γ → δ → Prop} {p : Part α n}
    {p' : Part α m} {f : Read α Token n → Except QueryError γ}
    {f' : Read α Token m → Except QueryError δ} (h : Part.Follows v g g' Eq p p')
    (hf : ∀ a (ys : List (Twin v)) hb hb',
      Grammar.Follows v.places g g' rel (f ⟨a, lefts ys, hb⟩) (f' ⟨a, rights ys, hb'⟩)) :
    Grammar.Follows v.places g g' rel (p >>= f) (p' >>= f') := by
  have hid : Part.Follows v g g' (id · = ·) p p' := h
  exact hid.bind_map hf

theorem offset_follows (hg : Varies v g g') (xs : List (Twin v)) :
    v.places (g.offset (lefts xs)) (g'.offset (rights xs)) := by
  cases xs with
  | nil => exact hg.stop
  | cons x xs => exact x.placed

theorem unexpected_follows (hg : Varies v g g') {α β : Type} {rel : α → β → Prop}
    (expected : Expectation) (xs : List (Twin v)) :
    Follows v.places g g' rel (g.unexpected expected (lefts xs))
      (g'.unexpected expected (rights xs)) := by
  cases xs with
  | nil => exact .error hg.stop (fun _ _ => rfl)
  | cons x xs =>
    refine .error x.placed ?_
    intro expected heq
    exact absurd (QueryError.Cause.unexpected.inj heq).1 x.allowed.ne_end

theorem typed_follows {o o' : Nat} (h : places o o') {α β : Type} (image : α → β)
    (x : Except TypeFault α) :
    Follows places g g' (image · = ·) (typed o x) (typed o' (x.map image)) := by
  cases x with
  | error fault => exact .error h (fun _ heq => by cases heq)
  | ok a => exact .ok rfl

theorem test_follows {o o' : Nat} (h : v.places o o') (e : Expr) :
    Follows v.places g g' (Expr.rebind v.swap · = ·) (typed o e.asTest)
      (typed o' (e.rebind v.swap).asTest) := by
  rw [Expr.asTest_rebind v.preserves]
  exact typed_follows h ..

theorem argument_follows {o o' : Nat} (h : v.places o o') (function : String) (position : Nat)
    (param : ExprType) (e : Expr) :
    Follows v.places g g' (Expr.rebind v.swap · = ·)
      (typed o (e.asArgument function position param))
      (typed o' ((e.rebind v.swap).asArgument function position param)) := by
  rw [Expr.asArgument_rebind v.preserves]
  exact typed_follows h ..

theorem index_follows {o o' : Nat} (h : places o o') (n : Numeral) :
    Follows places g g' Eq (index o n) (index o' n) := by
  unfold index
  repeat' split
  all_goals first
    | exact .ok rfl
    | exact .error h (fun _ heq => by cases heq)

theorem literalNumber_follows {o o' : Nat} (h : places o o') (n : Numeral) :
    Follows places g g' Eq (literalNumber o n) (literalNumber o' n) := by
  unfold literalNumber
  split
  · exact .ok rfl
  · exact .error h (fun _ heq => by cases heq)

theorem optionalIndex_follows (xs : List (Twin v)) :
    Part.Follows v g g' Eq (optionalIndex (lefts xs)) (optionalIndex (rights xs)) := by
  rcases xs with _ | ⟨⟨k, o, o', h, hk⟩, xs⟩
  · exact .ok ⟨rfl, [], rfl, rfl⟩
  · cases k with
    | number n => exact (index_follows h n).bind_eq (fun i => .ok ⟨rfl, xs, rfl, rfl⟩)
    | _ => exact .ok ⟨rfl, ⟨_, o, o', h, hk⟩ :: xs, rfl, rfl⟩

theorem sliceTail_follows (start : Option Int) (xs : List (Twin v)) :
    Part.Follows v g g' (Selector.rebind v.swap · = ·) (sliceTail start (lefts xs))
      (sliceTail start (rights xs)) := by
  refine (optionalIndex_follows xs).bind_eq (fun stop ys _ _ => ?_)
  rcases ys with _ | ⟨⟨k, o, o', h, hk⟩, ys⟩
  · exact .ok ⟨rfl, [], rfl, rfl⟩
  · cases k with
    | colon =>
      exact (optionalIndex_follows ys).bind_eq (fun step zs _ _ => .ok ⟨rfl, zs, rfl, rfl⟩)
    | _ => exact .ok ⟨rfl, ⟨_, o, o', h, hk⟩ :: ys, rfl, rfl⟩

theorem shorthand_follows (hg : Varies v g g') (xs : List (Twin v)) :
    Part.Follows v g g' (Selector.rebind v.swap · = ·) (g.shorthand (lefts xs))
      (g'.shorthand (rights xs)) := by
  rcases xs with _ | ⟨⟨k, o, o', h, hk⟩, xs⟩
  · exact unexpected_follows hg .memberName []
  · cases k with
    | name s => exact .ok ⟨rfl, xs, rfl, rfl⟩
    | wildcard => exact .ok ⟨rfl, xs, rfl, rfl⟩
    | _ => exact unexpected_follows hg .memberName (⟨_, o, o', h, hk⟩ :: xs)

/-- Readers that follow each other on the tokens of two texts. -/
def ReaderFollows (v : Variation) (g g' : Grammar) (read read' : Reader Expr) : Prop :=
  ∀ xs : List (Twin v),
    Part.Follows v g g' (Expr.rebind v.swap · = ·) (read (lefts xs)) (read' (rights xs))

/-- How the second grammar reads what is nested, where the first does. -/
inductive NestedFollows (v : Variation) (g g' : Grammar) :
    Option (Reader Expr) → Option (Reader Expr) → Prop where
  | none : NestedFollows v g g' none none
  | some {read read' : Reader Expr} (h : ReaderFollows v g g' read read') :
      NestedFollows v g g' (some read) (some read')
  | lower {read : Reader Expr} (h : g'.maxDepth < g.maxDepth) :
      NestedFollows v g g' (some read) none

/-- Arguments and their images, which start at related places. -/
def Given (v : Variation) : List (Expr × Nat) → List (Expr × Nat) → Prop :=
  List.Forall₂ (fun a b => a.1.rebind v.swap = b.1 ∧ v.places a.2 b.2)

theorem Given.length_eq {given given' : List (Expr × Nat)} (h : Given v given given') :
    given.length = given'.length := List.Forall₂.length_eq h

theorem arguments_follows (hg : Varies v g g') {read read' : Reader Expr}
    (hread : ReaderFollows v g g' read read') (xs : List (Twin v)) :
    Part.Follows v g g' (Given v) (g.arguments read (lefts xs))
      (g'.arguments read' (rights xs)) := by
  rw [arguments, arguments]
  refine (hread xs).bind_map (fun first ys hb _ => ?_)
  have hplace := offset_follows hg xs
  rcases ys with _ | ⟨⟨k, o, o', h, hk⟩, ys⟩
  · exact unexpected_follows hg .commaOrParen []
  · cases k with
    | comma =>
      refine (arguments_follows hg hread ys).bind ?_
      rintro ⟨others, rest, _⟩ ⟨others', rest', _⟩ ⟨hothers, zs, rfl, rfl⟩
      exact .ok ⟨.cons ⟨rfl, hplace⟩ hothers, zs, rfl, rfl⟩
    | closeParen => exact .ok ⟨.cons ⟨rfl, hplace⟩ .nil, ys, rfl, rfl⟩
    | _ => exact unexpected_follows hg .commaOrParen (⟨_, o, o', h, hk⟩ :: ys)
termination_by xs.length
decreasing_by simp only [length_lefts, List.length_cons] at hb; omega

theorem optionalArguments_follows (hg : Varies v g g') {read read' : Reader Expr}
    (hread : ReaderFollows v g g' read read') (xs : List (Twin v)) :
    Part.Follows v g g' (Given v) (g.optionalArguments read (lefts xs))
      (g'.optionalArguments read' (rights xs)) := by
  rcases xs with _ | ⟨⟨k, o, o', h, hk⟩, xs⟩
  · exact arguments_follows hg hread []
  · cases k with
    | closeParen => exact .ok ⟨.nil, xs, rfl, rfl⟩
    | _ => exact arguments_follows hg hread (⟨_, o, o', h, hk⟩ :: xs)

theorem typedArguments_follows {function : String} {params : List ExprType}
    {given given' : List (Expr × Nat)} (h : Given v given given') (position : Nat) :
    Follows v.places g g' (Expr.rebindAll v.swap · = ·)
      (typedArguments function position params given)
      (typedArguments function position params given') := by
  induction h generalizing params position with
  | nil => cases params <;> exact .ok rfl
  | @cons a b given given' hab h ih =>
    cases params with
    | nil => exact .ok rfl
    | cons param params =>
      obtain ⟨e, o⟩ := a
      obtain ⟨e', o'⟩ := b
      obtain ⟨rfl, ho⟩ := hab
      refine Follows.bind_map (argument_follows ho ..) (fun arg => ?_)
      exact (ih (position + 1)).bind_map (fun args => .ok rfl)

section Nested

variable {nested nested' : Option (Reader Expr)}

theorem enter_follows (hg : Varies v g g') (hn : NestedFollows v g g' nested nested')
    {o o' : Nat} (h : v.places o o') :
    Follows v.places g g' (ReaderFollows v g g') (g.enter nested o) (g'.enter nested' o') := by
  cases hn with
  | none =>
    rcases Nat.lt_or_eq_of_le hg.depth with hlower | heq
    · exact .tooDeep hlower
    · unfold enter
      rw [heq]
      exact .error h (fun _ heq => by cases heq)
  | some hread => exact .ok hread
  | lower hlower => exact .tooDeep hlower

theorem selector_follows (hg : Varies v g g') (hn : NestedFollows v g g' nested nested')
    (xs : List (Twin v)) :
    Part.Follows v g g' (Selector.rebind v.swap · = ·) (g.selector nested (lefts xs))
      (g'.selector nested' (rights xs)) := by
  rcases xs with _ | ⟨⟨k, o, o', h, hk⟩, xs⟩
  · exact unexpected_follows hg .selector []
  · cases k with
    | string s => exact .ok ⟨rfl, xs, rfl, rfl⟩
    | wildcard => exact .ok ⟨rfl, xs, rfl, rfl⟩
    | number n =>
      have hindex : Follows v.places g g' Eq (index o n) (index o' n) := index_follows h n
      rcases xs with _ | ⟨⟨k, p, p', h', hk'⟩, xs⟩
      · exact hindex.bind_eq (fun i => .ok ⟨rfl, [], rfl, rfl⟩)
      · cases k with
        | colon =>
          exact hindex.bind_eq (fun start => (sliceTail_follows (some start) xs).bind_map
            (fun slice ys _ _ => .ok ⟨rfl, ys, rfl, rfl⟩))
        | _ =>
          exact hindex.bind_eq (fun i => .ok ⟨rfl, ⟨_, p, p', h', hk'⟩ :: xs, rfl, rfl⟩)
    | colon =>
      exact (sliceTail_follows none xs).bind_map (fun slice ys _ _ => .ok ⟨rfl, ys, rfl, rfl⟩)
    | question =>
      refine (enter_follows hg hn h).bind (fun read read' hread => ?_)
      refine (hread xs).bind_map (fun e ys _ _ => ?_)
      exact (test_follows (offset_follows hg xs) e).bind_map
        (fun test => .ok ⟨rfl, ys, rfl, rfl⟩)
    | _ => exact unexpected_follows hg .selector (⟨_, o, o', h, hk⟩ :: xs)

theorem selectors_follows (hg : Varies v g g') (hn : NestedFollows v g g' nested nested')
    (xs : List (Twin v)) :
    Part.Follows v g g' (Selector.rebindAll v.swap · = ·) (g.selectors nested (lefts xs))
      (g'.selectors nested' (rights xs)) := by
  rw [selectors, selectors]
  refine (selector_follows hg hn xs).bind_map (fun first ys hb _ => ?_)
  rcases ys with _ | ⟨⟨k, o, o', h, hk⟩, ys⟩
  · exact unexpected_follows hg .commaOrBracket []
  · cases k with
    | comma =>
      exact (selectors_follows hg hn ys).bind_map (fun others zs _ _ => .ok ⟨rfl, zs, rfl, rfl⟩)
    | closeBracket => exact .ok ⟨rfl, ys, rfl, rfl⟩
    | _ => exact unexpected_follows hg .commaOrBracket (⟨_, o, o', h, hk⟩ :: ys)
termination_by xs.length
decreasing_by simp only [length_lefts, List.length_cons] at hb; omega

theorem segments_follows (hg : Varies v g g') (hn : NestedFollows v g g' nested nested')
    (xs : List (Twin v)) :
    Part.Follows v g g' (Segment.rebindAll v.swap · = ·) (g.segments nested (lefts xs))
      (g'.segments nested' (rights xs)) := by
  unfold segments
  rcases xs with _ | ⟨⟨k, o, o', h, hk⟩, xs⟩
  · exact .ok ⟨rfl, [], rfl, rfl⟩
  · cases k with
    | dot =>
      refine (shorthand_follows hg xs).bind_map (fun s ys hb _ => ?_)
      exact (segments_follows hg hn ys).bind_map (fun others zs _ _ => .ok ⟨rfl, zs, rfl, rfl⟩)
    | doubleDot =>
      rcases xs with _ | ⟨⟨k, p, p', h', hk'⟩, xs⟩
      · refine (shorthand_follows hg []).bind_map (fun s ys hb _ => ?_)
        exact (segments_follows hg hn ys).bind_map (fun others zs _ _ => .ok ⟨rfl, zs, rfl, rfl⟩)
      · cases k with
        | openBracket =>
          refine (selectors_follows hg hn xs).bind_map (fun ss ys hb _ => ?_)
          exact (segments_follows hg hn ys).bind_map (fun others zs _ _ => .ok ⟨rfl, zs, rfl, rfl⟩)
        | _ =>
          refine (shorthand_follows hg (⟨_, p, p', h', hk'⟩ :: xs)).bind_map (fun s ys hb _ => ?_)
          exact (segments_follows hg hn ys).bind_map (fun others zs _ _ => .ok ⟨rfl, zs, rfl, rfl⟩)
    | openBracket =>
      refine (selectors_follows hg hn xs).bind_map (fun ss ys hb _ => ?_)
      exact (segments_follows hg hn ys).bind_map (fun others zs _ _ => .ok ⟨rfl, zs, rfl, rfl⟩)
    | _ => exact .ok ⟨rfl, ⟨_, o, o', h, hk⟩ :: xs, rfl, rfl⟩
termination_by xs.length
decreasing_by all_goals simp only [length_lefts, List.length_cons] at hb ⊢; omega

theorem call_follows (hg : Varies v g g') (hn : NestedFollows v g g' nested nested')
    {name : String} (hcalled : v.called name) {o o' : Nat} (h : v.places o o')
    (xs : List (Twin v)) :
    Part.Follows v g g' (Expr.rebind v.swap · = ·) (g.call nested name o (lefts xs))
      (g'.call nested' name o' (rights xs)) := by
  unfold call
  rw [hg.lookup name hcalled]
  cases g.registry.lookup name with
  | none => exact .error h (fun _ heq => by cases heq)
  | some f =>
    rcases xs with _ | ⟨⟨k, p, p', hp, hk⟩, xs⟩
    · exact unexpected_follows hg .openParen []
    · cases k with
      | openParen =>
        refine (enter_follows hg hn h).bind (fun read read' hread => ?_)
        refine (optionalArguments_follows hg hread xs).bind ?_
        rintro ⟨given, rest, _⟩ ⟨given', rest', _⟩ ⟨hgiven, ys, rfl, rfl⟩
        dsimp only
        rw [← hgiven.length_eq, v.preserves.params_eq]
        split
        · exact .error h (fun _ heq => by cases heq)
        · exact (typedArguments_follows hgiven 1).bind_map (fun args => .ok ⟨rfl, ys, rfl, rfl⟩)
      | _ => exact unexpected_follows hg .openParen (⟨_, p, p', hp, hk⟩ :: xs)

theorem operand_follows (hg : Varies v g g') (hn : NestedFollows v g g' nested nested')
    (xs : List (Twin v)) :
    Part.Follows v g g' (Expr.rebind v.swap · = ·) (g.operand nested (lefts xs))
      (g'.operand nested' (rights xs)) := by
  rcases xs with _ | ⟨⟨k, o, o', h, hk⟩, xs⟩
  · exact unexpected_follows hg .operand []
  · cases k with
    | string s => exact .ok ⟨rfl, xs, rfl, rfl⟩
    | number n => exact (literalNumber_follows h n).bind_eq (fun v => .ok ⟨rfl, xs, rfl, rfl⟩)
    | bool b => exact .ok ⟨rfl, xs, rfl, rfl⟩
    | null => exact .ok ⟨rfl, xs, rfl, rfl⟩
    | root | current =>
      exact (segments_follows hg hn xs).bind_map (fun ss ys _ _ => .ok ⟨rfl, ys, rfl, rfl⟩)
    | function name =>
      exact (call_follows hg hn hk h xs).bind_map (fun e ys _ _ => .ok ⟨rfl, ys, rfl, rfl⟩)
    | _ => exact unexpected_follows hg .operand (⟨_, o, o', h, hk⟩ :: xs)

theorem paren_follows (hg : Varies v g g') (hn : NestedFollows v g g' nested nested')
    {o o' : Nat} (h : v.places o o') (xs : List (Twin v)) :
    Part.Follows v g g' (Expr.rebind v.swap · = ·) (g.paren nested o (lefts xs))
      (g'.paren nested' o' (rights xs)) := by
  refine (enter_follows hg hn h).bind (fun read read' hread => ?_)
  refine (hread xs).bind_map (fun e ys _ _ => ?_)
  refine (test_follows (offset_follows hg xs) e).bind_map (fun test => ?_)
  rcases ys with _ | ⟨⟨k, p, p', hp, hk⟩, ys⟩
  · exact unexpected_follows hg .closeParen []
  · cases k with
    | closeParen => exact .ok ⟨rfl, ys, rfl, rfl⟩
    | _ => exact unexpected_follows hg .closeParen (⟨_, p, p', hp, hk⟩ :: ys)

theorem comparison_follows (hg : Varies v g g')
    (hn : NestedFollows v g g' nested nested') (xs : List (Twin v)) :
    Part.Follows v g g' (Expr.rebind v.swap · = ·) (g.comparison nested (lefts xs))
      (g'.comparison nested' (rights xs)) := by
  refine (operand_follows hg hn xs).bind_map (fun left ys _ _ => ?_)
  have hplace := offset_follows hg xs
  rcases ys with _ | ⟨⟨k, o, o', h, hk⟩, ys⟩
  · exact .ok ⟨rfl, [], rfl, rfl⟩
  · cases k with
    | comparison op =>
      refine (operand_follows hg hn ys).bind_map (fun right zs _ _ => ?_)
      dsimp only
      rw [Expr.comparisonFault?_rebind v.preserves, Expr.comparisonFault?_rebind v.preserves]
      cases left.comparisonFault? with
      | some fault => exact .error hplace (fun _ heq => by cases heq)
      | none =>
        cases right.comparisonFault? with
        | some fault => exact .error (offset_follows hg ys) (fun _ heq => by cases heq)
        | none => exact .ok ⟨rfl, zs, rfl, rfl⟩
    | _ => exact .ok ⟨rfl, ⟨_, o, o', h, hk⟩ :: ys, rfl, rfl⟩

theorem negated_follows (hg : Varies v g g') (hn : NestedFollows v g g' nested nested')
    (xs : List (Twin v)) :
    Part.Follows v g g' (Expr.rebind v.swap · = ·) (g.negated nested (lefts xs))
      (g'.negated nested' (rights xs)) := by
  refine (operand_follows hg hn xs).bind_map (fun e ys _ _ => ?_)
  have htest : Follows v.places g g' (Expr.rebind v.swap · = ·)
      (typed (g.offset (lefts xs)) e.asTest)
      (typed (g'.offset (rights xs)) (e.rebind v.swap).asTest) :=
    test_follows (offset_follows hg xs) e
  cases e with
  | literal v => exact .error (offset_follows hg xs) (fun _ heq => by cases heq)
  | _ => exact htest.bind_map (fun test => .ok ⟨rfl, ys, rfl, rfl⟩)

theorem basic_follows (hg : Varies v g g') (hn : NestedFollows v g g' nested nested') :
    ReaderFollows v g g' (g.basic nested) (g'.basic nested') := by
  intro xs
  rcases xs with _ | ⟨⟨k, o, o', h, hk⟩, xs⟩
  · exact comparison_follows hg hn []
  · cases k with
    | not =>
      rcases xs with _ | ⟨⟨k, p, p', h', hk'⟩, xs⟩
      · exact (negated_follows hg hn []).bind_map (fun e ys _ _ => .ok ⟨rfl, ys, rfl, rfl⟩)
      · cases k with
        | openParen =>
          exact (paren_follows hg hn h' xs).bind_map (fun e ys _ _ => .ok ⟨rfl, ys, rfl, rfl⟩)
        | _ =>
          exact (negated_follows hg hn (⟨_, p, p', h', hk'⟩ :: xs)).bind_map
            (fun e ys _ _ => .ok ⟨rfl, ys, rfl, rfl⟩)
    | openParen =>
      exact (paren_follows hg hn h xs).bind_map (fun e ys _ _ => .ok ⟨rfl, ys, rfl, rfl⟩)
    | _ => exact comparison_follows hg hn (⟨_, o, o', h, hk⟩ :: xs)

end Nested

theorem chainTail_follows (hg : Varies v g g') (op : LogicalOp) {read read' : Reader Expr}
    (hread : ReaderFollows v g g' read read') (left : Expr) (xs : List (Twin v)) :
    Part.Follows v g g' (Expr.rebind v.swap · = ·) (g.chainTail op read left (lefts xs))
      (g'.chainTail op read' (left.rebind v.swap) (rights xs)) := by
  unfold chainTail
  rcases xs with _ | ⟨⟨k, o, o', h, hk⟩, xs⟩
  · exact .ok ⟨rfl, [], rfl, rfl⟩
  · cases k with
    | logical op' =>
      refine .ite ?_ (.ok ⟨rfl, ⟨_, o, o', h, hk⟩ :: xs, rfl, rfl⟩)
      refine (hread xs).bind_map (fun e ys hb _ => ?_)
      refine (test_follows (offset_follows hg xs) e).bind_map (fun right => ?_)
      exact (chainTail_follows hg op hread (.logical op left right) ys).bind_map
        (fun all zs _ _ => .ok ⟨rfl, zs, rfl, rfl⟩)
    | _ => exact .ok ⟨rfl, ⟨_, o, o', h, hk⟩ :: xs, rfl, rfl⟩
termination_by xs.length
decreasing_by all_goals simp only [length_lefts, List.length_cons] at hb ⊢; omega

theorem chain_follows (hg : Varies v g g') (op : LogicalOp) {read read' : Reader Expr}
    (hread : ReaderFollows v g g' read read') :
    ReaderFollows v g g' (g.chain op read) (g'.chain op read') := by
  intro xs
  refine (hread xs).bind_map (fun first ys _ _ => ?_)
  have hplace := offset_follows hg xs
  rcases ys with _ | ⟨⟨k, o, o', h, hk⟩, ys⟩
  · exact .ok ⟨rfl, [], rfl, rfl⟩
  · cases k with
    | logical op' =>
      refine .ite ?_ (.ok ⟨rfl, ⟨_, o, o', h, hk⟩ :: ys, rfl, rfl⟩)
      refine (test_follows hplace first).bind_map (fun left => ?_)
      exact (chainTail_follows hg op hread left (⟨_, o, o', h, hk⟩ :: ys)).bind_map
        (fun all zs _ _ => .ok ⟨rfl, zs, rfl, rfl⟩)
    | _ => exact .ok ⟨rfl, ⟨_, o, o', h, hk⟩ :: ys, rfl, rfl⟩

theorem expr_follows (hg : Varies v g g') {nested nested' : Nat}
    (hn : NestedFollows v g g' (g.nested nested) (g'.nested nested')) :
    ReaderFollows v g g' (g.expr nested) (g'.expr nested') := by
  rw [expr_eq, expr_eq]
  exact chain_follows hg .or (chain_follows hg .and (basic_follows hg hn))

/-- Where the second grammar has fewer levels left, it allows fewer from the start. -/
theorem nested_follows (hg : Varies v g g') {levels levels' : Nat} (hle : levels' ≤ levels)
    (hlt : levels' < levels → g'.maxDepth < g.maxDepth) :
    NestedFollows v g g' (g.nested levels) (g'.nested levels') := by
  -- Both lose a level at each step, so that the second runs out of them first, or both at once.
  induction levels' generalizing levels with
  | zero =>
    cases levels with
    | zero => exact .none
    | succ levels => exact .lower (hlt (Nat.succ_pos levels))
  | succ levels' ih =>
    cases levels with
    | zero => exact absurd hle (Nat.not_succ_le_zero levels')
    | succ levels =>
      exact .some (expr_follows hg (ih (Nat.le_of_succ_le_succ hle)
        (fun h => hlt (Nat.succ_lt_succ h))))

/-- Where the tokens of two texts stand matters to the offsets of errors alone, a lower limit of
nesting to queries that it stops, and the functions that stand behind names to nothing but the
calls that the query makes. -/
theorem query_varies (hg : Varies v g g') (xs : List (Twin v)) :
    Follows v.places g g' (Query.rebind v.swap · = ·) (g.query (lefts xs))
      (g'.query (rights xs)) := by
  rcases xs with _ | ⟨⟨k, o, o', h, hk⟩, xs⟩
  · exact unexpected_follows hg .rootIdentifier []
  · cases k with
    | root =>
      have hnested := nested_follows hg hg.depth id
      refine (segments_follows hg hnested xs).bind_map (fun ss ys _ _ => ?_)
      cases ys with
      | nil => exact .ok rfl
      | cons y ys => exact unexpected_follows hg .segmentOrEnd (y :: ys)
    | _ => exact unexpected_follows hg .rootIdentifier (⟨_, o, o', h, hk⟩ :: xs)

/-- Two grammars of one registry for the two texts: the second may allow fewer levels. -/
structure Twins (places : Nat → Nat → Prop) (g g' : Grammar) : Prop where
  registry : g'.registry = g.registry
  stop : places g.stop g'.stop
  depth : g'.maxDepth ≤ g.maxDepth

theorem Twins.varies (hg : Twins places g g') : Varies (.ofPlaces places) g g' := by
  refine ⟨fun name _ => ?_, hg.stop, hg.depth⟩
  rw [hg.registry]
  exact (Option.map_id_apply ..).symm

/-- With the same functions the query itself is the same. -/
theorem query_follows (hg : Twins places g g') (xs : List (Twin (.ofPlaces places))) :
    Follows places g g' Eq (g.query (lefts xs)) (g'.query (rights xs)) := by
  have hfollows := query_varies hg.varies xs
  have heq : (Query.rebind id · = ·) = (Eq : Query → Query → Prop) := by
    simp only [Query.rebind_id]
  exact heq ▸ hfollows

end Grammar
end JsonQuery
