import JsonQuery.Proofs.Binary64.Text
import JsonQuery.Proofs.Grammar.Typing
import JsonQuery.Proofs.Token.Scan
import JsonQuery.Query.Canonical

namespace JsonQuery
open Token

theorem Token.NamesFunctions.mono {ks ks' : List Kind} (h : NamesFunctions ks)
    (hs : ∀ k ∈ ks', k ∈ ks) : NamesFunctions ks' := fun name hk => h name (hs _ hk)

/-- The kind of the token that a literal is written as. -/
def Json.kind : Json → Kind
  | .bool b => .bool b
  | .number (.int i) => .number (.ofInt i)
  | .number (.float x) => .number x.numeral
  | .string s => .string s
  | _ => .null

def indexKinds : Option Int → List Kind
  | some i => [.number (.ofInt i)]
  | none => []

def sliceKinds (start stop step : Option Int) : List Kind :=
  indexKinds start ++ .colon :: indexKinds stop ++
    (match step with
      | some i => .colon :: indexKinds (some i)
      | none => [])

theorem spellsOptionalIndex_kinds (i : Option Int) : SpellsOptionalIndex i (indexKinds i) := by
  cases i with
  | none => rfl
  | some i => exact ⟨_, rfl, Numeral.ofInt_spellsIndex i⟩

theorem spells_slice (start stop step : Option Int) :
    (Selector.slice start stop step).Spells (sliceKinds start stop step) := by
  refine ⟨_, _, _, spellsOptionalIndex_kinds start, spellsOptionalIndex_kinds stop,
    spellsOptionalIndex_kinds step, ?_⟩
  cases step with
  | none => exact .inl ⟨List.append_nil _, rfl⟩
  | some i => exact .inr rfl

namespace Canonical

theorem lexesBefore_comma : LexesBefore [',', ' '] [.comma] :=
  Symbol.comma.lexesBefore.append lexesBefore_blank

theorem lexesBefore_anchor (anchor : Anchor) : LexesBefore [anchor.char] [anchor.kind] := by
  cases anchor with
  | root => exact Symbol.root.lexesBefore
  | current => exact Symbol.current.lexesBefore

theorem lexesApart_int (i : Int) : LexesApart (intChars i) [.number (.ofInt i)] := by
  rw [← Numeral.ofInt_chars]
  exact lexesApart_number (Numeral.ofInt_wellFormed i)

theorem lexesApart_optionalInt (i : Option Int) : LexesApart (optionalInt i) (indexKinds i) := by
  cases i with
  | none => exact LexesBefore.nil.apart
  | some i => exact lexesApart_int i

/-- The numbers of a slice, each ended by a colon or by what stands behind the slice. -/
theorem lexesApart_slice (start stop step : Option Int) :
    LexesApart (Selector.slice start stop step).chars (sliceKinds start stop step) := by
  have hcolon := ((lexesApart_optionalInt start).append (Separates.cons (by simp) []) (by simp)
    Symbol.colon.lexesBefore).append_apart (lexesApart_optionalInt stop)
  cases step with
  | none => simpa [Selector.chars, sliceKinds] using hcolon
  | some i =>
    have hstep := (hcolon.append (Separates.cons (by simp) []) (by simp)
      Symbol.colon.lexesBefore).append_apart (lexesApart_optionalInt (some i))
    simpa [Selector.chars, sliceKinds, optionalInt] using hstep

theorem lexesApart_literal {v : Json} (h : v.IsPrimitive) : LexesApart (literal v) [v.kind] := by
  match v with
  | .null => exact lexesApart_null
  | .bool b => exact lexesApart_bool b
  | .string s => exact (lexesBefore_string s).apart
  | .number (.int i) => exact lexesApart_int i
  | .number (.float x) =>
    have hchars : literal (.number (.float x)) = x.numeral.chars := x.text_eq
    rw [hchars]
    exact lexesApart_number x.numeral_wellFormed
  | .array _ | .object _ => exact h.elim

theorem value?_int {n : Numeral} {low high i : Int} (h : n.value? low high = some (.int i)) :
    low ≤ i ∧ i ≤ high := by
  unfold Numeral.value? at h
  split at h
  · rename_i hrange
    simp only [Bool.and_eq_true, decide_eq_true_eq] at hrange
    cases h
    exact ⟨hrange.1.2, hrange.2⟩
  · simp at h

/-- A literal is written so that it is read back, in whatever form it was spelled. -/
theorem lexes_literal {v : Json} {k : Kind} (h : v.SpelledBy k) :
    v.SpelledBy v.kind ∧ LexesApart (literal v) [v.kind] := by
  cases v with
  | null | bool _ | string _ => exact ⟨rfl, lexesApart_literal trivial⟩
  | number x =>
    refine ⟨?_, lexesApart_literal trivial⟩
    obtain ⟨n, -, hn⟩ := h
    cases x with
    | int i =>
      obtain ⟨hl, hh⟩ := value?_int hn
      exact ⟨_, rfl, Numeral.ofInt_value? hl hh⟩
    | float x => exact ⟨x.numeral, rfl, x.numeral_value? _ _⟩
  | array _ | object _ => exact h.elim

end Canonical

open Canonical

/-- What stands beside `&&` is no disjunction without parentheses. -/
theorem Expr.isDisjunction_of_spells {e : Expr} {l : Level} {ks : List Kind}
    (h : e.Spells l ks) (hl : 0 < l.rank) : e.isDisjunction = false := by
  match e with
  | .logical .or a b =>
    have hrank : l.rank ≤ 0 := h.1
    omega
  | .logical .and _ _ | .not _ | .paren _ | .compare _ _ _ | .exists _ _ | .query _ _ | .call _ _
  | .literal _ => rfl

/-- What stands behind `!` is an operand, or in parentheses. -/
theorem Expr.isCompound_of_spells {e : Expr} {ks : List Kind}
    (h : e.Spells .negated ks) : e.isCompound = false := by
  match e with
  | .logical .or a b => exact absurd h.1 (by decide)
  | .logical .and a b => exact absurd h.1 (by decide)
  | .compare _ a b => exact absurd h.1 (by decide)
  | .not _ | .paren _ | .exists _ _ | .query _ _ | .call _ _ | .literal _ => rfl

theorem Json.chars_head {v : Json} {k : Kind} (h : v.SpelledBy k) :
    ∃ c tail, literal v = c :: tail ∧ c ≠ '=' := by
  have hnumber {n : Numeral} (hn : n.WellFormed) : ∃ c tail, n.chars = c :: tail ∧ c ≠ '=' := by
    obtain ⟨c, tail, hchars, hc⟩ := startsNumber_of_wellFormed hn
    exact ⟨c, tail, hchars, ne_of_test hc rfl⟩
  cases v with
  | null => exact ⟨'n', _, rfl, by decide⟩
  | bool b => cases b <;> exact ⟨_, _, rfl, by decide⟩
  | string s => exact ⟨'\'', _, rfl, by decide⟩
  | number x =>
    cases x with
    | int i =>
      have hchars : literal (.number (.int i)) = (Numeral.ofInt i).chars :=
        (Numeral.ofInt_chars i).symm
      exact hchars ▸ hnumber (Numeral.ofInt_wellFormed i)
    | float x =>
      have hchars : literal (.number (.float x)) = x.numeral.chars := x.text_eq
      exact hchars ▸ hnumber x.numeral_wellFormed
  | array items => cases h
  | object members => cases h

/-- The text behind `!` does not make it the operator `!=`. -/
theorem Expr.chars_head {e : Expr} {ks : List Kind} (h : e.Spells .negated ks)
    (hn : NamesFunctions ks) : ∃ c tail, e.chars = c :: tail ∧ c ≠ '=' := by
  have hanchor (anchor : Anchor) : anchor.char ≠ '=' := by cases anchor <;> decide
  match e with
  | .logical .or a b => exact absurd h.1 (by decide)
  | .logical .and a b => exact absurd h.1 (by decide)
  | .compare _ a b => exact absurd h.1 (by decide)
  | .not a => exact absurd h.1 (by decide)
  | .paren a => exact ⟨'(', _, by rw [Expr.chars]; rfl, by decide⟩
  | .exists anchor ss => exact ⟨anchor.char, _, by rw [Expr.chars], hanchor anchor⟩
  | .query anchor ss => exact ⟨anchor.char, _, by rw [Expr.chars], hanchor anchor⟩
  | .literal v =>
    obtain ⟨k, -, hk⟩ := h
    obtain ⟨c, tail, hchars, hc⟩ := Json.chars_head hk
    exact ⟨c, tail, by rw [Expr.chars, hchars], hc⟩
  | .call f args =>
    obtain ⟨inner, rfl, -⟩ := h
    have hname := hn f.name (by simp)
    cases hf : f.name.toList with
    | nil => rw [hf] at hname; cases hname
    | cons c tail =>
      rw [hf] at hname
      refine ⟨c, tail ++ parenthesized (Expr.listChars args), by rw [Expr.chars, hf]; rfl, ?_⟩
      rintro rfl
      cases hname

theorem Selector.separates_tailChars (ss : List Selector) : Separates (Selector.tailChars ss) := by
  cases ss with
  | nil => rw [Selector.tailChars]; exact Separates.nil
  | cons s ss => rw [Selector.tailChars]; exact Separates.cons (by simp) _

theorem Expr.separates_tailChars (es : List Expr) : Separates (Expr.tailChars es) := by
  cases es with
  | nil => rw [Expr.tailChars]; exact Separates.nil
  | cons e es => rw [Expr.tailChars]; exact Separates.cons (by simp) _

/-- What stands between brackets or parentheses, with the closing one. -/
theorem Token.LexesApart.closed {inner : List Char} {ks : List Kind} {c : Char} {k : Kind}
    (h : LexesApart inner ks) (hc : c ∈ [' ', ']', ',', ')', ':']) (hk : LexesBefore [c] [k]) :
    LexesBefore (inner ++ [c]) (ks ++ [k]) :=
  h.append (Separates.cons hc []) (by simp) hk

/-- A member that was spelled after dots is written between brackets. -/
theorem lexes_short {s : Selector} {k : Kind} (h : s.SpelledShort k) :
    ∃ ks, Selector.SpellsAll [s] ks ∧ LexesApart (Selector.listChars [s]) ks := by
  cases s with
  | name name =>
    refine ⟨[.string name], ⟨[.string name], [], rfl, rfl, rfl⟩, ?_⟩
    simpa [Selector.listChars, Selector.tailChars, Selector.chars]
      using (lexesBefore_string name).apart
  | wildcard =>
    refine ⟨[.wildcard], ⟨[.wildcard], [], rfl, rfl, rfl⟩, ?_⟩
    simpa [Selector.listChars, Selector.tailChars, Selector.chars]
      using Symbol.wildcard.lexesBefore.apart
  | index _ | slice _ _ _ | filter _ => cases h

theorem lexes_child {ss : List Selector} {ks : List Kind} (hs : Selector.SpellsAll ss ks)
    (h : LexesApart (Selector.listChars ss) ks) :
    ∃ ks', (Segment.child ss).Spells ks' ∧ LexesBefore (Segment.child ss).chars ks' := by
  refine ⟨.openBracket :: ks ++ [.closeBracket], .inr ⟨ks, rfl, hs⟩, ?_⟩
  rw [Segment.chars]
  exact Symbol.openBracket.lexesBefore.append (h.closed (by simp) Symbol.closeBracket.lexesBefore)

theorem lexes_descendant {ss : List Selector} {ks : List Kind} (hs : Selector.SpellsAll ss ks)
    (h : LexesApart (Selector.listChars ss) ks) :
    ∃ ks', (Segment.descendant ss).Spells ks' ∧ LexesBefore (Segment.descendant ss).chars ks' := by
  refine ⟨.doubleDot :: .openBracket :: ks ++ [.closeBracket], .inr ⟨ks, rfl, hs⟩, ?_⟩
  rw [Segment.chars]
  exact lexesBefore_descendants.append (h.closed (by simp) Symbol.closeBracket.lexesBefore)

theorem lexes_logical {op : LogicalOp} {a b : Expr} {left right left' right' : List Kind}
    (ha : a.Spells op.level left) (hb : b.Spells op.rightLevel right)
    (hlexa : LexesApart a.chars left') (hlexb : LexesApart b.chars right') :
    LexesApart (Expr.logical op a b).chars (left' ++ .logical op :: right') := by
  have hall := (hlexa.append (Separates.cons (by simp) _) (by simp)
    (lexesBefore_logical op)).append_apart hlexb
  cases op with
  | and =>
    have hsymbol : LogicalOp.and.symbol.toList = ['&', '&'] := rfl
    have hda := Expr.isDisjunction_of_spells ha (by decide)
    have hdb := Expr.isDisjunction_of_spells hb (by decide)
    simpa [Expr.chars, hda, hdb, hsymbol] using hall
  | or =>
    have hsymbol : LogicalOp.or.symbol.toList = ['|', '|'] := rfl
    simpa [Expr.chars, hsymbol] using hall

theorem lexes_not {a : Expr} {inner inner' : List Kind} (ha : a.Spells .negated inner)
    (hn : NamesFunctions inner) (hlex : LexesApart a.chars inner') :
    LexesApart (Expr.not a).chars (.not :: inner') := by
  rw [Expr.chars, Expr.isCompound_of_spells ha]
  exact lexesApart_not hlex (Expr.chars_head ha hn)

mutual

theorem lexes_selector : ∀ (s : Selector) {ks : List Kind}, s.Spells ks → NamesFunctions ks →
    ∃ ks', s.Spells ks' ∧ LexesApart s.chars ks'
  | .name name, _, _, _ => ⟨[.string name], rfl, by
      rw [Selector.chars]
      exact (lexesBefore_string name).apart⟩
  | .wildcard, _, _, _ => ⟨[.wildcard], rfl, by
      rw [Selector.chars]
      exact Symbol.wildcard.lexesBefore.apart⟩
  | .index i, _, _, _ => ⟨_, ⟨_, rfl, Numeral.ofInt_spellsIndex i⟩, by
      rw [Selector.chars]
      exact lexesApart_int i⟩
  | .slice start stop step, _, _, _ =>
    ⟨_, spells_slice start stop step, lexesApart_slice start stop step⟩
  | .filter e, ks, h, hn => by
    obtain ⟨test, rfl, htest⟩ := h
    obtain ⟨test', hspells, hlex⟩ := lexes_expr e htest (hn.mono (by simp +contextual))
    refine ⟨.question :: test', ⟨test', rfl, hspells⟩, ?_⟩
    rw [Selector.chars]
    exact Symbol.question.lexesBefore.append_apart hlex

theorem lexes_selectorTail : ∀ (ss : List Selector) {ks : List Kind},
    Selector.SpellsTail ss ks → NamesFunctions ks →
    ∃ ks', Selector.SpellsTail ss ks' ∧ LexesApart (Selector.tailChars ss) ks'
  | [], _, _, _ => ⟨[], rfl, by rw [Selector.tailChars]; exact LexesBefore.nil.apart⟩
  | s :: ss, ks, h, hn => by
    obtain ⟨first, others, rfl, hs, hss⟩ := h
    obtain ⟨first', hs', hlex⟩ := lexes_selector s hs (hn.mono (by simp +contextual))
    obtain ⟨others', hss', hlexs⟩ := lexes_selectorTail ss hss (hn.mono (by simp +contextual))
    refine ⟨.comma :: first' ++ others', ⟨first', others', rfl, hs', hss'⟩, ?_⟩
    rw [Selector.tailChars]
    exact (lexesBefore_comma.append_apart hlex).append_apart (Selector.separates_tailChars ss) hlexs

theorem lexes_selectors : ∀ (ss : List Selector) {ks : List Kind},
    Selector.SpellsAll ss ks → NamesFunctions ks →
    ∃ ks', Selector.SpellsAll ss ks' ∧ LexesApart (Selector.listChars ss) ks'
  | [], _, h, _ => h.elim
  | s :: ss, ks, h, hn => by
    obtain ⟨first, others, rfl, hs, hss⟩ := h
    obtain ⟨first', hs', hlex⟩ := lexes_selector s hs (hn.mono (by simp +contextual))
    obtain ⟨others', hss', hlexs⟩ := lexes_selectorTail ss hss (hn.mono (by simp +contextual))
    refine ⟨first' ++ others', ⟨first', others', rfl, hs', hss'⟩, ?_⟩
    rw [Selector.listChars]
    exact hlex.append_apart (Selector.separates_tailChars ss) hlexs

theorem lexes_segment : ∀ (s : Segment) {ks : List Kind}, s.Spells ks → NamesFunctions ks →
    ∃ ks', s.Spells ks' ∧ LexesBefore s.chars ks'
  | .child ss, ks, h, hn => by
    rcases h with ⟨s, k, rfl, hs, rfl⟩ | ⟨inner, rfl, hss⟩
    · obtain ⟨inner', hss', hlex⟩ := lexes_short hs
      exact lexes_child hss' hlex
    · obtain ⟨inner', hss', hlex⟩ := lexes_selectors ss hss (hn.mono (by simp +contextual))
      exact lexes_child hss' hlex
  | .descendant ss, ks, h, hn => by
    rcases h with ⟨s, k, rfl, hs, rfl⟩ | ⟨inner, rfl, hss⟩
    · obtain ⟨inner', hss', hlex⟩ := lexes_short hs
      exact lexes_descendant hss' hlex
    · obtain ⟨inner', hss', hlex⟩ := lexes_selectors ss hss (hn.mono (by simp +contextual))
      exact lexes_descendant hss' hlex

theorem lexes_segments : ∀ (ss : List Segment) {ks : List Kind}, Segment.SpellsAll ss ks →
    NamesFunctions ks → ∃ ks', Segment.SpellsAll ss ks' ∧ LexesBefore (Segment.listChars ss) ks'
  | [], _, _, _ => ⟨[], rfl, by rw [Segment.listChars]; exact LexesBefore.nil⟩
  | s :: ss, ks, h, hn => by
    obtain ⟨first, others, rfl, hs, hss⟩ := h
    obtain ⟨first', hs', hlex⟩ := lexes_segment s hs (hn.mono (by simp +contextual))
    obtain ⟨others', hss', hlexs⟩ := lexes_segments ss hss (hn.mono (by simp +contextual))
    refine ⟨first' ++ others', ⟨first', others', rfl, hs', hss'⟩, ?_⟩
    rw [Segment.listChars]
    exact hlex.append hlexs

theorem lexes_expr : ∀ (e : Expr) {l : Level} {ks : List Kind}, e.Spells l ks →
    NamesFunctions ks → ∃ ks', e.Spells l ks' ∧ LexesApart e.chars ks'
  | .logical op a b, l, ks, h, hn => by
    obtain ⟨hl, left, right, rfl, ha, hb⟩ := h
    obtain ⟨left', ha', hlexa⟩ := lexes_expr a ha (hn.mono (by simp +contextual))
    obtain ⟨right', hb', hlexb⟩ := lexes_expr b hb (hn.mono (by simp +contextual))
    exact ⟨left' ++ .logical op :: right', ⟨hl, left', right', rfl, ha', hb'⟩,
      lexes_logical ha hb hlexa hlexb⟩
  | .not a, l, ks, h, hn => by
    obtain ⟨hl, inner, rfl, ha⟩ := h
    obtain ⟨inner', ha', hlex⟩ := lexes_expr a ha (hn.mono (by simp +contextual))
    exact ⟨.not :: inner', ⟨hl, inner', rfl, ha'⟩,
      lexes_not ha (hn.mono (by simp +contextual)) hlex⟩
  | .paren a, l, ks, h, hn => by
    obtain ⟨hl, inner, rfl, ha⟩ := h
    obtain ⟨inner', ha', hlex⟩ := lexes_expr a ha (hn.mono (by simp +contextual))
    refine ⟨.openParen :: inner' ++ [.closeParen], ⟨hl, inner', rfl, ha'⟩, ?_⟩
    rw [Expr.chars]
    exact (Symbol.openParen.lexesBefore.append
      (hlex.closed (by simp) Symbol.closeParen.lexesBefore)).apart
  | .compare op a b, l, ks, h, hn => by
    obtain ⟨hl, left, right, rfl, ha, hb⟩ := h
    obtain ⟨left', ha', hlexa⟩ := lexes_expr a ha (hn.mono (by simp +contextual))
    obtain ⟨right', hb', hlexb⟩ := lexes_expr b hb (hn.mono (by simp +contextual))
    refine ⟨left' ++ .comparison op :: right', ⟨hl, left', right', rfl, ha', hb'⟩, ?_⟩
    have hall := (hlexa.append (Separates.cons (by simp) _) (by simp)
      (lexesBefore_comparison op)).append_apart hlexb
    simpa [Expr.chars] using hall
  | .exists anchor ss, l, ks, h, hn => by
    obtain ⟨path, rfl, hss⟩ := h
    obtain ⟨path', hss', hlex⟩ := lexes_segments ss hss (hn.mono (by simp +contextual))
    refine ⟨anchor.kind :: path', ⟨path', rfl, hss'⟩, ?_⟩
    rw [Expr.chars]
    exact ((lexesBefore_anchor anchor).append hlex).apart
  | .query anchor ss, l, ks, h, hn => by
    obtain ⟨path, rfl, hss⟩ := h
    obtain ⟨path', hss', hlex⟩ := lexes_segments ss hss (hn.mono (by simp +contextual))
    refine ⟨anchor.kind :: path', ⟨path', rfl, hss'⟩, ?_⟩
    rw [Expr.chars]
    exact ((lexesBefore_anchor anchor).append hlex).apart
  | .call f args, l, ks, h, hn => by
    obtain ⟨inner, rfl, hargs⟩ := h
    obtain ⟨inner', hargs', hlex⟩ := lexes_arguments args hargs (hn.mono (by simp +contextual))
    refine ⟨.function f.name :: .openParen :: inner' ++ [.closeParen], ⟨inner', rfl, hargs'⟩, ?_⟩
    have hcall := (lexesBefore_function (hn f.name (by simp))).append
      (hlex.closed (by simp) Symbol.closeParen.lexesBefore)
    simpa [Expr.chars, parenthesized] using hcall.apart
  | .literal v, l, ks, h, hn => by
    obtain ⟨k, rfl, hk⟩ := h
    obtain ⟨hspelled, hlex⟩ := lexes_literal hk
    rw [Expr.chars]
    exact ⟨[v.kind], ⟨v.kind, rfl, hspelled⟩, hlex⟩

theorem lexes_argumentTail : ∀ (es : List Expr) {ks : List Kind},
    Expr.SpellsTail es ks → NamesFunctions ks →
    ∃ ks', Expr.SpellsTail es ks' ∧ LexesApart (Expr.tailChars es) ks'
  | [], _, _, _ => ⟨[], rfl, by rw [Expr.tailChars]; exact LexesBefore.nil.apart⟩
  | e :: es, ks, h, hn => by
    obtain ⟨first, others, rfl, he, hes⟩ := h
    obtain ⟨first', he', hlex⟩ := lexes_expr e he (hn.mono (by simp +contextual))
    obtain ⟨others', hes', hlexs⟩ := lexes_argumentTail es hes (hn.mono (by simp +contextual))
    refine ⟨.comma :: first' ++ others', ⟨first', others', rfl, he', hes'⟩, ?_⟩
    rw [Expr.tailChars]
    exact (lexesBefore_comma.append_apart hlex).append_apart (Expr.separates_tailChars es) hlexs

theorem lexes_arguments : ∀ (es : List Expr) {ks : List Kind},
    Expr.SpellsAll es ks → NamesFunctions ks →
    ∃ ks', Expr.SpellsAll es ks' ∧ LexesApart (Expr.listChars es) ks'
  | [], _, _, _ => ⟨[], rfl, by rw [Expr.listChars]; exact LexesBefore.nil.apart⟩
  | e :: es, ks, h, hn => by
    obtain ⟨first, others, rfl, he, hes⟩ := h
    obtain ⟨first', he', hlex⟩ := lexes_expr e he (hn.mono (by simp +contextual))
    obtain ⟨others', hes', hlexs⟩ := lexes_argumentTail es hes (hn.mono (by simp +contextual))
    refine ⟨first' ++ others', ⟨first', others', rfl, he', hes'⟩, ?_⟩
    rw [Expr.listChars]
    exact hlex.append_apart (Expr.separates_tailChars es) hlexs

end

/-- The canonical text of a query has tokens that spell the query, if any text has. -/
theorem lexes_query {q : Query} {ks : List Kind} (h : q.Spells ks) (hn : NamesFunctions ks) :
    ∃ ks', q.Spells ks' ∧ Lexes .any q.chars ks' := by
  obtain ⟨path, rfl, hpath⟩ := h
  obtain ⟨path', hspells, hlex⟩ := lexes_segments q.segments hpath (hn.mono (by simp +contextual))
  refine ⟨.root :: path', ⟨path', rfl, hspells⟩, ?_⟩
  exact ((lexesBefore_anchor .root).append hlex).lexes

end JsonQuery
