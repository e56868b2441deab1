import JsonQuery.Environment
import JsonQuery.Proofs.Grammar.Completeness
import JsonQuery.Proofs.Query.Canonical
import JsonQuery.Proofs.Query.Rebinding

namespace JsonQuery
open Token (kinds tokenize Lexes NamesFunctions)

/-- A text with no blank at either end. -/
def Trimmed (cs : List Char) : Prop :=
  cs.head?.any isBlank = false ∧ cs.getLast?.any isBlank = false

namespace Environment

theorem compile_ok {env : Environment} {text : String} {q : Query} :
    env.compile text = .ok q ↔ Trimmed text.toList ∧ ∃ s, tokenize text = .ok s ∧
      (Grammar.mk env.registry env.maxDepth s.stop).query s.tokens = .ok q := by
  unfold compile Trimmed
  cases hhead : text.toList.head?.any isBlank with
  | true => simp [hhead]
  | false =>
    cases hlast : text.toList.getLast?.any isBlank with
    | true => simp [hhead, hlast]
    | false => cases tokenize text <;> simp [hhead, hlast, Except.mapError, bind, Except.bind]

/-- What compiles, and to what: the texts without blanks around them whose tokens spell a query
that is well typed and not nested too deep. The offsets of tokens matter to errors alone. -/
theorem compile_iff {env : Environment} {text : String} {q : Query} :
    env.compile text = .ok q ↔ Trimmed text.toList ∧ (∃ s, tokenize text = .ok s ∧
      q.Spells (kinds s.tokens)) ∧ q.WellTyped env.registry ∧ q.depth ≤ env.maxDepth := by
  rw [compile_ok]
  constructor
  · intro hleft
    rcases hleft with ⟨htrim, s, hs, hq⟩
    obtain ⟨hspells, htyped, hdepth⟩ := Grammar.query_sound hq
    exact ⟨htrim, ⟨s, hs, hspells⟩, htyped, hdepth⟩
  · intro hright
    rcases hright with ⟨htrim, ⟨s, hs, hspells⟩, htyped, hdepth⟩
    exact ⟨htrim, s, hs, Grammar.query_complete hspells htyped hdepth⟩

end Environment

namespace Query

theorem getLast?_chars (s : Segment) : s.chars.getLast? = some ']' := by
  cases s <;> rw [Segment.chars] <;> exact List.getLast?_concat

theorem getLast?_listChars {ss : List Segment} {c : Char}
    (h : (Segment.listChars ss).getLast? = some c) : c = ']' := by
  induction ss with
  | nil => simp [Segment.listChars] at h
  | cons s ss ih =>
    rw [Segment.listChars, List.getLast?_append] at h
    cases hss : (Segment.listChars ss).getLast? with
    | none =>
      rw [hss, getLast?_chars] at h
      cases h
      rfl
    | some d =>
      rw [hss] at h ih
      exact ih h

/-- A canonical text starts with `$` and ends with it or a bracket. -/
theorem trimmed_chars (q : Query) : Trimmed q.chars := by
  refine ⟨rfl, ?_⟩
  rw [chars, List.getLast?_cons]
  cases hss : (Segment.listChars q.segments).getLast? with
  | none => rfl
  | some c =>
    rw [getLast?_listChars hss]
    rfl

end Query

namespace Environment

/-- A query whose tokens can be written, well typed and not nested too deep, compiles from its
canonical text. -/
theorem compile_of_spells {env : Environment} {q : Query} {ks : List Token.Kind}
    (h : q.Spells ks) (hn : NamesFunctions ks) (ht : q.WellTyped env.registry)
    (hd : q.depth ≤ env.maxDepth) : env.compile q.text = .ok q := by
  obtain ⟨ks', hspells, hlex⟩ := lexes_query h hn
  obtain ⟨s, hs, hkinds⟩ := hlex 0
  have hchars : q.text.toList = q.chars := String.toList_ofList
  rw [compile_iff, hchars]
  refine ⟨q.trimmed_chars, ⟨s, ?_, hkinds ▸ hspells⟩, ht, hd⟩
  rw [tokenize, hchars]
  exact hs

/-- A filter whose literal is minus zero, spelled with a member after a dot and without blanks. -/
def sample : Query :=
  ⟨[.child [.name "a"], .child [.filter (.compare .greater
    (.query .current [.child [.name "b"]]) (.literal (.number (.float (.zero true)))))]]⟩

theorem sample_compiles : Environment.default.compile "$.a[?@.b>-0]" = .ok sample := by
  have htokens : tokenize "$.a[?@.b>-0]" = .ok ⟨[⟨.root, 0⟩, ⟨.dot, 1⟩, ⟨.name "a", 2⟩,
      ⟨.openBracket, 3⟩, ⟨.question, 4⟩, ⟨.current, 5⟩, ⟨.dot, 6⟩, ⟨.name "b", 7⟩,
      ⟨.comparison .greater, 8⟩, ⟨.number ⟨true, ['0'], none, none⟩, 9⟩, ⟨.closeBracket, 11⟩],
      12⟩ := by cbv
  refine compile_iff.mpr ⟨by unfold Trimmed; cbv, ⟨_, htokens, ?_⟩, ?_, by decide⟩
  · have hpath : Segment.SpellsAll [.child [.name "b"]] [.dot, .name "b"] :=
      ⟨_, [], rfl, .inl ⟨_, _, rfl, rfl, rfl⟩, rfl⟩
    have hzero : (Json.number (.float (.zero true))).SpelledBy
        (.number ⟨true, ['0'], none, none⟩) := ⟨_, rfl, rfl⟩
    have htest : (Expr.compare .greater (.query .current [.child [.name "b"]])
        (.literal (.number (.float (.zero true))))).Spells .disjunction _ :=
      ⟨by decide, _, _, rfl, ⟨_, rfl, hpath⟩, ⟨_, rfl, hzero⟩⟩
    exact ⟨_, rfl, [.dot, .name "a"], _, rfl, .inl ⟨_, _, rfl, rfl, rfl⟩,
      _, [], rfl, .inr ⟨_, rfl, _, [], rfl, ⟨_, rfl, htest⟩, rfl⟩, rfl⟩
  · simp [Query.WellTyped, sample, Segment.AllWellTyped, Segment.WellTyped, Selector.AllWellTyped,
      Selector.WellTyped, Expr.HasType, Segment.isSingular, Selector.isSingular, Json.IsPrimitive]

/-- The canonical text of a compiled query compiles to the very same query: `text` picks one of
the texts that an environment compiles to it. -/
theorem compile_canonical {env : Environment} {text : String} {q : Query}
    (h : env.compile text = .ok q) :
    env.compile q.text = .ok q ∧ q.same q = true := by
  obtain ⟨-, ⟨s, hs, hspells⟩, htyped, hdepth⟩ := compile_iff.mp h
  exact ⟨compile_of_spells hspells (Token.scanFrom_namesFunctions hs) htyped hdepth,
    Segment.sameAll_self htyped⟩

theorem compile_canonical_sample :
    sample.text = "$['a'][?@['b'] > -0.0]" ∧
      Environment.default.compile sample.text = .ok sample ∧ sample.same sample = true :=
  ⟨by cbv, compile_canonical sample_compiles⟩

/-- What compiles is well typed, in filters, embedded queries and arguments at every depth. -/
theorem compile_wellTyped {env : Environment} {text : String} {q : Query}
    (h : env.compile text = .ok q) : q.WellTyped env.registry := (compile_iff.mp h).2.2.1

theorem compile_wellTyped_sample : sample.WellTyped Environment.default.registry :=
  compile_wellTyped sample_compiles

end Environment
end JsonQuery
