import JsonQuery.Proofs.Evaluation.Singular
import JsonQuery.Proofs.Query.Compile

namespace JsonQuery
open Token (Kind kinds tokenize)

namespace Token

def Kind.function? : Kind → Option String
  | .function value => some value
  | _ => none

/-- The names of functions among tokens, in their order. -/
def functionNames (ks : List Kind) : List String := ks.filterMap Kind.function?

@[simp] theorem functionNames_nil : functionNames [] = [] := rfl

@[simp] theorem functionNames_append (ks ls : List Kind) :
    functionNames (ks ++ ls) = functionNames ks ++ functionNames ls := List.filterMap_append

@[simp] theorem functionNames_function (name : String) (ks : List Kind) :
    functionNames (.function name :: ks) = name :: functionNames ks := rfl

/-- Other tokens name no function. -/
theorem functionNames_cons {k : Kind} (h : k.function? = none) (ks : List Kind) :
    functionNames (k :: ks) = functionNames ks := List.filterMap_cons_none h

theorem functionNames_enclosed {k l : Kind} (hk : k.function? = none) (hl : l.function? = none)
    (ks : List Kind) : functionNames (k :: ks ++ [l]) = functionNames ks := by
  rw [List.cons_append, functionNames_cons hk, functionNames_append, functionNames_cons hl,
    functionNames_nil, List.append_nil]

end Token

namespace Expr

def called? : Expr → Option Extension
  | .call f _ => some f
  | _ => none

end Expr

/-- The names of the functions that expressions are calls of. -/
def calledNames (es : List Expr) : List String := (es.filterMap Expr.called?).map Extension.name

@[simp] theorem calledNames_append (es fs : List Expr) :
    calledNames (es ++ fs) = calledNames es ++ calledNames fs := by
  rw [calledNames, List.filterMap_append, List.map_append]
  rfl

@[simp] theorem calledNames_call (f : Extension) (args es : List Expr) :
    calledNames (.call f args :: es) = f.name :: calledNames es := rfl

theorem calledNames_cons {e : Expr} (h : e.called? = none) (es : List Expr) :
    calledNames (e :: es) = calledNames es := by
  rw [calledNames, List.filterMap_cons_none h]
  rfl

open Token (functionNames functionNames_cons functionNames_enclosed)

theorem functionNames_optionalIndex {i? : Option Int} {ks : List Kind}
    (h : SpellsOptionalIndex i? ks) : functionNames ks = [] := by
  cases i? with
  | none =>
    obtain rfl : ks = [] := h
    rfl
  | some i =>
    obtain ⟨n, rfl, -⟩ := h
    rfl

theorem Selector.function?_short {s : Selector} {k : Kind} (h : s.SpelledShort k) :
    k.function? = none ∧ s.exprs = [] := by
  cases s with
  | name _ | wildcard =>
    obtain rfl := h
    exact ⟨rfl, rfl⟩
  | index _ | slice _ _ _ | filter _ => exact h.elim

theorem Json.function?_spelled {v : Json} {k : Kind} (h : v.SpelledBy k) :
    k.function? = none := by
  cases v with
  | null | bool _ | string _ =>
    obtain rfl := h
    rfl
  | number x =>
    obtain ⟨n, rfl, -⟩ := h
    rfl
  | array _ | object _ => exact h.elim

theorem Anchor.function?_kind (anchor : Anchor) : anchor.kind.function? = none := by
  cases anchor <;> rfl

-- Each call is spelled with one function token, in front of those of its arguments. The induction
-- is on the tree, together with its lists.
mutual

theorem Selector.functionNames_eq : ∀ {s : Selector} {ks : List Kind}, s.Spells ks →
    functionNames ks = calledNames s.exprs
  | .name _, _, rfl | .wildcard, _, rfl => rfl
  | .index _, _, ⟨_, rfl, _⟩ => rfl
  | .slice _ _ _, _, ⟨first, second, third, hfirst, hsecond, hthird, hks⟩ => by
    have hstart := functionNames_optionalIndex hfirst
    have hstop := functionNames_optionalIndex hsecond
    have hstep := functionNames_optionalIndex hthird
    rcases hks with ⟨rfl, -⟩ | rfl
    · rw [Token.functionNames_append, functionNames_cons rfl, hstart, hstop]
      rfl
    · rw [Token.functionNames_append, Token.functionNames_append, functionNames_cons rfl,
        functionNames_cons rfl, hstart, hstop, hstep]
      rfl
  | .filter e, _, ⟨test, rfl, he⟩ => by
    rw [functionNames_cons rfl, Selector.exprs]
    exact Expr.functionNames_eq he

theorem Selector.functionNames_tail : ∀ {ss : List Selector} {ks : List Kind},
    Selector.SpellsTail ss ks → functionNames ks = calledNames (Selector.allExprs ss)
  | [], _, rfl => rfl
  | s :: ss, _, ⟨first, others, rfl, hs, hss⟩ => by
    rw [List.cons_append, functionNames_cons rfl, Token.functionNames_append, Selector.allExprs,
      calledNames_append, Selector.functionNames_eq hs, Selector.functionNames_tail hss]

theorem Selector.functionNames_all : ∀ {ss : List Selector} {ks : List Kind},
    Selector.SpellsAll ss ks → functionNames ks = calledNames (Selector.allExprs ss)
  | [], _, h => h.elim
  | s :: ss, _, ⟨first, others, rfl, hs, hss⟩ => by
    rw [Token.functionNames_append, Selector.allExprs, calledNames_append,
      Selector.functionNames_eq hs, Selector.functionNames_tail hss]

theorem Segment.functionNames_eq : ∀ {s : Segment} {ks : List Kind}, s.Spells ks →
    functionNames ks = calledNames s.exprs
  | .child _, _, .inl ⟨s, k, rfl, hs, rfl⟩ | .descendant _, _, .inl ⟨s, k, rfl, hs, rfl⟩ => by
    obtain ⟨hk, hexprs⟩ := Selector.function?_short hs
    rw [functionNames_cons rfl, functionNames_cons hk, Segment.exprs, Selector.allExprs, hexprs]
    rfl
  | .child _, _, .inr ⟨inner, rfl, hss⟩ => by
    rw [functionNames_enclosed rfl rfl, Segment.exprs]
    exact Selector.functionNames_all hss
  | .descendant _, _, .inr ⟨inner, rfl, hss⟩ => by
    rw [List.cons_append, functionNames_cons rfl, functionNames_enclosed rfl rfl, Segment.exprs]
    exact Selector.functionNames_all hss

theorem Segment.functionNames_all : ∀ {ss : List Segment} {ks : List Kind},
    Segment.SpellsAll ss ks → functionNames ks = calledNames (Segment.allExprs ss)
  | [], _, rfl => rfl
  | s :: ss, _, ⟨first, others, rfl, hs, hss⟩ => by
    rw [Token.functionNames_append, Segment.allExprs, calledNames_append,
      Segment.functionNames_eq hs, Segment.functionNames_all hss]

theorem Expr.functionNames_eq : ∀ {e : Expr} {l : Level} {ks : List Kind}, e.Spells l ks →
    functionNames ks = calledNames e.exprs
  | .logical _ a b, _, _, ⟨_, left, right, rfl, ha, hb⟩
  | .compare _ a b, _, _, ⟨_, left, right, rfl, ha, hb⟩ => by
    rw [Token.functionNames_append, functionNames_cons rfl, Expr.exprs, calledNames_cons rfl,
      calledNames_append, Expr.functionNames_eq ha, Expr.functionNames_eq hb]
  | .not a, _, _, ⟨_, inner, rfl, ha⟩ => by
    rw [functionNames_cons rfl, Expr.exprs, calledNames_cons rfl]
    exact Expr.functionNames_eq (e := a) ha
  | .paren a, _, _, ⟨_, inner, rfl, ha⟩ => by
    rw [functionNames_enclosed rfl rfl, Expr.exprs, calledNames_cons rfl]
    exact Expr.functionNames_eq ha
  | .exists anchor ss, _, _, ⟨path, rfl, hss⟩ | .query anchor ss, _, _, ⟨path, rfl, hss⟩ => by
    rw [functionNames_cons anchor.function?_kind, Expr.exprs, calledNames_cons rfl]
    exact Segment.functionNames_all hss
  | .call f args, _, _, ⟨inner, rfl, hargs⟩ => by
    rw [List.cons_append, Token.functionNames_function, functionNames_enclosed rfl rfl, Expr.exprs,
      calledNames_call, Expr.functionNames_all hargs]
  | .literal v, _, _, ⟨k, rfl, hk⟩ => by
    rw [functionNames_cons (Json.function?_spelled hk), Expr.exprs, calledNames_cons rfl]
    rfl

theorem Expr.functionNames_tail : ∀ {es : List Expr} {ks : List Kind},
    Expr.SpellsTail es ks → functionNames ks = calledNames (Expr.allExprs es)
  | [], _, rfl => rfl
  | e :: es, _, ⟨first, others, rfl, he, hes⟩ => by
    rw [List.cons_append, functionNames_cons rfl, Token.functionNames_append, Expr.allExprs,
      calledNames_append, Expr.functionNames_eq he, Expr.functionNames_tail hes]

theorem Expr.functionNames_all : ∀ {es : List Expr} {ks : List Kind},
    Expr.SpellsAll es ks → functionNames ks = calledNames (Expr.allExprs es)
  | [], _, rfl => rfl
  | e :: es, _, ⟨first, others, rfl, he, hes⟩ => by
    rw [Token.functionNames_append, Expr.allExprs, calledNames_append, Expr.functionNames_eq he,
      Expr.functionNames_tail hes]

end

namespace Query

/-- The functions that are called, at every depth, in the order of the text. -/
def calls (q : Query) : List Extension := q.exprs.filterMap Expr.called?

theorem functionNames_eq {q : Query} {ks : List Kind} (h : q.Spells ks) :
    functionNames ks = q.calls.map Extension.name := by
  obtain ⟨path, rfl, hpath⟩ := h
  rw [functionNames_cons rfl]
  exact Segment.functionNames_all hpath

theorem lookup_of_mem_calls {r : Registry} {q : Query} (h : q.WellTyped r) {f : Extension}
    (hf : f ∈ q.calls) : r.lookup f.name = some f := by
  obtain ⟨e, he, hcalled⟩ := List.mem_filterMap.mp hf
  obtain ⟨t, ht⟩ := Segment.hasType_of_mem_allExprs h he
  cases e with
  | call g args =>
    obtain rfl := Option.some.inj hcalled
    exact ht.1
  | _ => cases hcalled

end Query

namespace Environment

/-- The calls of a compiled query are the functions found under the names in its text, one for one,
and its canonical text has the same names again. -/
theorem calls_of_compile {env : Environment} {text : String} {q : Query}
    (h : env.compile text = .ok q) : ∃ s s', tokenize text = .ok s ∧ tokenize q.text = .ok s' ∧
      (functionNames (kinds s.tokens)).map env.registry.lookup = q.calls.map some ∧
        functionNames (kinds s'.tokens) = functionNames (kinds s.tokens) := by
  obtain ⟨-, ⟨s, hs, hspells⟩, htyped, hdepth⟩ := compile_iff.mp h
  have hagain := compile_of_spells hspells (Token.scanFrom_namesFunctions hs) htyped hdepth
  obtain ⟨-, ⟨s', hs', hspells'⟩, -, -⟩ := compile_iff.mp hagain
  refine ⟨s, s', hs, hs', ?_, by rw [q.functionNames_eq hspells, q.functionNames_eq hspells']⟩
  rw [Query.functionNames_eq hspells, List.map_map]
  exact List.map_congr_left (fun f hf => Query.lookup_of_mem_calls htyped hf)

end Environment
end JsonQuery
