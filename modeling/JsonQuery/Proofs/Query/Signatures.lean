import JsonQuery.Proofs.Function.Standard
import JsonQuery.Proofs.Query.Errors

namespace JsonQuery
open Token (Kind kinds tokenize)

namespace Extension

/-- What compilation sees of a function, besides its name. -/
def SameSignature (f g : Extension) : Prop := f.params = g.params ∧ f.returns = g.returns

end Extension

namespace Registry

/-- The function of a registry that stands for another one, where it declares the same. -/
def counterpart (r : Registry) (f : Extension) : Extension :=
  ((r.lookup f.name).filter (fun g => f.agrees g)).getD f

theorem preserves_counterpart (r : Registry) : Extension.Preserves r.counterpart := by
  intro f
  unfold counterpart
  cases hg : (r.lookup f.name).filter (fun g => f.agrees g) with
  | none => exact Extension.agrees_iff.mpr ⟨rfl, rfl, rfl⟩
  | some g => exact (Option.filter_eq_some_iff.mp hg).2

/-- Functions that declare the same for a name are each other's counterparts. -/
theorem lookup_counterpart {r r' : Registry} {name : String}
    (h : Option.Rel Extension.SameSignature (r.lookup name) (r'.lookup name)) :
    r'.lookup name = (r.lookup name).map r'.counterpart := by
  generalize hf : r.lookup name = found at h
  generalize hf' : r'.lookup name = found' at h
  cases h with
  | none => rfl
  | @some f f' hsame =>
    have hname := Grammar.lookup_name hf
    have hname' := Grammar.lookup_name hf'
    have hagrees : f.agrees f' = true :=
      Extension.agrees_iff.mpr ⟨hname.trans hname'.symm, hsame⟩
    simp [counterpart, hname, hf', Option.filter, hagrees]

theorem rel_sameSignature_self (f? : Option Extension) :
    Option.Rel Extension.SameSignature f? f? := by
  cases f? with
  | none => exact .none
  | some f => exact .some ⟨rfl, rfl⟩

/-- The registry without the functions of a name. -/
def without (r : Registry) (name : String) : Registry :=
  ⟨r.functions.filter (fun f => f.name != name)⟩

theorem lookup_without (r : Registry) {name other : String} (h : other ≠ name) :
    (r.without name).lookup other = r.lookup other := by
  unfold without lookup
  rw [List.find?_filter]
  congr
  funext f
  by_cases hf : f.name = other <;> simp [hf, h]

end Registry

/-- Whether a text with no fault in its characters names a function. -/
def Calls (text name : String) : Prop :=
  ∃ s, tokenize text = .ok s ∧ Kind.function name ∈ kinds s.tokens

/-- For each function that the text names, both registries lack it, or both have one of one
signature. -/
def SameSignatures (text : String) (r r' : Registry) : Prop :=
  ∀ name, Calls text name →
    Option.Rel Extension.SameSignature (r.lookup name) (r'.lookup name)

namespace SameSignatures

variable {text : String} {r : Registry}

/-- A function that the text names may be replaced by one of its signature, any other by any. -/
theorem insert {f : Extension}
    (h : Calls text f.name → ∃ g, r.lookup f.name = some g ∧ g.SameSignature f) :
    SameSignatures text r (r.insert f).2 := by
  intro name hcalled
  rw [Registry.lookup_insert]
  by_cases hname : f.name = name
  · rw [if_pos hname]
    subst hname
    obtain ⟨g, hg, hsame⟩ := h hcalled
    rw [hg]
    exact .some hsame
  · rw [if_neg hname]
    exact Registry.rel_sameSignature_self _

theorem without {name : String} (h : ¬Calls text name) :
    SameSignatures text r (r.without name) := by
  intro other hcalled
  have hne : other ≠ name := by
    intro heq
    exact h (heq ▸ hcalled)
  rw [r.lookup_without hne]
  exact Registry.rel_sameSignature_self _

end SameSignatures

/-- The same queries, or the same error at the same place. -/
inductive SameOutcome : Except QueryError Query → Except QueryError Query → Prop where
  | ok {q q' : Query} (h : q.same q' = true) : SameOutcome (.ok q) (.ok q')
  | error (e : QueryError) : SameOutcome (.error e) (.error e)

namespace Grammar

/-- Tokens in the same places, with the functions that one registry has in place of others. -/
def calling (s : TokenStream) (r : Registry) : Variation :=
  ⟨Eq, fun name => Kind.function name ∈ kinds s.tokens, r.counterpart, r.preserves_counterpart⟩

/-- The grammar reads the same query with the functions of the other registry in its calls, or
ends with the same error. -/
theorem query_counterparts {r r' : Registry} {text : String} {s : TokenStream}
    (hs : tokenize text = .ok s) (h : SameSignatures text r r') (m : Nat) :
    Follows Eq ⟨r, m, s.stop⟩ ⟨r', m, s.stop⟩ (Query.rebind r'.counterpart · = ·)
      ((Grammar.mk r m s.stop).query s.tokens) ((Grammar.mk r' m s.stop).query s.tokens) := by
  have hallow : ∀ t ∈ s.tokens, (calling s r').Allows t.kind := by
    intro t ht
    refine .of_ne_end (Token.tokenize_ne_endOfQuery hs t ht) ?_
    intro name hname
    exact List.mem_map.mpr ⟨t, ht, hname⟩
  have hplaces : ∀ (i : Nat) t t', s.tokens[i]? = some t → s.tokens[i]? = some t' →
      (calling s r').places t.offset t'.offset := by
    intro i t t' ht ht'
    rw [ht] at ht'
    exact congrArg Token.offset (Option.some.inj ht')
  obtain ⟨xs, hleft, hright⟩ := exists_allowed (calling s r') rfl hallow hplaces
  have hvaries : Varies (calling s r') ⟨r, m, s.stop⟩ ⟨r', m, s.stop⟩ :=
    ⟨fun name hname => Registry.lookup_counterpart (h name ⟨s, hs, hname⟩), rfl, Nat.le_refl m⟩
  have hfollows := query_varies hvaries xs
  rw [hleft, hright] at hfollows
  exact hfollows

end Grammar

namespace Environment

theorem compile_of_not_trimmed {text : String} (h : ¬Trimmed text.toList) :
    ∃ e, ∀ env : Environment, env.compile text = .error e := by
  cases hhead : text.toList.head?.any isBlank with
  | true => exact ⟨_, compile_of_leading hhead⟩
  | false =>
    cases hlast : text.toList.getLast?.any isBlank with
    | true => exact ⟨_, compile_of_trailing hhead hlast⟩
    | false => exact absurd ⟨hhead, hlast⟩ h

theorem compile_of_sameSignatures {r r' : Registry} {text : String}
    (h : SameSignatures text r r') (m : Nat) :
    SameOutcome ((Environment.mk r m).compile text) ((Environment.mk r' m).compile text) := by
  by_cases htrim : Trimmed text.toList
  · cases hs : tokenize text with
    | error f =>
      rw [compile_of_fault htrim hs, compile_of_fault htrim hs]
      exact .error _
    | ok s =>
      have hfollows := Grammar.query_counterparts hs h m
      rw [compile_of_tokens htrim hs, compile_of_tokens htrim hs]
      generalize hx : (Grammar.mk r m s.stop).query s.tokens = x at hfollows ⊢
      generalize (Grammar.mk r' m s.stop).query s.tokens = x' at hfollows ⊢
      cases hfollows with
      | ok heq =>
        subst heq
        have htyped := (Grammar.query_sound hx).2.1
        exact .ok (Segment.sameAll_rebind r'.preserves_counterpart htyped)
      | error hplace _ =>
        subst hplace
        exact .error _
      | tooDeep hlt => exact absurd hlt (Nat.lt_irrefl m)
  · obtain ⟨e, he⟩ := compile_of_not_trimmed htrim
    rw [he, he]
    exact .error e

/-- Compilation sees of a registry nothing but the signatures of the functions that a text names.
To add, replace or remove other functions does not change what comes of it, and neither does
another implementation. -/
theorem compile_signatures (env : Environment) (text : String) :
    (∀ env' : Environment, env'.maxDepth = env.maxDepth →
      SameSignatures text env.registry env'.registry →
      SameOutcome (env.compile text) (env'.compile text)) ∧
    (∀ f : Extension, (Calls text f.name → ∃ g, env.registry.lookup f.name = some g ∧
        g.SameSignature f) →
      SameOutcome (env.compile text)
        ({ env with registry := (env.registry.insert f).2 }.compile text)) ∧
    ∀ name, ¬Calls text name →
      SameOutcome (env.compile text)
        ({ env with registry := env.registry.without name }.compile text) := by
  have hgeneral : ∀ env' : Environment, env'.maxDepth = env.maxDepth →
      SameSignatures text env.registry env'.registry →
      SameOutcome (env.compile text) (env'.compile text) := by
    intro env' hdepth h
    obtain ⟨r, m⟩ := env
    obtain ⟨r', m'⟩ := env'
    subst hdepth
    exact compile_of_sameSignatures h m'
  exact ⟨hgeneral, fun f hf => hgeneral _ rfl (.insert hf),
    fun name hname => hgeneral _ rfl (.without hname)⟩

def searching : String := "$[?search(@,'a')]"

theorem calls_searching {name : String} : Calls searching name ↔ name = "search" := by
  have htokens : tokenize searching = .ok ⟨[⟨.root, 0⟩, ⟨.openBracket, 1⟩, ⟨.question, 2⟩,
      ⟨.function "search", 3⟩, ⟨.openParen, 9⟩, ⟨.current, 10⟩, ⟨.comma, 11⟩, ⟨.string "a", 12⟩,
      ⟨.closeParen, 15⟩, ⟨.closeBracket, 16⟩], 17⟩ := by cbv
  simp [Calls, htokens, kinds, eq_comm]

/-- A search that finds nothing. -/
def blindSearch : Extension := { Extension.search with apply := fun _ => .logical false }

/-- Neither a registry of nothing but another search, nor that search in place of the first, nor a
registry without `count` changes what comes of a query that only searches. -/
theorem compile_signatures_searching :
    Calls searching "search" ∧ ¬Calls searching "count" ∧
    SameOutcome (Environment.default.compile searching)
      ((Environment.mk (.ofList [blindSearch]) 128).compile searching) ∧
    SameOutcome (Environment.default.compile searching)
      ((Environment.mk (Registry.standard.insert blindSearch).2 128).compile searching) ∧
    SameOutcome (Environment.default.compile searching)
      ((Environment.mk (Registry.standard.without "count") 128).compile searching) := by
  have hcount : ¬Calls searching "count" := by
    rw [calls_searching]
    decide
  obtain ⟨hother, hinsert, hwithout⟩ := compile_signatures .default searching
  refine ⟨calls_searching.mpr rfl, hcount, hother ⟨.ofList [blindSearch], 128⟩ rfl ?_,
    hinsert blindSearch (fun _ => ⟨.search, rfl, rfl, rfl⟩), hwithout "count" hcount⟩
  intro name hname
  rw [calls_searching.mp hname]
  exact .some ⟨rfl, rfl⟩

end Environment
end JsonQuery
