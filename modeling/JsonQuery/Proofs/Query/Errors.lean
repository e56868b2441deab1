import JsonQuery.Proofs.Grammar.Agreement
import JsonQuery.Proofs.Query.Compile
import JsonQuery.Proofs.Token.Padding

namespace JsonQuery
open Token (Kind Padded kinds tokenize)

namespace Grammar

/-- Tokens of the same kinds at related places. -/
theorem exists_allowed {ts ts' : List Token} (v : Variation) (hk : kinds ts' = kinds ts)
    (hallow : ∀ t ∈ ts, v.Allows t.kind)
    (hplaces : ∀ (i : Nat) t t', ts[i]? = some t → ts'[i]? = some t' →
      v.places t.offset t'.offset) :
    ∃ xs : List (Twin v), lefts xs = ts ∧ rights xs = ts' := by
  induction ts generalizing ts' with
  | nil =>
    obtain rfl := List.map_eq_nil_iff.mp hk
    exact ⟨[], rfl, rfl⟩
  | cons t ts ih =>
    obtain ⟨⟨k, o'⟩, ts', rfl, rfl, hts⟩ := List.map_eq_cons_iff.mp hk
    obtain ⟨hhead, htail⟩ := List.forall_mem_cons.mp hallow
    obtain ⟨xs, rfl, rfl⟩ := ih hts htail (fun i u u' hu hu' => hplaces (i + 1) u u' hu hu')
    exact ⟨⟨t.kind, t.offset, o', hplaces 0 t _ rfl rfl, hhead⟩ :: xs, rfl, rfl⟩

theorem exists_twins {ts ts' : List Token} (places : Nat → Nat → Prop) (hk : kinds ts' = kinds ts)
    (hne : ∀ t ∈ ts, t.kind ≠ .endOfQuery)
    (hplaces : ∀ (i : Nat) t t', ts[i]? = some t → ts'[i]? = some t' → places t.offset t'.offset) :
    ∃ xs : List (Twin (.ofPlaces places)), lefts xs = ts ∧ rights xs = ts' :=
  exists_allowed _ hk (fun t ht => .of_ne_end (hne t ht) (fun _ _ => trivial)) hplaces

end Grammar

namespace Environment
open Grammar (Twin Twins lefts rights)

theorem compile_of_leading {text : String} (h : text.toList.head?.any isBlank = true)
    (env : Environment) : env.compile text = .error ⟨.leadingBlank, 0⟩ := by
  rw [compile, if_pos h]

theorem compile_of_trailing {text : String} (h : text.toList.head?.any isBlank = false)
    (hlast : text.toList.getLast?.any isBlank = true) (env : Environment) :
    env.compile text = .error ⟨.trailingBlank, text.utf8ByteSize - 1⟩ := by
  rw [compile, if_neg (by simp [h]), if_pos hlast, Token.size_toList]

theorem compile_of_tokens {env : Environment} {text : String} {s : TokenStream}
    (ht : Trimmed text.toList) (hs : tokenize text = .ok s) :
    env.compile text = (Grammar.mk env.registry env.maxDepth s.stop).query s.tokens := by
  simp [compile, ht.1, ht.2, hs, Except.mapError, bind, Except.bind]

theorem compile_of_fault {env : Environment} {text : String} {f : Token.Error}
    (ht : Trimmed text.toList) (hf : tokenize text = .error f) :
    env.compile text = .error (.ofToken f) := by
  simp [compile, ht.1, ht.2, hf, Except.mapError, bind, Except.bind]

theorem same_self_of_compile {env : Environment} {text : String} {q : Query}
    (h : env.compile text = .ok q) : q.same q = true :=
  Segment.sameAll_self (compile_iff.mp h).2.2.1

/-- The limit of nesting decides nothing but which queries are stopped, and it stops those that
are nested more deeply than it says. -/
theorem compile_nesting {r : Registry} {m : Nat} {text : String} {q : Query}
    (h : (Environment.mk r m).compile text = .ok q) (n : Nat) :
    q.depth ≤ m ∧
    (q.depth ≤ n → (Environment.mk r n).compile text = .ok q ∧ q.same q = true) ∧
    (n < q.depth → ∃ e, (Environment.mk r n).compile text = .error e ∧
      e.kind = .nestingTooDeep) := by
  obtain ⟨htrim, hspells, htyped, hdepth⟩ := compile_iff.mp h
  refine ⟨hdepth, fun hle => ?_, fun hlt => ?_⟩
  · exact ⟨compile_iff.mpr ⟨htrim, hspells, htyped, hle⟩, same_self_of_compile h⟩
  · obtain ⟨-, s, hs, hq⟩ := compile_ok.mp h
    rw [compile_of_tokens htrim hs]
    obtain ⟨xs, hleft, hright⟩ := Grammar.exists_twins (fun _ _ => True)
      (rfl : kinds s.tokens = kinds s.tokens) (Token.tokenize_ne_endOfQuery hs)
      (fun _ _ _ _ _ => trivial)
    have htwins : Twins (fun _ _ => True) ⟨r, m, s.stop⟩ ⟨r, n, s.stop⟩ :=
      ⟨rfl, trivial, Nat.le_of_lt (Nat.lt_of_lt_of_le hlt hdepth)⟩
    have hfollows := Grammar.query_follows htwins xs
    rw [hleft, hright, hq] at hfollows
    generalize hresult : (Grammar.mk r n s.stop).query s.tokens = result at hfollows
    cases hfollows with
    | ok heq =>
      subst heq
      exact absurd (Grammar.query_sound hresult).2.2 (Nat.not_le_of_lt hlt)
    | tooDeep _ => exact ⟨_, rfl, rfl⟩

/-- One filter goes through where one level is allowed, and not where none is. -/
theorem compile_nesting_sample :
    (Environment.mk .standard 1).compile "$.a[?@.b>-0]" = .ok sample ∧
    ∃ e, (Environment.mk .standard 0).compile "$.a[?@.b>-0]" = .error e ∧
      e.kind = .nestingTooDeep :=
  ⟨((compile_nesting sample_compiles 1).2.1 (by decide)).1,
    (compile_nesting sample_compiles 0).2.2 (by decide)⟩

/-- The offsets of one token of two texts, or of their ends. -/
def SamePlace (s s' : TokenStream) (o o' : Nat) : Prop :=
  ∃ (i : Nat) (t t' : Token), s.toList[i]? = some t ∧ s'.toList[i]? = some t' ∧ t.offset = o ∧
    t'.offset = o'

theorem exists_samePlaces {s s' : TokenStream} (hk : kinds s'.tokens = kinds s.tokens)
    (hne : ∀ t ∈ s.tokens, t.kind ≠ .endOfQuery) :
    SamePlace s s' s.stop s'.stop ∧
    ∃ xs : List (Twin (.ofPlaces (SamePlace s s'))),
      lefts xs = s.tokens ∧ rights xs = s'.tokens := by
  have hlength : s'.tokens.length = s.tokens.length := by
    simpa [kinds] using congrArg List.length hk
  refine ⟨⟨s.tokens.length, ⟨.endOfQuery, s.stop⟩, ⟨.endOfQuery, s'.stop⟩, ?_, ?_, rfl, rfl⟩,
    Grammar.exists_twins _ hk hne ?_⟩
  · exact List.getElem?_concat_length ..
  · rw [← hlength]
    exact List.getElem?_concat_length ..
  · intro i t t' ht ht'
    obtain ⟨hi, -⟩ := List.getElem?_eq_some_iff.mp ht
    obtain ⟨hi', -⟩ := List.getElem?_eq_some_iff.mp ht'
    refine ⟨i, t, t', ?_, ?_, rfl, rfl⟩
    · rw [TokenStream.toList, List.getElem?_append_left hi, ht]
    · rw [TokenStream.toList, List.getElem?_append_left hi', ht']

/-- Blanks around tokens, but directly behind dots and the names of functions, change neither the
tokens nor what comes of them, as long as there are none at the ends. -/
theorem compile_padded {text text' : String} {s : TokenStream} (h : tokenize text = .ok s)
    (hp : Padded true 0 s.tokens text.toList text'.toList) :
    ∃ s', tokenize text' = .ok s' ∧ kinds s'.tokens = kinds s.tokens ∧
      (Trimmed text.toList → Trimmed text'.toList → ∀ env : Environment,
        (∃ q, env.compile text = .ok q ∧ env.compile text' = .ok q ∧ q.same q = true) ∨
        ∃ e e', env.compile text = .error e ∧ env.compile text' = .error e' ∧
          e'.kind = e.kind ∧ e'.message = e.message ∧ SamePlace s s' e.offset e'.offset) := by
  obtain ⟨s', hs', hkinds⟩ := hp.tokenize h
  refine ⟨s', hs', hkinds, fun htrim htrim' env => ?_⟩
  obtain ⟨hstop, xs, hleft, hright⟩ :=
    exists_samePlaces hkinds (Token.tokenize_ne_endOfQuery h)
  have htwins : Twins (SamePlace s s') ⟨env.registry, env.maxDepth, s.stop⟩
      ⟨env.registry, env.maxDepth, s'.stop⟩ := ⟨rfl, hstop, Nat.le_refl _⟩
  have hfollows := Grammar.query_follows htwins xs
  rw [hleft, hright, ← compile_of_tokens htrim h, ← compile_of_tokens htrim' hs'] at hfollows
  generalize hx : env.compile text = x at hfollows
  generalize hx' : env.compile text' = x' at hfollows
  cases hfollows with
  | ok heq =>
    subst heq
    exact .inl ⟨_, rfl, rfl, same_self_of_compile hx⟩
  | error hplace hend => exact .inr ⟨_, _, rfl, rfl, rfl, rfl, hplace⟩
  | tooDeep hlt => exact absurd hlt (Nat.lt_irrefl _)

/-- A bracket that nothing opened, behind a name of two bytes. -/
def strayBracket : TokenStream :=
  ⟨[⟨.root, 0⟩, ⟨.dot, 1⟩, ⟨.name "é", 2⟩, ⟨.closeBracket, 4⟩], 5⟩

theorem strayBracket_tokens : tokenize "$.é]" = .ok strayBracket := by cbv

theorem strayBracket_error :
    Environment.default.compile "$.é]" = .error ⟨.unexpected .closeBracket .segmentOrEnd, 4⟩ := by
  rw [compile_of_tokens (by unfold Trimmed; cbv) strayBracket_tokens]
  simp [strayBracket, Grammar.query, Grammar.segments, Grammar.shorthand, Grammar.unexpected, bind,
    Except.bind, pure, Except.pure]

theorem compile_padded_strayBracket :
    Padded true 0 strayBracket.tokens "$.é]".toList "$ .é\t]".toList ∧
    ∃ s', tokenize "$ .é\t]" = .ok s' ∧ kinds s'.tokens = kinds strayBracket.tokens ∧
      ∃ e e', Environment.default.compile "$.é]" = .error e ∧
        Environment.default.compile "$ .é\t]" = .error e' ∧ e'.kind = e.kind ∧
        e'.message = e.message ∧ SamePlace strayBracket s' e.offset e'.offset := by
  have hpadded : Padded true 0 strayBracket.tokens "$.é]".toList "$ .é\t]".toList := by
    have hroot : Kind.root.Lexeme ['$'] := ⟨_, rfl, rfl⟩
    have hdot : Kind.dot.Lexeme ['.'] := ⟨_, rfl, rfl⟩
    have hname : (Kind.name "é").Lexeme ['é'] := ⟨rfl, 'é', [], rfl, rfl, by simp⟩
    have hbracket : Kind.closeBracket.Lexeme [']'] := ⟨_, rfl, rfl⟩
    exact .token hroot (.insert rfl (.token hdot (.token hname (.insert rfl
      (.token hbracket (.done _ _))))))
  obtain ⟨s', hs', hkinds, hcompile⟩ := compile_padded strayBracket_tokens hpadded
  refine ⟨hpadded, s', hs', hkinds, ?_⟩
  rcases hcompile (by unfold Trimmed; cbv) (by unfold Trimmed; cbv) .default with
    ⟨q, hq, -⟩ | hboth
  · rw [strayBracket_error] at hq
    cases hq
  · exact hboth

/-- Where an error comes from. -/
theorem compile_error {env : Environment} {text : String} {e : QueryError}
    (h : env.compile text = .error e) :
    text.toList.head?.any isBlank = true ∧ e = ⟨.leadingBlank, 0⟩ ∨
    text.toList.getLast?.any isBlank = true ∧ e = ⟨.trailingBlank, text.utf8ByteSize - 1⟩ ∨
    Trimmed text.toList ∧ ((∃ f, tokenize text = .error f ∧ e = .ofToken f) ∨
      ∃ s, tokenize text = .ok s ∧
        (Grammar.mk env.registry env.maxDepth s.stop).query s.tokens = .error e) := by
  cases hhead : text.toList.head?.any isBlank with
  | true =>
    rw [compile_of_leading hhead] at h
    cases h
    exact .inl ⟨rfl, rfl⟩
  | false =>
    cases hlast : text.toList.getLast?.any isBlank with
    | true =>
      rw [compile_of_trailing hhead hlast] at h
      cases h
      exact .inr (.inl ⟨rfl, rfl⟩)
    | false =>
      refine .inr (.inr ⟨⟨hhead, hlast⟩, ?_⟩)
      cases htokens : tokenize text with
      | error f =>
        rw [compile_of_fault ⟨hhead, hlast⟩ htokens] at h
        cases h
        exact .inl ⟨f, rfl, rfl⟩
      | ok s =>
        rw [compile_of_tokens ⟨hhead, hlast⟩ htokens] at h
        exact .inr ⟨s, rfl, h⟩

/-- The last byte of a text that ends with a blank is that blank. -/
theorem isValid_last {text : String} (h : text.toList.getLast?.any isBlank = true) :
    (String.Pos.Raw.mk (text.utf8ByteSize - 1)).IsValid text := by
  obtain ⟨c, hlast, hc⟩ := (Option.any_eq_true ..).mp h
  obtain ⟨front, hsplit⟩ := List.getLast?_eq_some_iff.mp hlast
  have hsize : c.utf8Size = 1 := by
    simp only [isBlank, Bool.or_eq_true, beq_iff_eq] at hc
    rcases hc with ((rfl | rfl) | rfl) | rfl <;> rfl
  rw [← Token.size_toList, hsplit, Token.size_append, Token.size_cons, hsize]
  exact Token.isValid_size hsplit

theorem unexpected_of_kind {cause : QueryError.Cause} (h : cause.kind = .unexpectedEnd) :
    ∃ expected, cause = .unexpected .endOfQuery expected := by
  cases cause with
  | unexpected found expected =>
    cases found with
    | endOfQuery => exact ⟨expected, rfl⟩
    | _ => cases h
  | lexical fault =>
    cases fault with
    | string fault => cases fault <;> cases h
    | _ => cases h
  | _ => cases h

/-- Errors of the grammar are at tokens, and those of the end at the end. -/
theorem query_error_offset {r : Registry} {m : Nat} {text : String} {s : TokenStream}
    {e : QueryError} (hs : tokenize text = .ok s)
    (h : (Grammar.mk r m s.stop).query s.tokens = .error e) :
    (∃ t ∈ s.toList, e.offset = t.offset) ∧ (e.kind = .unexpectedEnd → e.offset = s.stop) := by
  have hend : (⟨.endOfQuery, s.stop⟩ : Token) ∈ s.toList := by simp [TokenStream.toList]
  obtain ⟨xs, hleft, hright⟩ := Grammar.exists_twins (fun o _ => ∃ t ∈ s.toList, o = t.offset)
    (rfl : kinds s.tokens = kinds s.tokens) (Token.tokenize_ne_endOfQuery hs)
    (fun i t _ ht _ => ⟨t, List.mem_append_left _ (List.mem_of_getElem? ht), rfl⟩)
  have htwins : Twins (fun o _ => ∃ t ∈ s.toList, o = t.offset) ⟨r, m, s.stop⟩ ⟨r, m, s.stop⟩ :=
    ⟨rfl, ⟨_, hend, rfl⟩, Nat.le_refl _⟩
  have hfollows := Grammar.query_follows htwins xs
  rw [hleft, hright, h] at hfollows
  cases hfollows with
  | error hplace hstop =>
    refine ⟨hplace, fun hkind => ?_⟩
    obtain ⟨expected, heq⟩ := unexpected_of_kind hkind
    exact hstop expected heq
  | tooDeep hlt => exact absurd hlt (Nat.lt_irrefl _)

/-- Where errors stand: in front of a whole character or at the end of the text. A fault of the
scanner is reported as it is. Every other error belongs to a token, the end, or a blank at either
end of the text, and one that found the end stands there. -/
theorem compile_error_offset {env : Environment} {text : String} {e : QueryError}
    (h : env.compile text = .error e) :
    e.offset ≤ text.utf8ByteSize ∧ (String.Pos.Raw.mk e.offset).IsValid text ∧
    (∀ f, tokenize text = .error f → Trimmed text.toList →
      e.kind = f.fault.kind ∧ e.offset = f.offset ∧ e.message = f.fault.message) ∧
    ∀ s, tokenize text = .ok s →
      (Trimmed text.toList ∧ (∃ t ∈ s.toList, e.offset = t.offset) ∨
        text.toList.head?.any isBlank = true ∧ e.offset = 0 ∨
        text.toList.getLast?.any isBlank = true ∧ e.offset = text.utf8ByteSize - 1) ∧
      (e.kind = .unexpectedEnd → e.offset = s.stop) := by
  have hvalid : (String.Pos.Raw.mk e.offset).IsValid text := by
    rcases compile_error h with ⟨-, rfl⟩ | ⟨hlast, rfl⟩ | ⟨-, ⟨f, hf, rfl⟩ | ⟨s, hs, hq⟩⟩
    · exact Token.isValid_size (List.nil_append _).symm
    · exact isValid_last hlast
    · exact Token.tokenize_error_isValid hf
    · obtain ⟨⟨t, ht, heq⟩, -⟩ := query_error_offset hs hq
      rw [heq]
      exact Token.tokenize_isValid hs t ht
  refine ⟨hvalid.le_rawEndPos, hvalid, fun f hf htrim => ?_, fun s hs => ?_⟩
  · rw [compile_of_fault htrim hf] at h
    cases h
    exact ⟨rfl, rfl, rfl⟩
  · rcases compile_error h with ⟨hhead, rfl⟩ | ⟨hlast, rfl⟩ |
      ⟨htrim, ⟨f, hf, rfl⟩ | ⟨s', hs', hq⟩⟩
    · exact ⟨.inr (.inl ⟨hhead, rfl⟩), fun hkind => by cases hkind⟩
    · exact ⟨.inr (.inr ⟨hlast, rfl⟩), fun hkind => by cases hkind⟩
    · rw [hs] at hf
      cases hf
    · rw [hs] at hs'
      cases hs'
      obtain ⟨htoken, hend⟩ := query_error_offset hs hq
      exact ⟨.inl ⟨htrim, htoken⟩, hend⟩

theorem compile_error_offset_strayBracket :
    4 ≤ "$.é]".utf8ByteSize ∧ (String.Pos.Raw.mk 4).IsValid "$.é]" ∧
      ∃ t ∈ strayBracket.toList, 4 = t.offset := by
  obtain ⟨hle, hvalid, -, htoken⟩ := compile_error_offset strayBracket_error
  refine ⟨hle, hvalid, ?_⟩
  rcases (htoken _ strayBracket_tokens).1 with ⟨-, ht⟩ | ⟨-, h⟩ | ⟨hlast, -⟩
  · exact ht
  · cases h
  · cases hlast

end Environment
end JsonQuery
