import JsonQuery.Proofs.Grammar.Acceptance
import JsonQuery.Proofs.Query.Compile
import JsonQuery.Proofs.Query.Outline

namespace JsonQuery
open Token (Kind kinds tokenize Lexes)

namespace Expr

/-- Where an expression may stand without parentheses. -/
def level : Expr → Level
  | .logical op _ _ => op.level
  | .not _ | .compare _ _ _ => .basic
  | .paren _ => .negated
  | .exists _ _ | .query _ _ | .call _ _ | .literal _ => .operand

end Expr

section Spelling

variable {r : Registry} {top : Int}

/-- Literals are written so that they are read, if not always as the same number. -/
theorem Json.spelledBy_kind {v : Json} (h : v.FitsWord top) (hp : v.IsPrimitive) :
    v.asRead.SpelledBy v.kind := by
  match v with
  | .null | .bool _ | .string _ => rfl
  | .number (.float x) => exact ⟨_, rfl, x.numeral_value? _ _⟩
  | .number (.int i) =>
    obtain ⟨x, hx⟩ := Numeral.ofInt_isNumber h.1 h.2.1
    refine ⟨_, rfl, ?_⟩
    rw [Number.asRead, hx]
    rfl
  | .array _ | .object _ => exact hp.elim

namespace Expr

/-- An operand that is no chain of an operator itself may stand to the right of it. -/
theorem spells_right {op : LogicalOp} {e : Expr} {ks : List Kind} (h : e.Spells op.level ks)
    (hne : ∀ a b, e ≠ .logical op a b) : e.Spells op.rightLevel ks := by
  match e with
  | .logical op' a b =>
    cases op with
    | or =>
      cases op' with
      | or => exact absurd rfl (hne a b)
      | and => exact ⟨by decide, h.2⟩
    | and =>
      cases op' with
      | or => exact absurd h.1 (by decide)
      | and => exact absurd rfl (hne a b)
  | .not _ | .compare _ _ _ | .paren _ => exact ⟨by cases op <;> decide, h.2⟩
  | .exists _ _ | .query _ _ | .call _ _ | .literal _ => exact h

theorem spells_join {op : LogicalOp} {left right : Expr} {ks ks' : List Kind}
    (hl : left.Spells op.level ks) (hr : right.Spells op.level ks') :
    (left.join op right).Spells op.level (ks ++ .logical op :: ks') := by
  fun_induction join op left right generalizing ks' with
  | case1 a b ih =>
    obtain ⟨-, left', right', rfl, ha, hb⟩ := hr
    exact ⟨Nat.le_refl _, ks ++ .logical op :: left', right', by simp, ih ha, hb⟩
  | case2 op' a b hop =>
    have hne (a' b') : Expr.logical op' a b ≠ .logical op a' b' := by
      rintro ⟨⟩
      exact hop rfl
    exact ⟨Nat.le_refl _, ks, ks', rfl, hl, spells_right hr hne⟩
  | case3 e hne => exact ⟨Nat.le_refl _, ks, ks', rfl, hl, spells_right hr (hne op)⟩

/-- Parentheses let an expression stand where it could not stand alone. -/
theorem spells_enclosed {e e' : Expr} {ks : List Kind} {l : Level} {needed : Bool}
    (h : e'.Spells e.level ks) (hl : l.rank ≤ Level.negated.rank)
    (hn : needed = false → l.rank ≤ e.level.rank) :
    (enclosed needed e').Spells l (enclosedKinds needed ks) := by
  cases needed with
  | true => exact ⟨hl, ks, rfl, Grammar.spells_mono h (Nat.zero_le _)⟩
  | false => exact Grammar.spells_mono h (hn rfl)

theorem level_of_not_encloses {op : LogicalOp} {e : Expr} (h : op.encloses e = false) :
    op.level.rank ≤ e.level.rank := by
  cases op with
  | or => exact Nat.zero_le _
  | and =>
    cases e with
    | logical op a b =>
      cases op with
      | or => cases h
      | and => exact Nat.le_refl _
    | _ => simp [level, LogicalOp.level, Level.rank]

theorem level_of_not_compound {e : Expr} (hc : e.isCompound = false)
    (hn : e.isNegation = false) : Level.negated.rank ≤ e.level.rank := by
  cases e with
  | logical _ _ _ | compare _ _ _ => cases hc
  | not _ => cases hn
  | _ => simp [level, Level.rank]

/-- What has a value can be compared without parentheses. -/
theorem level_of_value {e : Expr} (h : e.Serves r top True .value) :
    e.level = .operand := by
  match e with
  | .logical _ _ _ | .compare _ _ _ | .not _ | .paren _ | .exists _ _ => exact absurd h.1 (by simp)
  | .query _ _ | .call _ _ | .literal _ => rfl

theorem rank_level_le_negated (op : LogicalOp) : op.level.rank ≤ Level.negated.rank := by
  cases op <;> decide

end Expr

-- The tokens of a sound tree without repeated negations spell its grouped form. The induction is
-- on the tree, with its lists; what stands at a level is put there by the parentheses.
mutual

theorem Selector.spells_grouped : ∀ {s : Selector}, s.Sound r top True → s.NegatesOnce →
    s.grouped.Spells s.kinds
  | .name _, _, _ | .wildcard, _, _ => rfl
  | .index i, _, _ => ⟨_, rfl, Numeral.ofInt_spellsIndex i⟩
  | .slice start stop step, _, _ => spells_slice start stop step
  | .filter _, h, hn =>
    ⟨_, rfl, Grammar.spells_mono (Expr.spells_grouped h hn) (Nat.zero_le _)⟩

theorem Selector.spellsTail_grouped : ∀ {ss : List Selector},
    Selector.AllSound r top True ss → Selector.AllNegateOnce ss →
    Selector.SpellsTail (Selector.allGrouped ss) (Selector.tailKinds ss)
  | [], _, _ => rfl
  | _ :: _, ⟨hs, hss⟩, ⟨hn, hns⟩ =>
    ⟨_, _, rfl, Selector.spells_grouped hs hn, Selector.spellsTail_grouped hss hns⟩

theorem Selector.spellsAll_grouped : ∀ {ss : List Selector}, ss ≠ [] →
    Selector.AllSound r top True ss → Selector.AllNegateOnce ss →
    Selector.SpellsAll (Selector.allGrouped ss) (Selector.listKinds ss)
  | [], hne, _, _ => absurd rfl hne
  | _ :: _, _, ⟨hs, hss⟩, ⟨hn, hns⟩ =>
    ⟨_, _, rfl, Selector.spells_grouped hs hn, Selector.spellsTail_grouped hss hns⟩

theorem Segment.spells_grouped : ∀ {s : Segment}, s.Sound r top True → s.NegatesOnce →
    s.grouped.Spells s.kinds
  | .child _, ⟨hne, hss⟩, hn | .descendant _, ⟨hne, hss⟩, hn =>
    .inr ⟨_, rfl, Selector.spellsAll_grouped (hne trivial) hss hn⟩

theorem Segment.spellsAll_grouped : ∀ {ss : List Segment}, Segment.AllSound r top True ss →
    Segment.AllNegateOnce ss → Segment.SpellsAll (Segment.allGrouped ss) (Segment.listKinds ss)
  | [], _, _ => rfl
  | _ :: _, ⟨hs, hss⟩, ⟨hn, hns⟩ =>
    ⟨_, _, rfl, Segment.spells_grouped hs hn, Segment.spellsAll_grouped hss hns⟩

theorem Expr.spells_grouped : ∀ {e : Expr} {t : ExprType}, e.Serves r top True t →
    e.NegatesOnce → (e.grouped t).Spells e.level e.kinds
  | .logical op _ _, _, ⟨_, ha, hb⟩, ⟨hna, hnb⟩ =>
    Expr.spells_join
      (Expr.spells_enclosed (Expr.spells_grouped ha hna) (Expr.rank_level_le_negated op)
        Expr.level_of_not_encloses)
      (Expr.spells_enclosed (Expr.spells_grouped hb hnb) (Expr.rank_level_le_negated op)
        Expr.level_of_not_encloses)
  | .not _, _, ⟨_, ha⟩, ⟨hsingle, hna⟩ =>
    ⟨Nat.le_refl _, _, rfl, Expr.spells_enclosed (Expr.spells_grouped ha hna) (Nat.le_refl _)
      (fun hc => Expr.level_of_not_compound hc hsingle)⟩
  | .paren _, _, ⟨_, ha⟩, hna =>
    ⟨Nat.le_refl _, _, rfl, Grammar.spells_mono (Expr.spells_grouped ha hna) (Nat.zero_le _)⟩
  | .compare _ _ _, _, ⟨_, ha, hb⟩, ⟨hna, hnb⟩ =>
    ⟨Nat.le_refl _, _, _, rfl, Expr.level_of_value ha ▸ Expr.spells_grouped ha hna,
      Expr.level_of_value hb ▸ Expr.spells_grouped hb hnb⟩
  | .exists _ _, _, ⟨_, hss⟩, hn => ⟨_, rfl, Segment.spellsAll_grouped hss hn⟩
  | .query _ _, t, ⟨_, hss⟩, hn => by
    cases t <;> exact ⟨_, rfl, Segment.spellsAll_grouped hss hn⟩
  | .call _ _, _, ⟨_, _, _, hargs⟩, hn => ⟨_, rfl, Expr.spellsAll_grouped hargs hn⟩
  | .literal _, _, ⟨_, hv, hp⟩, _ => ⟨_, rfl, Json.spelledBy_kind hv (hp trivial)⟩

theorem Expr.spellsTail_grouped : ∀ {es : List Expr} {ts : List ExprType},
    Expr.AllServe r top True es ts → Expr.AllNegateOnce es →
    Expr.SpellsTail (Expr.allGrouped es ts) (Expr.tailKinds es)
  | [], _, _, _ => rfl
  | _ :: _, [], h, _ => h.elim
  | _ :: _, _ :: _, ⟨he, hes⟩, ⟨hn, hns⟩ =>
    ⟨_, _, rfl, Grammar.spells_mono (Expr.spells_grouped he hn) (Nat.zero_le _),
      Expr.spellsTail_grouped hes hns⟩

theorem Expr.spellsAll_grouped : ∀ {es : List Expr} {ts : List ExprType},
    Expr.AllServe r top True es ts → Expr.AllNegateOnce es →
    Expr.SpellsAll (Expr.allGrouped es ts) (Expr.listKinds es)
  | [], _, _, _ => rfl
  | _ :: _, [], h, _ => h.elim
  | _ :: _, _ :: _, ⟨he, hes⟩, ⟨hn, hns⟩ =>
    ⟨_, _, rfl, Grammar.spells_mono (Expr.spells_grouped he hn) (Nat.zero_le _),
      Expr.spellsTail_grouped hes hns⟩

end

theorem Query.spells_grouped {q : Query} (h : q.Sound r top) (hn : q.NegatesOnce) :
    q.grouped.Spells q.kinds := ⟨_, rfl, Segment.spellsAll_grouped h hn⟩

end Spelling

/-- The same tokens spell no two well typed queries. -/
theorem Query.eq_of_spells {r : Registry} {q q' : Query} {ks : List Kind} (hs : q.Spells ks)
    (hs' : q'.Spells ks) (ht : q.WellTyped r) (ht' : q'.WellTyped r) : q = q' := by
  let ts : List Token := ks.map (fun k => ⟨k, 0⟩)
  have hkinds : Token.kinds ts = ks := by simp [ts, Token.kinds, Function.comp_def]
  let g : Grammar := ⟨r, max q.depth q'.depth, 0⟩
  have hq : g.query ts = .ok q :=
    Grammar.query_complete (hkinds.symm ▸ hs) ht (Nat.le_max_left _ _)
  have hq' : g.query ts = .ok q' :=
    Grammar.query_complete (hkinds.symm ▸ hs') ht' (Nat.le_max_right _ _)
  exact Except.ok.inj (hq.symm.trans hq')

namespace Environment

variable {env : Environment} {top : Int} {q q' : Query}

/-- When the canonical text of a built query compiles, and to what. -/
theorem compile_text_iff {strict : Prop}
    (h : Segment.AllSound env.registry top strict q.segments) : env.compile q.text = .ok q' ↔
      q.Sound env.registry top ∧ q.NegatesOnce ∧ q.grouped.depth ≤ env.maxDepth ∧
        q.grouped = q' := by
  have hchars : q.text.toList = q.chars := String.toList_ofList
  rw [compile_iff]
  constructor
  · rintro ⟨-, ⟨s, hs, hspells⟩, htyped, hdepth⟩
    have hlexes : Lexes .any q.chars (kinds s.tokens) := by
      rw [← hchars]
      exact Token.lexes_of_scanFrom hs
    obtain ⟨hsound, honce⟩ := Query.sound_of_spells h hlexes hspells htyped
    obtain ⟨s', hs', hkinds⟩ := Query.lexes hsound 0
    rw [← hchars] at hs'
    obtain rfl : s = s' := Except.ok.inj (hs.symm.trans hs')
    rw [hkinds] at hspells
    obtain rfl := Query.eq_of_spells (Query.spells_grouped hsound honce) hspells
      (Query.wellTyped_grouped hsound) htyped
    exact ⟨hsound, honce, hdepth, rfl⟩
  · rintro ⟨hsound, honce, hdepth, rfl⟩
    obtain ⟨s, hs, hkinds⟩ := Query.lexes hsound 0
    rw [← hchars] at hs
    exact ⟨hchars ▸ q.trimmed_chars, ⟨s, hs, hkinds ▸ Query.spells_grouped hsound honce⟩,
      Query.wellTyped_grouped hsound, hdepth⟩

/-- A filter with a disjunction and a conjunction below a conjunction, and with a comparison of a
call below a negation. -/
def built : Query :=
  ⟨[.child [.filter (.logical .and
    (.logical .or (.exists .current [.child [.name "a"]]) (.exists .current [.child [.name "b"]]))
    (.logical .and (.exists .root [])
      (.not (.compare .less (.call .count [.query .current [.child [.wildcard]]])
        (.literal (.number (.float (.zero false))))))))]]⟩

theorem built_sound {strict : Prop} : Segment.AllSound .standard top strict built.segments := by
  have hcount : Registry.standard.lookup "count" = some .count := rfl
  simp [built, Segment.AllSound, Segment.Sound, Selector.AllSound, Selector.Sound,
    Expr.Serves, Expr.AllServe, Json.FitsWord, Json.IsPrimitive, Extension.count]
  exact ⟨hcount, by decide⟩

theorem built_negatesOnce : built.NegatesOnce := by
  simp [built, Query.NegatesOnce, Segment.AllNegateOnce, Segment.NegatesOnce,
    Selector.AllNegateOnce, Selector.NegatesOnce, Expr.NegatesOnce, Expr.AllNegateOnce,
    Expr.isNegation]

/-- A query that was built in memory, with its operators nested in any way, keeps its meaning when
it is written and read: what its text compiles to selects the same nodes in the same order. -/
theorem compile_text_evaluate (h : q.Typed env.registry (2 ^ 63 - 1))
    (hc : env.compile q.text = .ok q') (document : Json) :
    q'.evaluate document = q.evaluate document := by
  obtain ⟨hsound, -, -, rfl⟩ := (compile_text_iff h).mp hc
  exact Query.evaluate_grouped document hsound

theorem compile_text_evaluate_built :
    built.text = "$[?(@['a'] || @['b']) && $ && !(count(@[*]) < 0.0)]" ∧
      Environment.default.compile built.text = .ok built.grouped ∧
      ∀ document, built.grouped.evaluate document = built.evaluate document := by
  have hsound : built.Sound Environment.default.registry (2 ^ 63 - 1) := built_sound
  have hcompile : Environment.default.compile built.text = .ok built.grouped :=
    (compile_text_iff hsound).mpr ⟨hsound, built_negatesOnce, by decide, rfl⟩
  have htyped : built.Typed Environment.default.registry (2 ^ 63 - 1) := built_sound
  exact ⟨by cbv, hcompile, compile_text_evaluate htyped hcompile⟩

/-- A test that always holds, under any name. -/
def passing (name : String) : Extension := ⟨name, [], .logical, fun _ => .logical true⟩

/-- The names of functions are not checked when they are registered. One that starts with `!` is
read as the negation of another. -/
def misnaming : Environment := { registry := .ofList [passing "!f", passing "f"] }

/-- Without proper names of its functions, a well typed query may change its meaning. -/
theorem misnamed_call_negates :
    let q : Query := ⟨[.child [.filter (.call (passing "!f") [])]]⟩
    let q' : Query := ⟨[.child [.filter (.not (.call (passing "f") []))]]⟩
    q.WellTyped misnaming.registry ∧ misnaming.compile q.text = .ok q' ∧
      (q.evaluate (.array [.number (.int 1)])).map Node.location = [[.index 0]] ∧
      q'.evaluate (.array [.number (.int 1)]) = [] := by
  intro q q'
  have hcall : misnaming.registry.lookup "!f" = some (passing "!f") := rfl
  have hnegated : misnaming.registry.lookup "f" = some (passing "f") := rfl
  have hsound : q'.Sound misnaming.registry 0 := by
    simp [q', Query.Sound, Segment.AllSound, Segment.Sound, Selector.AllSound, Selector.Sound,
      Expr.Serves, Expr.AllServe, passing]
    exact ⟨hnegated, by decide⟩
  have htext : q.text = q'.text := by cbv
  refine ⟨?_, ?_, rfl, rfl⟩
  · simpa [q, Query.WellTyped, Segment.AllWellTyped, Segment.WellTyped, Selector.AllWellTyped,
      Selector.WellTyped, Expr.HasType, Expr.HaveTypes, passing] using hcall
  · rw [htext]
    refine (compile_text_iff hsound).mpr ⟨hsound, ?_, by decide, rfl⟩
    simp [q', Query.NegatesOnce, Segment.AllNegateOnce, Segment.NegatesOnce,
      Selector.AllNegateOnce, Selector.NegatesOnce, Expr.NegatesOnce, Expr.AllNegateOnce,
      Expr.isNegation]

/-- The canonical text of a built query compiles, with enough room for its depth, if no negation in
it is the operand of another; otherwise it never does. -/
theorem compiles_text {r : Registry} (h : q.Sound r top) :
    (q.NegatesOnce → ∃ depth, ∀ n, depth ≤ n → ∃ q', (mk r n).compile q.text = .ok q') ∧
      ∀ n q', (mk r n).compile q.text = .ok q' → q.NegatesOnce := by
  have hiff (n : Nat) {q' : Query} := @compile_text_iff (mk r n) top q q' _ h
  exact ⟨fun honce => ⟨q.grouped.depth, fun n hn => ⟨q.grouped, (hiff n).mpr ⟨h, honce, hn, rfl⟩⟩⟩,
    fun n q' hc => ((hiff n).mp hc).2.1⟩

theorem compiles_text_built :
    (∃ depth, ∀ n, depth ≤ n → ∃ q', (mk .standard n).compile built.text = .ok q') := by
  have hsound : built.Sound .standard (2 ^ 64 - 1) := built_sound
  exact (compiles_text hsound).1 built_negatesOnce

/-- Two negations in front of a test are written without parentheses between them, which no
environment compiles. -/
theorem double_negation_not_compiled :
    let q : Query := ⟨[.child [.filter (.not (.not (.exists .current [])))]]⟩
    q.Sound .standard (2 ^ 64 - 1) ∧ q.text = "$[?!!@]" ∧
      ∀ n q', (mk .standard n).compile q.text ≠ .ok q' := by
  intro q
  have hsound : q.Sound .standard (2 ^ 64 - 1) := by
    simp [q, Query.Sound, Segment.AllSound, Segment.Sound, Selector.AllSound, Selector.Sound,
      Expr.Serves]
  refine ⟨hsound, by cbv, fun n q' hc => ?_⟩
  obtain ⟨-, honce, -⟩ := (@compile_text_iff (mk .standard n) _ q q' _ hsound).mp hc
  simp [q, Query.NegatesOnce, Segment.AllNegateOnce, Segment.NegatesOnce, Selector.AllNegateOnce,
    Selector.NegatesOnce, Expr.NegatesOnce, Expr.isNegation] at honce

end Environment
end JsonQuery
