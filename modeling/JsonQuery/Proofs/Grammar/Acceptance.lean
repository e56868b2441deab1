import JsonQuery.Proofs.Grammar.Completeness

namespace JsonQuery
open Token (Kind kinds)

-- Whatever opens a level is a token of its own, so that no tree is deeper than its spelling is
-- long. The induction is on the tree, together with its lists.
mutual

theorem Selector.depth_le_length : ∀ {s : Selector} {ks : List Kind}, s.Spells ks →
    s.depth ≤ ks.length
  | .name _, _, _ | .wildcard, _, _ | .index _, _, _ | .slice _ _ _, _, _ => Nat.zero_le _
  | .filter _, _, ⟨_, rfl, he⟩ => Nat.succ_le_succ (Expr.depth_le_length he)

theorem Selector.maxDepth_tail_le_length : ∀ {ss : List Selector} {ks : List Kind},
    Selector.SpellsTail ss ks → Selector.maxDepth ss ≤ ks.length
  | [], _, _ => Nat.zero_le _
  | _ :: _, _, ⟨_, _, rfl, hs, hss⟩ => by
    have hfirst := Selector.depth_le_length hs
    have hothers := Selector.maxDepth_tail_le_length hss
    simp only [Selector.maxDepth, List.length_append, List.length_cons]
    omega

theorem Selector.maxDepth_le_length : ∀ {ss : List Selector} {ks : List Kind},
    Selector.SpellsAll ss ks → Selector.maxDepth ss ≤ ks.length
  | [], _, h => h.elim
  | _ :: _, _, ⟨_, _, rfl, hs, hss⟩ => by
    have hfirst := Selector.depth_le_length hs
    have hothers := Selector.maxDepth_tail_le_length hss
    simp only [Selector.maxDepth, List.length_append]
    omega

theorem Segment.depth_le_length : ∀ {s : Segment} {ks : List Kind}, s.Spells ks →
    s.depth ≤ ks.length
  | .child _, _, .inl ⟨s, _, rfl, hs, rfl⟩ | .descendant _, _, .inl ⟨s, _, rfl, hs, rfl⟩ => by
    cases s <;> first | exact Nat.zero_le _ | exact hs.elim
  | .child _, _, .inr ⟨_, rfl, hss⟩ | .descendant _, _, .inr ⟨_, rfl, hss⟩ => by
    have hinner := Selector.maxDepth_le_length hss
    simp only [Segment.depth, List.length_append, List.length_cons]
    omega

theorem Segment.maxDepth_le_length : ∀ {ss : List Segment} {ks : List Kind},
    Segment.SpellsAll ss ks → Segment.maxDepth ss ≤ ks.length
  | [], _, _ => Nat.zero_le _
  | _ :: _, _, ⟨_, _, rfl, hs, hss⟩ => by
    have hfirst := Segment.depth_le_length hs
    have hothers := Segment.maxDepth_le_length hss
    simp only [Segment.maxDepth, List.length_append]
    omega

theorem Expr.depth_le_length : ∀ {e : Expr} {l : Level} {ks : List Kind}, e.Spells l ks →
    e.depth ≤ ks.length
  | .logical _ _ _, _, _, ⟨_, _, _, rfl, ha, hb⟩ | .compare _ _ _, _, _, ⟨_, _, _, rfl, ha, hb⟩ => by
    have hleft := Expr.depth_le_length ha
    have hright := Expr.depth_le_length hb
    simp only [Expr.depth, List.length_append, List.length_cons]
    omega
  | .not a, _, _, ⟨_, _, rfl, ha⟩ => by
    have hinner : a.depth ≤ _ := Expr.depth_le_length ha
    exact Nat.le_succ_of_le hinner
  | .paren _, _, _, ⟨_, _, rfl, ha⟩ => by
    have hinner := Expr.depth_le_length ha
    simp only [Expr.depth, List.length_append, List.length_cons]
    omega
  | .exists _ _, _, _, ⟨_, rfl, hss⟩ | .query _ _, _, _, ⟨_, rfl, hss⟩ =>
    Nat.le_succ_of_le (Segment.maxDepth_le_length hss)
  | .call _ _, _, _, ⟨_, rfl, hes⟩ => by
    have hinner := Expr.maxDepth_le_length hes
    simp only [Expr.depth, List.length_append, List.length_cons]
    omega
  | .literal _, _, _, _ => Nat.zero_le _

theorem Expr.maxDepth_tail_le_length : ∀ {es : List Expr} {ks : List Kind},
    Expr.SpellsTail es ks → Expr.maxDepth es ≤ ks.length
  | [], _, _ => Nat.zero_le _
  | _ :: _, _, ⟨_, _, rfl, he, hes⟩ => by
    have hfirst := Expr.depth_le_length he
    have hothers := Expr.maxDepth_tail_le_length hes
    simp only [Expr.maxDepth, List.length_append, List.length_cons]
    omega

theorem Expr.maxDepth_le_length : ∀ {es : List Expr} {ks : List Kind},
    Expr.SpellsAll es ks → Expr.maxDepth es ≤ ks.length
  | [], _, _ => Nat.zero_le _
  | _ :: _, _, ⟨_, _, rfl, he, hes⟩ => by
    have hfirst := Expr.depth_le_length he
    have hothers := Expr.maxDepth_tail_le_length hes
    simp only [Expr.maxDepth, List.length_append]
    omega

end

namespace Query

theorem depth_le_length {q : Query} {ks : List Kind} (h : q.Spells ks) : q.depth ≤ ks.length := by
  obtain ⟨path, rfl, hss⟩ := h
  exact Nat.le_succ_of_le (Segment.maxDepth_le_length hss)

end Query

namespace Grammar

/-- Where at least as many levels are allowed as there are tokens, tokens are read as a query just
if they spell it and it is well typed. So no tokens spell two well typed queries. -/
theorem query_eq_ok_iff {g : Grammar} {ts : List Token} (h : ts.length ≤ g.maxDepth) (q : Query) :
    g.query ts = .ok q ↔ q.Spells (kinds ts) ∧ q.WellTyped g.registry := by
  constructor
  · intro hq
    obtain ⟨hspells, htyped, -⟩ := query_sound hq
    exact ⟨hspells, htyped⟩
  · intro hright
    rcases hright with ⟨hspells, htyped⟩
    have hdepth : q.depth ≤ ts.length := by
      simpa [kinds] using Query.depth_le_length hspells
    exact query_complete hspells htyped (Nat.le_trans hdepth h)

/-- `$[?@||@&&!@]`: `&&` binds more than `||`, and `!` more than both. -/
theorem query_eq_ok_iff_precedence :
    (Grammar.mk .empty 128 12).query [⟨.root, 0⟩, ⟨.openBracket, 1⟩, ⟨.question, 2⟩,
      ⟨.current, 3⟩, ⟨.logical .or, 4⟩, ⟨.current, 6⟩, ⟨.logical .and, 7⟩, ⟨.not, 9⟩,
      ⟨.current, 10⟩, ⟨.closeBracket, 11⟩] =
    .ok ⟨[.child [.filter (.logical .or (.exists .current []) (.logical .and (.exists .current [])
      (.not (.exists .current []))))]]⟩ := by
  have here (l : Level) : (Expr.exists .current []).Spells l [.current] := ⟨[], rfl, rfl⟩
  have htest : (Expr.logical .or (.exists .current []) (.logical .and (.exists .current [])
      (.not (.exists .current [])))).Spells .disjunction
        [.current, .logical .or, .current, .logical .and, .not, .current] :=
    ⟨by decide, [_], _, rfl, here _, by decide, [_], _, rfl, here _, by decide, _, rfl, here _⟩
  refine (query_eq_ok_iff (by decide) _).mpr ⟨?_, ?_⟩
  · exact ⟨_, rfl, _, [], rfl, .inr ⟨_, rfl, _, [], rfl, ⟨_, rfl, htest⟩, rfl⟩, rfl⟩
  · simp [Query.WellTyped, Segment.AllWellTyped, Segment.WellTyped, Selector.AllWellTyped,
      Selector.WellTyped, Expr.HasType]

end Grammar
end JsonQuery
