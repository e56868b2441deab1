import JsonQuery.Proofs.Evaluation.Routes

namespace JsonQuery

-- What evaluation does and what it is said to do, constructor by constructor.
attribute [local simp] Selector.Selects Selector.SelectsAt Segment.Admits Segment.Routes Expr.Holds
  Expr.HasValue Expr.Given
attribute [local simp] Selector.select Selector.selectAll Segment.apply Segment.applyAll Expr.holds
  Expr.value? Expr.arguments

section Selectors

variable {document : Json} {n : Node}

theorem child?_name {m : Node} {name : String} (h : n.child? (.name name) = some m) :
    ∃ members, n.value = .object members := by
  obtain ⟨v, hv, -⟩ := Option.map_eq_some_iff.mp h
  cases hn : n.value with
  | object members => exact ⟨members, rfl⟩
  | null | bool _ | number _ | string _ | array _ => simp [hn, Json.child?] at hv

theorem child?_index {m : Node} {items : List Json} (hn : n.value = .array items) {k : Nat}
    (h : n.child? (.index k) = some m) : k < items.length := by
  obtain ⟨v, hv, -⟩ := Option.map_eq_some_iff.mp h
  simp only [hn, Json.child?] at hv
  exact (List.getElem?_eq_some_iff.mp hv).1

theorem place?_eq_some {i : Int} {length k : Nat} :
    Selector.place? i length = some k ↔ (k : Int) = Selector.normalized length i ∧ k < length := by
  unfold Selector.place? Selector.normalized
  simp only
  split <;> split <;> split <;> simp only [Option.some.injEq, reduceCtorEq, false_iff] <;> omega

/-- A selector picks each child that it selects once. -/
def Selector.Picks (document : Json) (s : Selector) : Prop :=
  ∀ n : Node, n.value.UniqueNames → Enumerates (s.select document n)
    (fun step m => n.child? step = some m ∧ s.Selects document n step)

theorem picks_name (name : String) : (Selector.name name).Picks document := by
  intro n _
  rw [Selector.select]
  refine (Enumerates.toList _ (Step.name name)).congr (fun step m => ?_)
  rw [Selector.Selects]
  constructor
  · intro hleft
    rcases hleft with ⟨rfl, hm⟩
    exact ⟨hm, child?_name hm, rfl⟩
  · intro hright
    rcases hright with ⟨hm, -, rfl⟩
    exact ⟨rfl, hm⟩

theorem picks_wildcard : Selector.wildcard.Picks document := by
  intro n hn
  rw [Selector.select]
  exact (Node.enumerates_children hn).congr (fun step m => by simp)

theorem picks_index (i : Int) : (Selector.index i).Picks document := by
  intro n _
  rw [Selector.select]
  split
  · rename_i items hn
    have hplace (k : Nat) {m : Node} (hm : n.child? (.index k) = some m) :
        Selector.place? i items.length = some k ↔
          (k : Int) = Selector.normalized items.length i := by
      rw [place?_eq_some]
      exact and_iff_left (child?_index hn hm)
    cases hp : Selector.place? i items.length with
    | none =>
      refine Enumerates.nil.congr (fun step m => ?_)
      simp only [Selector.Selects, false_iff, hn]
      rintro ⟨hm, _, hitems, k, rfl, hk⟩
      cases hitems
      rw [← hplace k hm, hp] at hk
      cases hk
    | some k =>
      refine (Enumerates.toList _ (Step.index k)).congr (fun step m => ?_)
      simp only [Selector.Selects, hn]
      constructor
      · intro hleft
        rcases hleft with ⟨rfl, hm⟩
        exact ⟨hm, items, rfl, k, rfl, (hplace k hm).mp hp⟩
      · intro hright
        rcases hright with ⟨hm, _, hitems, j, rfl, hj⟩
        cases hitems
        rw [← hplace j hm, hp] at hj
        cases hj
        exact ⟨rfl, hm⟩
  · rename_i hn
    refine Enumerates.nil.congr (fun step m => ?_)
    simp only [Selector.Selects, false_iff, not_and, not_exists]
    exact fun _ items hitems => absurd hitems (hn items)

theorem picks_slice (start stop stride : Option Int) :
    (Selector.slice start stop stride).Picks document := by
  intro n _
  rw [Selector.select]
  split
  · rename_i items hn
    obtain ⟨hnodup, hmem⟩ := Selector.places_spec start stop stride items.length
    have hindex : Function.Injective Step.index := fun _ _ => Step.index.inj
    have hall := (Enumerates.filterMap hnodup (fun k => n.child? (.index k))).map_index hindex
    refine hall.congr (fun step m => ?_)
    simp only [Selector.Selects, hn]
    constructor
    · intro hleft
      rcases hleft with ⟨k, rfl, hk, hm⟩
      exact ⟨hm, items, rfl, k, rfl, (hmem k).mp hk⟩
    · intro hright
      rcases hright with ⟨hm, _, hitems, k, rfl, hk⟩
      cases hitems
      exact ⟨k, rfl, (hmem k).mpr hk, hm⟩
  · rename_i hn
    refine Enumerates.nil.congr (fun step m => ?_)
    simp only [Selector.Selects, false_iff, not_and, not_exists]
    exact fun _ items hitems => absurd hitems (hn items)

theorem picks_filter {e : Expr} (h : ∀ m : Node, m.value.UniqueNames →
    (e.holds document m = true ↔ e.Holds document m)) : (Selector.filter e).Picks document := by
  intro n hn
  rw [Selector.select]
  refine ((Node.enumerates_children hn).filter _).congr (fun step m => ?_)
  rw [Selector.Selects]
  constructor
  · intro hleft
    rcases hleft with ⟨hm, he⟩
    exact ⟨hm, m, hm, (h m (Node.uniqueNames_child hn hm)).mp he⟩
  · intro hright
    rcases hright with ⟨hm, m', hm', he⟩
    cases hm.symm.trans hm'
    exact ⟨hm, (h m (Node.uniqueNames_child hn hm)).mpr he⟩

/-- Each selector of a segment picks on its own: a child that two of them select stands in the
list twice. -/
theorem picks_all {ss : List Selector} (h : ∀ s ∈ ss, s.Picks document)
    (hn : n.value.UniqueNames) : Enumerates (Selector.selectAll document n ss)
      (fun (p : Step × Nat) m => n.child? p.1 = some m ∧
        Selector.SelectsAt document n p.1 ss p.2) := by
  induction ss with
  | nil =>
    rw [Selector.selectAll]
    exact Enumerates.nil.congr (fun p m => by simp)
  | cons s ss ih =>
    have hfirst := h s (by simp) n hn
    have hrest := ih (fun t ht => h t (List.mem_cons_of_mem s ht))
    have hpositions : Function.Injective
        (Sum.elim (fun step => (step, 0)) (fun p => (p.1, p.2 + 1)) :
          Step ⊕ (Step × Nat) → Step × Nat) := by
      rintro (step | ⟨step, k⟩) (step' | ⟨step', k'⟩) heq <;> simp_all
    rw [Selector.selectAll]
    refine ((hfirst.append hrest).map_index hpositions).congr (fun p m => ?_)
    constructor
    · intro hleft
      rcases hleft with ⟨step | ⟨step, k⟩, rfl, hm⟩
      · exact hm
      · exact hm
    · obtain ⟨step, k⟩ := p
      cases k with
      | zero => exact fun hm => ⟨.inl step, rfl, hm⟩
      | succ k => exact fun hm => ⟨.inr (step, k), rfl, hm⟩

end Selectors

section Segments

variable {document : Json} {n : Node}

/-- A segment reaches each node once by each of its legs. -/
def Segment.Reaches (document : Json) (s : Segment) : Prop :=
  ∀ n : Node, n.value.UniqueNames → Enumerates (s.apply document n)
    (fun leg m => s.Admits document n leg ∧ n.follow leg.steps = some m)

theorem reaches_child {ss : List Selector} (h : ∀ s ∈ ss, s.Picks document) :
    (Segment.child ss).Reaches document := by
  intro n hn
  have hlegs : Function.Injective (fun (p : Step × Nat) => Leg.mk [] p.1 p.2) := by
    rintro ⟨step, k⟩ ⟨step', k'⟩ heq
    simpa using heq
  rw [Segment.apply]
  refine ((picks_all h hn).map_index hlegs).congr (fun leg m => ?_)
  simp only [Segment.Admits, Leg.steps]
  constructor
  · intro hleft
    rcases hleft with ⟨⟨step, k⟩, rfl, hm, hk⟩
    exact ⟨⟨rfl, hk⟩, (n.follow_singleton step).trans hm⟩
  · obtain ⟨front, last, k⟩ := leg
    rintro ⟨⟨rfl, hk⟩, hm⟩
    exact ⟨(last, k), rfl, (n.follow_singleton last).symm.trans hm, hk⟩

theorem reaches_descendant {ss : List Selector} (h : ∀ s ∈ ss, s.Picks document) :
    (Segment.descendant ss).Reaches document := by
  intro n hn
  have hlegs : Function.Injective (fun (p : Location × Step × Nat) => Leg.mk p.1 p.2.1 p.2.2) := by
    rintro ⟨front, step, k⟩ ⟨front', step', k'⟩ heq
    simpa using heq
  have hall := (Node.enumerates_subtree hn).flatMap (fun container hcontainer => by
    obtain ⟨front, hfront⟩ := (Node.enumerates_subtree hn).mem_iff.mp hcontainer
    exact picks_all h (Node.uniqueNames_follow hn hfront))
  rw [Segment.apply]
  refine (hall.map_index hlegs).congr (fun leg m => ?_)
  simp only [Segment.Admits, Leg.steps, Node.follow_concat]
  constructor
  · intro hleft
    rcases hleft with ⟨⟨front, step, k⟩, rfl, container, hfront, hm, hk⟩
    exact ⟨⟨container, hfront, hk⟩, by rw [hfront]; exact hm⟩
  · obtain ⟨front, last, k⟩ := leg
    rintro ⟨⟨container, hfront, hk⟩, hm⟩
    rw [hfront] at hm
    exact ⟨(front, last, k), rfl, container, hfront, hm, hk⟩

theorem applyAll_eq (document : Json) (ns : List Node) (ss : List Segment) :
    Segment.applyAll document ns ss = ns.flatMap (fun n => Segment.applyAll document [n] ss) := by
  induction ss generalizing ns with
  | nil => simp
  | cons s ss ih =>
    simp only [Segment.applyAll]
    rw [ih]
    simp only [List.flatMap_assoc, List.flatMap_cons, List.flatMap_nil, List.append_nil]
    exact List.flatMap_congr (fun n _ => (ih (s.apply document n)).symm)

/-- A route has an end in the document. -/
theorem follow_of_routes {ss : List Segment} {route : Route}
    (h : Segment.Routes document n ss route) : ∃ m, n.follow route.location = some m := by
  induction ss generalizing n route with
  | nil =>
    rw [Segment.Routes] at h
    subst h
    exact ⟨n, n.follow_nil⟩
  | cons s ss ih =>
    obtain ⟨leg, rest, m, rfl, -, hm, hrest⟩ := h
    obtain ⟨m', hm'⟩ := ih hrest
    refine ⟨m', ?_⟩
    rw [Route.location_cons, Node.follow_append, hm]
    exact hm'

/-- The segments of a query reach each node once by each of its routes. -/
def Segment.ReachAll (document : Json) (ss : List Segment) : Prop :=
  ∀ n : Node, n.value.UniqueNames → Enumerates (Segment.applyAll document [n] ss)
    (fun route m => Segment.Routes document n ss route ∧ n.follow route.location = some m)

theorem reachAll {ss : List Segment} (h : ∀ s ∈ ss, s.Reaches document) :
    Segment.ReachAll document ss := by
  induction ss with
  | nil =>
    intro n _
    rw [Segment.applyAll]
    refine (Enumerates.toList (some n) ([] : Route)).congr (fun route m => ?_)
    rw [Segment.Routes]
    constructor
    · intro hleft
      rcases hleft with ⟨rfl, hm⟩
      exact ⟨rfl, n.follow_nil.trans hm⟩
    · intro hright
      rcases hright with ⟨rfl, hm⟩
      exact ⟨rfl, n.follow_nil.symm.trans hm⟩
  | cons s ss ih =>
    intro n hn
    have hfirst := h s (by simp) n hn
    have hrest := ih (fun t ht => h t (List.mem_cons_of_mem s ht))
    have hroutes : Function.Injective (fun (p : Leg × Route) => (p.1 :: p.2 : Route)) := by
      rintro ⟨leg, rest⟩ ⟨leg', rest'⟩ heq
      simpa using heq
    have hall := hfirst.flatMap (fun m hm => by
      obtain ⟨leg, -, hleg⟩ := hfirst.mem_iff.mp hm
      exact hrest m (Node.uniqueNames_follow hn hleg))
    rw [Segment.applyAll, List.flatMap_singleton, applyAll_eq]
    refine (hall.map_index hroutes).congr (fun route m => ?_)
    rw [Segment.Routes]
    constructor
    · intro hleft
      rcases hleft with ⟨⟨leg, rest⟩, rfl, m', ⟨hs, hleg⟩, hss, hm⟩
      refine ⟨⟨leg, rest, m', rfl, hs, hleg, hss⟩, ?_⟩
      rw [Route.location_cons, Node.follow_append, hleg]
      exact hm
    · intro hright
      rcases hright with ⟨⟨leg, rest, m', rfl, hs, hleg, hss⟩, hm⟩
      rw [Route.location_cons, Node.follow_append, hleg] at hm
      exact ⟨(leg, rest), rfl, m', ⟨hs, hleg⟩, hss, hm⟩

end Segments

section Tests

variable {document : Json} {n : Node} {ss : List Segment}

theorem exists_iff_routes (h : Segment.ReachAll document ss) (hn : n.value.UniqueNames) :
    (!(Segment.applyAll document [n] ss).isEmpty) = true ↔
      ∃ route, Segment.Routes document n ss route := by
  rw [Bool.not_eq_true', List.isEmpty_eq_false_iff_exists_mem]
  simp only [(h n hn).mem_iff]
  constructor
  · intro hleft
    rcases hleft with ⟨m, route, hroute, -⟩
    exact ⟨route, hroute⟩
  · intro hright
    rcases hright with ⟨route, hroute⟩
    obtain ⟨m, hm⟩ := follow_of_routes hroute
    exact ⟨m, route, hroute, hm⟩

theorem only?_eq_some {ns : List Node} {m : Node} : Node.only? ns = some m ↔ ns = [m] := by
  unfold Node.only?
  split <;> simp_all

theorem only?_iff_routes (h : Segment.ReachAll document ss) (hn : n.value.UniqueNames) {m : Node} :
    Node.only? (Segment.applyAll document [n] ss) = some m ↔
      ∃ route, (∀ r, Segment.Routes document n ss r ↔ r = route) ∧
        n.follow route.location = some m := by
  rw [only?_eq_some, (h n hn).eq_singleton_iff]
  constructor
  · intro hleft
    rcases hleft with ⟨route, ⟨hroute, hm⟩, honly⟩
    refine ⟨route, fun r => ⟨fun hr => ?_, fun hr => hr ▸ hroute⟩, hm⟩
    obtain ⟨m', hm'⟩ := follow_of_routes hr
    exact honly r m' ⟨hr, hm'⟩
  · intro hright
    rcases hright with ⟨route, honly, hm⟩
    exact ⟨route, ⟨(honly route).mpr rfl, hm⟩, fun r m' hr => (honly r).mp hr.1⟩

/-- The value of a query in an operand. -/
theorem value_iff_routes (h : Segment.ReachAll document ss) (hn : n.value.UniqueNames)
    {w : Option Json} :
    (∃ route m, (∀ r, Segment.Routes document n ss r ↔ r = route) ∧
        n.follow route.location = some m ∧ w = some m.value) ∨
      (¬ ∃ route, ∀ r, Segment.Routes document n ss r ↔ r = route) ∧ w = none ↔
    (Node.only? (Segment.applyAll document [n] ss)).map Node.value = w := by
  cases hnode : Node.only? (Segment.applyAll document [n] ss) with
  | some m =>
    obtain ⟨route, honly, hm⟩ := (only?_iff_routes h hn).mp hnode
    constructor
    · intro hleft
      rcases hleft with ⟨route', m', honly', hm', rfl⟩ | ⟨hnone, -⟩
      · obtain rfl := (honly route').mp ((honly' route').mpr rfl)
        rw [hm] at hm'
        cases hm'
        rfl
      · exact absurd ⟨route, honly⟩ hnone
    · rintro rfl
      exact .inl ⟨route, m, honly, hm, rfl⟩
  | none =>
    have hnone : ¬ ∃ route, ∀ r, Segment.Routes document n ss r ↔ r = route := by
      rintro ⟨route, honly⟩
      obtain ⟨m, hm⟩ := follow_of_routes ((honly route).mpr rfl)
      have := (only?_iff_routes h hn).mpr ⟨route, honly, hm⟩
      rw [hnode] at this
      cases this
    constructor
    · intro hleft
      rcases hleft with ⟨route, m, honly, -⟩ | ⟨-, rfl⟩
      · exact absurd ⟨route, honly⟩ hnone
      · rfl
    · rintro rfl
      exact .inr ⟨hnone, rfl⟩

/-- Evaluation decides whether a test holds, and finds the value of an operand. -/
structure Expr.Agrees (document : Json) (e : Expr) : Prop where
  holds : ∀ n : Node, n.value.UniqueNames → (e.holds document n = true ↔ e.Holds document n)
  value : ∀ n : Node, n.value.UniqueNames → ∀ w, e.HasValue document n w ↔ e.value? document n = w

theorem uniqueNames_anchor (hd : document.UniqueNames) (hn : n.value.UniqueNames)
    (anchor : Anchor) : (anchor.node document n).value.UniqueNames := by
  cases anchor with
  | root => exact hd
  | current => exact hn

theorem agrees_logical {op : LogicalOp} {a b : Expr} (ha : a.Agrees document)
    (hb : b.Agrees document) : (Expr.logical op a b).Agrees document where
  holds n hn := by
    cases op <;> simp [ha.holds n hn, hb.holds n hn]
  value n hn w := by simp [eq_comm]

theorem agrees_not {a : Expr} (ha : a.Agrees document) : (Expr.not a).Agrees document where
  holds n hn := by simp [← ha.holds n hn]
  value n hn w := by simp [eq_comm]

theorem agrees_paren {a : Expr} (ha : a.Agrees document) : (Expr.paren a).Agrees document where
  holds n hn := by simp [ha.holds n hn]
  value n hn w := by simp [eq_comm]

theorem agrees_compare {op : ComparisonOp} {a b : Expr} (ha : a.Agrees document)
    (hb : b.Agrees document) : (Expr.compare op a b).Agrees document where
  holds n hn := by simp [ha.value n hn, hb.value n hn]
  value n hn w := by simp [eq_comm]

theorem agrees_literal (v : Json) : (Expr.literal v).Agrees document where
  holds n hn := by simp
  value n hn w := by simp [eq_comm]

theorem agrees_exists (hd : document.UniqueNames) (h : Segment.ReachAll document ss)
    (anchor : Anchor) : (Expr.exists anchor ss).Agrees document where
  holds n hn := by
    have := exists_iff_routes h (uniqueNames_anchor hd hn anchor)
    cases anchor <;> simpa only [Expr.holds, Expr.Holds, Anchor.node] using this
  value n hn w := by simp [eq_comm]

theorem agrees_query (hd : document.UniqueNames) (h : Segment.ReachAll document ss)
    (anchor : Anchor) : (Expr.query anchor ss).Agrees document where
  holds n hn := by
    have := exists_iff_routes h (uniqueNames_anchor hd hn anchor)
    cases anchor <;> simpa only [Expr.holds, Expr.Holds, Anchor.node] using this
  value n hn w := by
    have := value_iff_routes h (uniqueNames_anchor hd hn anchor) (w := w)
    cases anchor <;> simpa only [Expr.value?, Expr.HasValue, Anchor.node] using this

theorem given_iff {es : List Expr} (h : ∀ e ∈ es, e.Agrees document)
    (hn : n.value.UniqueNames) (ts : List ExprType) (vs : List TypedValue) :
    Expr.Given document n es ts vs ↔ Expr.arguments document n es ts = vs := by
  induction es generalizing ts vs with
  | nil => simp [eq_comm]
  | cons e es ih =>
    have he := h e (by simp)
    have hes := ih (fun e' he' => h e' (List.mem_cons_of_mem e he'))
    match ts with
    | [] => simp [eq_comm]
    | .value :: ts =>
      simp [hes, he.value n hn, eq_comm]
    | .logical :: ts =>
      simp only [Expr.Given, Expr.arguments, hes, ← he.holds n hn, ← Bool.eq_iff_iff]
      constructor
      · intro hleft
        rcases hleft with ⟨_, _, rfl, rfl, rfl⟩
        rfl
      · rintro rfl
        exact ⟨_, _, rfl, rfl, rfl⟩
    | .nodes :: ts => simp [hes, eq_comm]

theorem agrees_call {f : Extension} {args : List Expr} (h : ∀ e ∈ args, e.Agrees document) :
    (Expr.call f args).Agrees document where
  holds n hn := by
    simp only [Expr.holds, Expr.Holds, given_iff h hn, exists_eq_left']
    cases f.apply (Expr.arguments document n args f.params) with
    | value v => simp [TypedValue.Holds]
    | logical b => simp [TypedValue.Holds]
    | nodes ns => cases ns <;> simp [TypedValue.Holds]
  value n hn w := by
    simp only [Expr.value?, Expr.HasValue, given_iff h hn, exists_eq_left']
    exact eq_comm

end Tests

section Trees

variable {document : Json}

mutual

theorem selector_picks (hd : document.UniqueNames) : ∀ s : Selector, s.Picks document
  | .name name => picks_name name
  | .wildcard => picks_wildcard
  | .index i => picks_index i
  | .slice start stop stride => picks_slice start stop stride
  | .filter e => picks_filter (expr_agrees hd e).holds

theorem selectors_pick (hd : document.UniqueNames) :
    ∀ ss : List Selector, ∀ s ∈ ss, s.Picks document
  | [] => by simp
  | s :: ss => List.forall_mem_cons.mpr ⟨selector_picks hd s, selectors_pick hd ss⟩

theorem segment_reaches (hd : document.UniqueNames) : ∀ s : Segment, s.Reaches document
  | .child ss => reaches_child (selectors_pick hd ss)
  | .descendant ss => reaches_descendant (selectors_pick hd ss)

theorem segments_reach (hd : document.UniqueNames) :
    ∀ ss : List Segment, ∀ s ∈ ss, s.Reaches document
  | [] => by simp
  | s :: ss => List.forall_mem_cons.mpr ⟨segment_reaches hd s, segments_reach hd ss⟩

theorem expr_agrees (hd : document.UniqueNames) : ∀ e : Expr, e.Agrees document
  | .logical _ a b => agrees_logical (expr_agrees hd a) (expr_agrees hd b)
  | .not a => agrees_not (expr_agrees hd a)
  | .paren a => agrees_paren (expr_agrees hd a)
  | .compare _ a b => agrees_compare (expr_agrees hd a) (expr_agrees hd b)
  | .exists anchor ss => agrees_exists hd (reachAll (segments_reach hd ss)) anchor
  | .query anchor ss => agrees_query hd (reachAll (segments_reach hd ss)) anchor
  | .call _ args => agrees_call (exprs_agree hd args)
  | .literal v => agrees_literal v

theorem exprs_agree (hd : document.UniqueNames) : ∀ es : List Expr, ∀ e ∈ es, e.Agrees document
  | [] => by simp
  | e :: es => List.forall_mem_cons.mpr ⟨expr_agrees hd e, exprs_agree hd es⟩

end

end Trees

namespace Query

/-- Evaluation lists a node for each route of the query, the one at its end. -/
theorem evaluate_enumerates (q : Query) {document : Json} (hd : document.UniqueNames) :
    Enumerates (q.evaluate document) (fun route m =>
      Segment.Routes document (.root document) q.segments route ∧
        (Node.root document).follow route.location = some m) :=
  reachAll (segments_reach hd q.segments) (.root document) hd

theorem at_of_follow {document : Json} {l : Location} {m : Node}
    (h : (Node.root document).follow l = some m) :
    m.location = l ∧ document.at? m.location = some m.value := by
  obtain ⟨v, hv, rfl⟩ := Option.map_eq_some_iff.mp h
  exact ⟨rfl, hv⟩

/-- A result has the value that the document has at its place. -/
theorem at_of_mem_evaluate {q : Query} {document : Json} (hd : document.UniqueNames) {n : Node}
    (hn : n ∈ q.evaluate document) : document.at? n.location = some n.value := by
  obtain ⟨route, -, hm⟩ := (q.evaluate_enumerates hd).mem_iff.mp hn
  exact (at_of_follow hm).2

/-- A place stands among the results as often as there are ways to reach it: it is cut into as
many parts as the query has segments, and each part ends where one of the segment's selectors
picks a child. -/
theorem evaluate_count (q : Query) {document : Json} (hd : document.UniqueNames) :
    (∀ l, (((q.evaluate document).map Node.location).count l : ℕ∞) =
      (q.Routes document l).encard) ∧
    ∀ n ∈ q.evaluate document, document.at? n.location = some n.value := by
  refine ⟨fun l => ?_, fun n hn => at_of_mem_evaluate hd hn⟩
  rw [((q.evaluate_enumerates hd).map Node.location).count_eq l]
  congr 1
  ext route
  simp only [Routes, Set.mem_ofPred_eq]
  constructor
  · intro hleft
    rcases hleft with ⟨m, ⟨hroute, hm⟩, rfl⟩
    exact ⟨hroute, (at_of_follow hm).1.symm⟩
  · intro hright
    rcases hright with ⟨hroute, rfl⟩
    obtain ⟨m, hm⟩ := follow_of_routes hroute
    exact ⟨m, ⟨hroute, hm⟩, (at_of_follow hm).1⟩

/-- An inner member that two selectors both select. -/
theorem evaluate_count_overlapping :
    (Query.Routes (.object [("a", .object [("a", .null)])]) ⟨[.descendant [.wildcard, .name "a"]]⟩
      [.name "a", .name "a"]).encard = 2 := by
  have hd : (Json.object [("a", .object [("a", .null)])]).UniqueNames := by
    simp [Json.UniqueNames, Json.UniqueMembers]
  rw [← (evaluate_count _ hd).1]
  rfl

end Query
end JsonQuery
