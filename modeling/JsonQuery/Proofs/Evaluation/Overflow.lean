import JsonQuery.Proofs.Evaluation.NormalizedPath
import JsonQuery.Proofs.Evaluation.Word
import JsonQuery.Proofs.Query.Compile

namespace JsonQuery

/-- What gives `y`, or stops where `p` does not hold. -/
def Yields {α : Type} (p : Prop) (x : Option α) (y : α) : Prop := x = some y ∨ x = none ∧ ¬ p

namespace Yields

variable {α β : Type} {p q : Prop} {x : Option α} {y : α}

theorem pure (p : Prop) (y : α) : Yields p (some y) y := .inl rfl

theorem bind {f : α → Option β} {z : β} (hx : Yields p x y) (hf : Yields p (f y) z) :
    Yields p (x >>= f) z := by
  rcases hx with rfl | ⟨rfl, hp⟩
  · exact hf
  · exact .inr ⟨rfl, hp⟩

theorem map (hx : Yields p x y) (f : α → β) : Yields p (x.map f) (f y) := by
  rcases hx with rfl | ⟨rfl, hp⟩
  · exact .inl rfl
  · exact .inr ⟨rfl, hp⟩

theorem of_some (h : ∀ z, x = some z → z = y) (hp : p → x = some y) : Yields p x y := by
  cases x with
  | none => exact .inr ⟨rfl, fun h => nomatch hp h⟩
  | some z => exact .inl (congrArg some (h z rfl))

theorem eq_some (hx : Yields p x y) (hp : p) : x = some y := by
  rcases hx with hx | ⟨-, hnot⟩
  · exact hx
  · exact absurd hp hnot

theorem eq_of_some (hx : Yields p x y) {z : α} (hz : x = some z) : z = y := by
  rcases hx with hx | ⟨hx, -⟩
  · exact Option.some.inj (hz.symm.trans hx)
  · simp [hx] at hz

theorem mono (hx : Yields q x y) (h : p → q) : Yields p x y := hx.imp_right (And.imp_right (mt h))

theorem mapM {f : α → Option β} {g : α → β} {xs : List α}
    (h : ∀ a ∈ xs, Yields p (f a) (g a)) : Yields p (xs.mapM f) (xs.map g) := by
  induction xs with
  | nil => exact .pure p []
  | cons a xs ih =>
    rw [List.mapM_cons]
    obtain ⟨ha, hxs⟩ := List.forall_mem_cons.mp h
    exact ha.bind ((ih hxs).bind (.pure p _))

theorem mapM_of_isSome {f : α → Option β} {xs : List α} (h : ∀ a ∈ xs, (f a).isSome) :
    xs.mapM f = some (xs.filterMap f) := by
  induction xs with
  | nil => rfl
  | cons a xs ih =>
    obtain ⟨ha, hxs⟩ := List.forall_mem_cons.mp h
    obtain ⟨b, hb⟩ := Option.isSome_iff_exists.mp ha
    rw [List.mapM_cons, hb, ih hxs, List.filterMap_cons_some hb]
    rfl

theorem flatten_mapM {f : α → Option (List β)} {g : α → List β} {xs : List α}
    (h : ∀ a ∈ xs, Yields p (f a) (g a)) :
    Yields p (do return (← xs.mapM f).flatten) (xs.flatMap g) := by
  rw [List.flatMap_def]
  exact (mapM h).bind (.pure p _)

theorem filterM {f : α → Option Bool} {g : α → Bool} {xs : List α}
    (h : ∀ a ∈ xs, Yields p (f a) (g a)) : Yields p (xs.filterM f) (xs.filter g) := by
  have haux (kept : List α) :
      Yields p (List.filterAuxM f xs kept) ((xs.filter g).reverse ++ kept) := by
    induction xs generalizing kept with
    | nil => exact .pure p _
    | cons a xs ih =>
      obtain ⟨ha, hxs⟩ := List.forall_mem_cons.mp h
      apply ha.bind
      rw [List.filter_cons]
      cases g a with
      | true => simpa using ih hxs (a :: kept)
      | false => simpa using ih hxs kept
  rw [List.filterM, ← List.reverse_reverse (xs.filter g), ← List.append_nil (xs.filter g).reverse]
  exact (haux []).bind (.pure p _)

end Yields

namespace Selector

/-- The step behind one of the places of a slice leads out of the words. -/
def Overflows (start stop step : Option Int) (length : Nat) : Prop :=
  ∃ k ∈ places start stop step length, 2 ^ 63 ≤ k + step.getD 1

instance (start stop step : Option Int) (length : Nat) :
    Decidable (Overflows start stop step length) :=
  inferInstanceAs (Decidable (∃ k ∈ places start stop step length, 2 ^ 63 ≤ k + step.getD 1))

end Selector

namespace Word

variable {start stop step : Option Int} {length : Nat}

theorem place?_yields (i : Int) (length : Nat) :
    Yields (length < 2 ^ 62 ∧ Holds i) (place? i length) (Selector.place? i length) := by
  apply Yields.of_some
  · intro found h
    exact eq_place_of_place? h
  · intro h
    exact place?_eq h.1 h.2

/-- A slice in words that keeps to them in an array of this length. -/
structure SliceFits (start stop step : Option Int) (length : Nat) : Prop where
  length_lt : length < 2 ^ 62
  start_holds : ∀ i ∈ start, Holds i
  stop_holds : ∀ i ∈ stop, Holds i
  step_holds : ∀ i ∈ step, Holds i
  steps_hold : ¬ Selector.Overflows start stop step length

theorem places?_yields (start stop step : Option Int) (length : Nat) :
    Yields (SliceFits start stop step length) (places? start stop step length)
      (Selector.places start stop step length) := by
  apply Yields.of_some
  · intro ks h
    exact eq_places_of_places? h
  · intro h
    rw [places?_eq h.length_lt h.start_holds h.stop_holds h.step_holds, if_pos]
    intro k hk
    exact Int.not_le.mp (fun hle => h.steps_hold ⟨k, hk, hle⟩)

end Word

mutual

/-- Indices are words, and slices keep to words in arrays up to a length. -/
def Selector.FitsWords (bound : Nat) : Selector → Prop
  | .name _ | .wildcard => True
  | .index i => Word.Holds i
  | .slice start stop step => ∀ length ≤ bound, Word.SliceFits start stop step length
  | .filter e => e.FitsWords bound

def Selector.AllFitWords (bound : Nat) : List Selector → Prop
  | [] => True
  | s :: ss => s.FitsWords bound ∧ Selector.AllFitWords bound ss

def Segment.FitsWords (bound : Nat) : Segment → Prop
  | .child ss | .descendant ss => Selector.AllFitWords bound ss

def Segment.AllFitWords (bound : Nat) : List Segment → Prop
  | [] => True
  | s :: ss => s.FitsWords bound ∧ Segment.AllFitWords bound ss

def Expr.FitsWords (bound : Nat) : Expr → Prop
  | .logical _ a b | .compare _ a b => a.FitsWords bound ∧ b.FitsWords bound
  | .not a | .paren a => a.FitsWords bound
  | .exists _ ss | .query _ ss => Segment.AllFitWords bound ss
  | .call _ args => Expr.AllFitWords bound args
  | .literal _ => True

def Expr.AllFitWords (bound : Nat) : List Expr → Prop
  | [] => True
  | e :: es => e.FitsWords bound ∧ Expr.AllFitWords bound es

end

def Query.FitsWords (bound : Nat) (q : Query) : Prop := Segment.AllFitWords bound q.segments

section Arrays

variable {bound : Nat} {n m : Node}

theorem Node.arraysWithin_children (h : n.value.ArraysWithin bound) (hm : m ∈ n.children) :
    m.value.ArraysWithin bound := by
  obtain ⟨p, hp, rfl⟩ := List.mem_map.mp hm
  exact (Json.arraysWithin_of_mem h hp).1

theorem Node.arraysWithin_subtree {n : Node} (h : n.value.ArraysWithin bound)
    (hm : m ∈ n.subtree) : m.value.ArraysWithin bound := by
  rw [Node.subtree_eq] at hm
  rcases List.mem_cons.mp hm with rfl | hm
  · exact h
  · obtain ⟨c, hc, hm⟩ := List.mem_flatMap.mp hm
    exact arraysWithin_subtree (Node.arraysWithin_children h hc) hm
termination_by sizeOf n.value
decreasing_by exact Node.sizeOf_child hc

theorem Segment.arraysWithin_apply {document : Json} {s : Segment}
    (h : n.value.ArraysWithin bound) (hm : m ∈ s.apply document n) :
    m.value.ArraysWithin bound := by
  cases s with
  | child ss =>
    rw [Segment.apply] at hm
    exact Node.arraysWithin_children h (Selector.selectAll_subset document n ss hm)
  | descendant ss =>
    rw [Segment.apply] at hm
    obtain ⟨c, hc, hm⟩ := List.mem_flatMap.mp hm
    exact Node.arraysWithin_children (Node.arraysWithin_subtree h hc)
      (Selector.selectAll_subset document c ss hm)

end Arrays

section Anchored

variable (document : Json) (n : Node) (anchor : Anchor) (ss : List Segment)

theorem Expr.holds?_exists : (Expr.exists anchor ss).holds? document n =
    (Segment.runAll? document [anchor.node document n] ss).map (!·.isEmpty) := by
  cases anchor <;> rw [Expr.holds?, Option.map_eq_bind] <;> rfl

theorem Expr.holds?_query : (Expr.query anchor ss).holds? document n =
    (Segment.runAll? document [anchor.node document n] ss).map (!·.isEmpty) := by
  cases anchor <;> rw [Expr.holds?, Option.map_eq_bind] <;> rfl

theorem Expr.operand?_query : (Expr.query anchor ss).operand? document n =
    (Segment.runAll? document [anchor.node document n] ss).map
      (fun ns => (Node.only? ns).map Node.value) := by
  cases anchor <;> rw [Expr.operand?, Option.map_eq_bind] <;> rfl

theorem Expr.nodes?_exists : (Expr.exists anchor ss).nodes? document n =
    Segment.runAll? document [anchor.node document n] ss := by
  cases anchor <;> rw [Expr.nodes?] <;> rfl

theorem Expr.nodes?_query : (Expr.query anchor ss).nodes? document n =
    Segment.runAll? document [anchor.node document n] ss := by
  cases anchor <;> rw [Expr.nodes?] <;> rfl

end Anchored

section Evaluation

variable {p : Prop} {bound : Nat} {document : Json}

theorem Node.arraysWithin_anchor {n : Node} (hd : p → document.ArraysWithin bound)
    (hn : p → n.value.ArraysWithin bound) (anchor : Anchor) :
    p → ∀ m ∈ [anchor.node document n], m.value.ArraysWithin bound := by
  intro hp m hm
  rw [List.mem_singleton.mp hm]
  cases anchor with
  | root => exact hd hp
  | current => exact hn hp

theorem Node.child?_item {n : Node} {items : List Json} (hn : n.value = .array items) {k : Nat}
    (hk : k < items.length) :
    n.child? (.index k) = some ⟨items[k], n.location ++ [.index k]⟩ := by
  simp [Node.child?, hn, Json.child?, hk]

theorem Selector.select?_index (n : Node) (i : Int) :
    Yields (∀ items, n.value = .array items → items.length < 2 ^ 62 ∧ Word.Holds i)
      ((Selector.index i).select? document n) ((Selector.index i).select document n) := by
  rw [Selector.select?, Selector.select]
  cases hv : n.value with
  | array items =>
    simp only
    apply ((Word.place?_yields i items.length).mono (fun h => h items rfl)).bind
    cases hk : Selector.place? i items.length with
    | none => exact .pure _ _
    | some k =>
      have hchild := Node.child?_item hv (place?_eq_some.mp hk).2
      simp only [Option.bind_some, hchild]
      exact .pure _ _
  | null | bool _ | number _ | string _ | object _ => exact .pure _ _

theorem Selector.select?_slice (n : Node) (start stop step : Option Int) :
    Yields (∀ items, n.value = .array items → Word.SliceFits start stop step items.length)
      ((Selector.slice start stop step).select? document n)
      ((Selector.slice start stop step).select document n) := by
  rw [Selector.select?, Selector.select]
  cases hv : n.value with
  | array items =>
    apply ((Word.places?_yields start stop step items.length).mono (fun h => h items rfl)).bind
    rw [Yields.mapM_of_isSome]
    · exact .pure _ _
    · intro k hk
      rw [Node.child?_item hv (lt_of_mem_places hk)]
      rfl
  | null | bool _ | number _ | string _ | object _ => exact .pure _ _

-- Each part yields what it has without words. The induction is on the tree, with its lists; `p`
-- stays the same, and what it says about arrays is passed on to the nodes that are found.
mutual

theorem Selector.select?_yields (hb : p → bound < 2 ^ 62) (hd : p → document.ArraysWithin bound) :
    ∀ {s : Selector}, (p → s.FitsWords bound) → ∀ n : Node, (p → n.value.ArraysWithin bound) →
      Yields p (s.select? document n) (s.select document n)
  | .name _, _, _, _ | .wildcard, _, _, _ => by
    rw [Selector.select?, Selector.select]
    exact .pure p _
  | .index i, h, n, hn => by
    apply (Selector.select?_index n i).mono
    intro hp items hv
    have harrays := hn hp
    rw [hv] at harrays
    exact ⟨Nat.lt_of_le_of_lt harrays.1 (hb hp), h hp⟩
  | .slice start stop step, h, n, hn => by
    apply (Selector.select?_slice n start stop step).mono
    intro hp items hv
    have harrays := hn hp
    rw [hv] at harrays
    exact h hp items.length harrays.1
  | .filter e, h, n, hn => by
    rw [Selector.select?, Selector.select]
    apply Yields.filterM
    intro c hc
    exact Expr.holds?_yields hb hd h c (fun hp => Node.arraysWithin_children (hn hp) hc)

theorem Selector.selectAll?_yields (hb : p → bound < 2 ^ 62)
    (hd : p → document.ArraysWithin bound) :
    ∀ {ss : List Selector}, (p → Selector.AllFitWords bound ss) → ∀ n : Node,
      (p → n.value.ArraysWithin bound) →
      Yields p (Selector.selectAll? document n ss) (Selector.selectAll document n ss)
  | [], _, _, _ => by
    rw [Selector.selectAll?, Selector.selectAll]
    exact .pure p _
  | s :: ss, h, n, hn => by
    rw [Selector.selectAll?, Selector.selectAll]
    apply (Selector.select?_yields hb hd (fun hp => (h hp).1) n hn).bind
    apply (Selector.selectAll?_yields hb hd (fun hp => (h hp).2) n hn).bind
    exact .pure p _

theorem Segment.run?_yields (hb : p → bound < 2 ^ 62) (hd : p → document.ArraysWithin bound) :
    ∀ {s : Segment}, (p → s.FitsWords bound) → ∀ n : Node, (p → n.value.ArraysWithin bound) →
      Yields p (s.run? document n) (s.apply document n)
  | .child ss, h, n, hn => by
    rw [Segment.run?, Segment.apply]
    exact Selector.selectAll?_yields hb hd h n hn
  | .descendant ss, h, n, hn => by
    rw [Segment.run?, Segment.apply]
    apply Yields.flatten_mapM
    intro c hc
    exact Selector.selectAll?_yields hb hd h c (fun hp => Node.arraysWithin_subtree (hn hp) hc)

theorem Segment.runAll?_yields (hb : p → bound < 2 ^ 62)
    (hd : p → document.ArraysWithin bound) :
    ∀ {ss : List Segment}, (p → Segment.AllFitWords bound ss) → ∀ ns : List Node,
      (p → ∀ n ∈ ns, n.value.ArraysWithin bound) →
      Yields p (Segment.runAll? document ns ss) (Segment.applyAll document ns ss)
  | [], _, _, _ => by
    rw [Segment.runAll?, Segment.applyAll]
    exact .pure p _
  | s :: ss, h, ns, hns => by
    rw [Segment.runAll?, Segment.applyAll, List.flatMap_def]
    have hmap := Yields.mapM (fun n hn =>
      Segment.run?_yields hb hd (fun hp => (h hp).1) n (fun hp => hns hp n hn))
    apply hmap.bind
    apply Segment.runAll?_yields hb hd (fun hp => (h hp).2)
    intro hp m hm
    obtain ⟨n, hn, hm⟩ := List.mem_flatMap.mp hm
    exact Segment.arraysWithin_apply (hns hp n hn) hm

theorem Expr.holds?_yields (hb : p → bound < 2 ^ 62) (hd : p → document.ArraysWithin bound) :
    ∀ {e : Expr}, (p → e.FitsWords bound) → ∀ n : Node, (p → n.value.ArraysWithin bound) →
      Yields p (e.holds? document n) (e.holds document n)
  | .logical .and a b, h, n, hn => by
    rw [Expr.holds?, Expr.holds]
    apply (Expr.holds?_yields hb hd (fun hp => (h hp).1) n hn).bind
    cases a.holds document n with
    | true => exact Expr.holds?_yields hb hd (fun hp => (h hp).2) n hn
    | false => exact .pure p _
  | .logical .or a b, h, n, hn => by
    rw [Expr.holds?, Expr.holds]
    apply (Expr.holds?_yields hb hd (fun hp => (h hp).1) n hn).bind
    cases a.holds document n with
    | true => exact .pure p _
    | false => exact Expr.holds?_yields hb hd (fun hp => (h hp).2) n hn
  | .not a, h, n, hn => by
    have ha : p → a.FitsWords bound := h
    rw [Expr.holds?, Expr.holds]
    exact (Expr.holds?_yields hb hd ha n hn).bind (.pure p _)
  | .paren a, h, n, hn => by
    have ha : p → a.FitsWords bound := h
    rw [Expr.holds?, Expr.holds]
    exact Expr.holds?_yields hb hd ha n hn
  | .compare op a b, h, n, hn => by
    rw [Expr.holds?, Expr.holds]
    apply (Expr.operand?_yields hb hd (fun hp => (h hp).1) n hn).bind
    apply (Expr.operand?_yields hb hd (fun hp => (h hp).2) n hn).bind
    exact .pure p _
  | .exists anchor ss, h, n, hn => by
    rw [Expr.holds?_exists, Expr.holds_exists]
    exact (Segment.runAll?_yields hb hd h _ (Node.arraysWithin_anchor hd hn anchor)).map _
  | .query anchor ss, h, n, hn => by
    rw [Expr.holds?_query, Expr.holds_query]
    exact (Segment.runAll?_yields hb hd h _ (Node.arraysWithin_anchor hd hn anchor)).map _
  | .call f args, h, n, hn => by
    rw [Expr.holds?, Expr.holds]
    apply (Expr.arguments?_yields hb hd h f.params n hn).bind
    cases f.apply (Expr.arguments document n args f.params) <;> exact .pure p _
  | .literal _, _, _, _ => by
    rw [Expr.holds?, Expr.holds]
    exact .pure p _

theorem Expr.operand?_yields (hb : p → bound < 2 ^ 62) (hd : p → document.ArraysWithin bound) :
    ∀ {e : Expr}, (p → e.FitsWords bound) → ∀ n : Node, (p → n.value.ArraysWithin bound) →
      Yields p (e.operand? document n) (e.value? document n)
  | .query anchor ss, h, n, hn => by
    rw [Expr.operand?_query, Expr.value?_query]
    exact (Segment.runAll?_yields hb hd h _ (Node.arraysWithin_anchor hd hn anchor)).map _
  | .call f args, h, n, hn => by
    rw [Expr.operand?, Expr.value?]
    exact (Expr.arguments?_yields hb hd h f.params n hn).bind (.pure p _)
  | .literal _, _, _, _ | .logical _ _ _, _, _, _ | .not _, _, _, _ | .paren _, _, _, _
  | .compare _ _ _, _, _, _ | .exists _ _, _, _, _ => by
    simpa [Expr.operand?, Expr.value?] using Yields.pure p _

theorem Expr.nodes?_yields (hb : p → bound < 2 ^ 62) (hd : p → document.ArraysWithin bound) :
    ∀ {e : Expr}, (p → e.FitsWords bound) → ∀ n : Node, (p → n.value.ArraysWithin bound) →
      Yields p (e.nodes? document n) (e.nodes document n)
  | .exists anchor ss, h, n, hn => by
    rw [Expr.nodes?_exists, Expr.nodes_exists]
    exact Segment.runAll?_yields hb hd h _ (Node.arraysWithin_anchor hd hn anchor)
  | .query anchor ss, h, n, hn => by
    rw [Expr.nodes?_query, Expr.nodes_query]
    exact Segment.runAll?_yields hb hd h _ (Node.arraysWithin_anchor hd hn anchor)
  | .call f args, h, n, hn => by
    rw [Expr.nodes?, Expr.nodes]
    exact (Expr.arguments?_yields hb hd h f.params n hn).bind (.pure p _)
  | .literal _, _, _, _ | .logical _ _ _, _, _, _ | .not _, _, _, _ | .paren _, _, _, _
  | .compare _ _ _, _, _, _ => by
    simpa [Expr.nodes?, Expr.nodes] using Yields.pure p _

theorem Expr.arguments?_yields (hb : p → bound < 2 ^ 62) (hd : p → document.ArraysWithin bound) :
    ∀ {es : List Expr}, (p → Expr.AllFitWords bound es) → ∀ (ts : List ExprType) (n : Node),
      (p → n.value.ArraysWithin bound) →
      Yields p (Expr.arguments? document n es ts) (Expr.arguments document n es ts)
  | [], _, _, _, _ | _ :: _, _, [], _, _ => by
    simpa [Expr.arguments?, Expr.arguments] using Yields.pure p _
  | e :: es, h, t :: ts, n, hn => by
    have hes := Expr.arguments?_yields hb hd (fun hp => (h hp).2) ts n hn
    cases t with
    | value =>
      rw [Expr.arguments?, Expr.arguments]
      apply (Expr.operand?_yields hb hd (fun hp => (h hp).1) n hn).bind
      exact hes.bind (.pure p _)
    | logical =>
      rw [Expr.arguments?, Expr.arguments]
      apply (Expr.holds?_yields hb hd (fun hp => (h hp).1) n hn).bind
      exact hes.bind (.pure p _)
    | nodes =>
      rw [Expr.arguments?, Expr.arguments]
      apply (Expr.nodes?_yields hb hd (fun hp => (h hp).1) n hn).bind
      exact hes.bind (.pure p _)

end

end Evaluation

section Compiled

variable {r : Registry} {bound : Nat}

theorem Word.sliceFits {start stop step : Option Int} {length : Nat} (hl : length < 2 ^ 62)
    (hstart : ∀ i ∈ start, InIndexRange i) (hstop : ∀ i ∈ stop, InIndexRange i)
    (hstep : ∀ i ∈ step, InIndexRange i) : SliceFits start stop step length where
  length_lt := hl
  start_holds i hi := holds_of_inIndexRange (hstart i hi)
  stop_holds i hi := holds_of_inIndexRange (hstop i hi)
  step_holds i hi := holds_of_inIndexRange (hstep i hi)
  steps_hold hover := by
    obtain ⟨k, hk, hle⟩ := hover
    exact absurd (next_of_inIndexRange hl hstep hk) (Int.not_lt.mpr hle)

mutual

theorem Selector.fitsWords (hb : bound < 2 ^ 62) :
    ∀ {s : Selector}, s.WellTyped r → s.FitsWords bound
  | .name _, _ | .wildcard, _ => trivial
  | .index _, h => Word.holds_of_inIndexRange h
  | .slice _ _ _, h => fun _ hl => Word.sliceFits (Nat.lt_of_le_of_lt hl hb) h.1 h.2.1 h.2.2
  | .filter e, h => by
    have he : e.HasType r .logical := h
    exact Expr.fitsWords hb he

theorem Selector.allFitWords (hb : bound < 2 ^ 62) :
    ∀ {ss : List Selector}, Selector.AllWellTyped r ss → Selector.AllFitWords bound ss
  | [], _ => trivial
  | _ :: _, h => ⟨Selector.fitsWords hb h.1, Selector.allFitWords hb h.2⟩

theorem Segment.fitsWords (hb : bound < 2 ^ 62) :
    ∀ {s : Segment}, s.WellTyped r → s.FitsWords bound
  | .child ss, h | .descendant ss, h => by
    have hss : Selector.AllWellTyped r ss := h.2
    exact Selector.allFitWords hb hss

theorem Segment.allFitWords (hb : bound < 2 ^ 62) :
    ∀ {ss : List Segment}, Segment.AllWellTyped r ss → Segment.AllFitWords bound ss
  | [], _ => trivial
  | _ :: _, h => ⟨Segment.fitsWords hb h.1, Segment.allFitWords hb h.2⟩

theorem Expr.fitsWords (hb : bound < 2 ^ 62) :
    ∀ {e : Expr} {t : ExprType}, e.HasType r t → e.FitsWords bound
  | .logical _ _ _, _, h | .compare _ _ _, _, h =>
    ⟨Expr.fitsWords hb h.2.1, Expr.fitsWords hb h.2.2⟩
  | .not a, _, h | .paren a, _, h => Expr.fitsWords hb (e := a) h.2
  | .exists _ ss, _, h | .query _ ss, _, h => by
    have hss : Segment.AllWellTyped r ss := h.2
    exact Segment.allFitWords hb hss
  | .call f args, _, h => by
    have hargs : Expr.HaveTypes r args f.params := h.2.2
    exact Expr.allFitWords hb hargs
  | .literal _, _, _ => trivial

theorem Expr.allFitWords (hb : bound < 2 ^ 62) :
    ∀ {es : List Expr} {ts : List ExprType}, Expr.HaveTypes r es ts → Expr.AllFitWords bound es
  | [], _, _ => trivial
  | _ :: _, _ :: _, h => ⟨Expr.fitsWords hb h.1, Expr.allFitWords hb h.2⟩

end

end Compiled

namespace Query

/-- Evaluation in words selects what evaluation selects, or stops. It only stops where a number of
the query or a step of a slice is no word, or an array is too long. -/
theorem evaluate?_yields (q : Query) (document : Json) (bound : Nat) :
    Yields (bound < 2 ^ 62 ∧ q.FitsWords bound ∧ document.ArraysWithin bound)
      (q.evaluate? document) (q.evaluate document) := by
  apply Segment.runAll?_yields And.left (fun hp => hp.2.2) (fun hp => hp.2.1)
  exact Node.arraysWithin_anchor (n := .root document) (fun hp => hp.2.2) (fun hp => hp.2.2) .root

theorem eq_evaluate_of_evaluate? {q : Query} {document : Json} {ns : List Node}
    (h : q.evaluate? document = some ns) : ns = q.evaluate document :=
  (evaluate?_yields q document 0).eq_of_some h

/-- A query that compiles does not stop. -/
theorem evaluate?_compiled {env : Environment} {text : String} {q : Query}
    (h : env.compile text = .ok q) {bound : Nat} (hb : bound < 2 ^ 62) {document : Json}
    (hd : document.ArraysWithin bound) : q.evaluate? document = some (q.evaluate document) :=
  have htyped : q.WellTyped env.registry := (Environment.compile_iff.mp h).2.2.1
  (evaluate?_yields q document bound).eq_some ⟨hb, Segment.allFitWords hb htyped, hd⟩

theorem evaluate?_single (s : Selector) (document : Json) :
    (Query.mk [.child [s]]).evaluate? document = s.select? document (.root document) := by
  simp only [evaluate?, Segment.runAll?, Segment.run?, Selector.selectAll?]
  cases h : s.select? document (.root document) <;> simp [h]

theorem evaluate_single (s : Selector) (document : Json) :
    (Query.mk [.child [s]]).evaluate document = s.select document (.root document) := by
  simp [evaluate, Segment.applyAll, Segment.apply, Selector.selectAll]

section Array

variable {items : List Json} {index : Int} {start stop step : Option Int}

/-- A slice stops with its array if a step leads out of the words. -/
theorem evaluate?_overflowing (hl : items.length < 2 ^ 62) (hstart : ∀ i ∈ start, Word.Holds i)
    (hstop : ∀ i ∈ stop, Word.Holds i) (hstep : ∀ i ∈ step, Word.Holds i)
    (h : Selector.Overflows start stop step items.length) :
    Word.places? start stop step items.length = none ∧
      (Query.mk [.child [.slice start stop step]]).evaluate? (.array items) = none := by
  have hplaces : Word.places? start stop step items.length = none := by
    rw [Word.places?_eq hl hstart hstop hstep, if_neg]
    obtain ⟨k, hk, hle⟩ := h
    intro hall
    exact absurd hle (Int.not_le.mpr (hall k hk))
  refine ⟨hplaces, ?_⟩
  rw [evaluate?_single, Selector.select?]
  simp only [Node.root, hplaces]
  rfl

/-- No index in words leads out of them. A slice in words does if the step behind one of its places
is too far, which only a step upwards can be, and then evaluation stops; all other slices are
evaluated. What is found is an item of the array. -/
theorem evaluate?_array (hl : items.length < 2 ^ 62) (hindex : Word.Holds index)
    (hstart : ∀ i ∈ start, Word.Holds i) (hstop : ∀ i ∈ stop, Word.Holds i)
    (hstep : ∀ i ∈ step, Word.Holds i) :
    (Word.place? index items.length = some (Selector.place? index items.length) ∧
      (∀ k ∈ Selector.place? index items.length, k < items.length) ∧
      (Query.mk [.child [.index index]]).evaluate? (.array items) =
        some ((Query.mk [.child [.index index]]).evaluate (.array items))) ∧
    (∀ k ∈ Selector.places start stop step items.length, k < items.length) ∧
    if Selector.Overflows start stop step items.length then
      0 < step.getD 1 ∧ Word.places? start stop step items.length = none ∧
      (Query.mk [.child [.slice start stop step]]).evaluate? (.array items) = none
    else
      Word.places? start stop step items.length =
        some (Selector.places start stop step items.length) ∧
      (Query.mk [.child [.slice start stop step]]).evaluate? (.array items) =
        some ((Query.mk [.child [.slice start stop step]]).evaluate (.array items)) := by
  have hroot {p : List Json → Prop} (h : p items) :
      ∀ js, (Node.root (.array items)).value = .array js → p js := by
    intro js hjs
    cases hjs
    exact h
  refine ⟨⟨Word.place?_eq hl hindex, fun k hk => (place?_eq_some.mp hk).2, ?_⟩,
    fun k hk => Selector.lt_of_mem_places hk, ?_⟩
  · rw [evaluate?_single, evaluate_single]
    exact (Selector.select?_index _ index).eq_some (hroot ⟨hl, hindex⟩)
  · by_cases hover : Selector.Overflows start stop step items.length
    · rw [if_pos hover]
      refine ⟨?_, evaluate?_overflowing hl hstart hstop hstep hover⟩
      obtain ⟨k, hk, hle⟩ := hover
      have hlt := Selector.lt_of_mem_places hk
      omega
    · rw [if_neg hover]
      have hfits : Word.SliceFits start stop step items.length :=
        ⟨hl, hstart, hstop, hstep, hover⟩
      refine ⟨(Word.places?_yields start stop step _).eq_some hfits, ?_⟩
      rw [evaluate?_single, evaluate_single]
      exact (Selector.select?_slice _ start stop step).eq_some (hroot hfits)

/-- In two items, a step from the second to the end of the words. -/
theorem evaluate?_array_lastStep :
    let items := [Json.null, .null]
    let stride : Int := 2 ^ 63 - 1
    items.length < 2 ^ 62 ∧ Word.Holds (-2 ^ 63) ∧ Word.Holds 1 ∧ Word.Holds stride ∧
      Word.place? (-2 ^ 63) items.length = some none ∧
      (Query.mk [.child [.slice (some 1) none (some stride)]]).evaluate? (.array items) = none := by
  intro items stride
  have hlow : Word.Holds (-2 ^ 63) := by decide
  have hone : Word.Holds 1 := by decide
  have hstride : Word.Holds stride := by decide
  have hover : Selector.Overflows (some 1) none (some stride) items.length :=
    ⟨1, by decide, by decide⟩
  have hlength : items.length < 2 ^ 62 := by decide
  obtain ⟨⟨hplace, -, -⟩, -, hslice⟩ := @evaluate?_array items (-2 ^ 63) (some 1) none (some stride)
    hlength hlow (by simpa using hone) (by simp) (by simpa using hstride)
  rw [if_pos hover] at hslice
  exact ⟨hlength, hlow, hone, hstride, hplace, hslice.2.2⟩

/-- Not every slice in words is evaluated. -/
theorem evaluate?_stops :
    ¬ ∀ (items : List Json) (start stop step : Option Int), items.length < 2 ^ 62 →
      (∀ i ∈ start, Word.Holds i) → (∀ i ∈ stop, Word.Holds i) → (∀ i ∈ step, Word.Holds i) →
      ((Query.mk [.child [.slice start stop step]]).evaluate? (.array items)).isSome := by
  intro hall
  have hlength : [Json.null, .null].length < 2 ^ 62 := by decide
  have hstart : ∀ i ∈ some (1 : Int), Word.Holds i := by
    have hone : Word.Holds 1 := by decide
    simpa using hone
  have hstop : ∀ i ∈ (none : Option Int), Word.Holds i := by simp
  have hstep : ∀ i ∈ some ((2 : Int) ^ 63 - 1), Word.Holds i := by
    have hlast : Word.Holds (2 ^ 63 - 1) := by decide
    simpa using hlast
  have hover : Selector.Overflows (some 1) none (some (2 ^ 63 - 1)) [Json.null, .null].length :=
    ⟨1, by decide, by decide⟩
  have hsome := hall _ _ _ _ hlength hstart hstop hstep
  rw [(evaluate?_overflowing hlength hstart hstop hstep hover).2] at hsome
  cases hsome

end Array

end Query
end JsonQuery
