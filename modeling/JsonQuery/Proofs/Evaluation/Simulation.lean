import JsonQuery.Proofs.Evaluation.Counting
import JsonQuery.Proofs.Function.Standard
import JsonQuery.Proofs.Grammar.Typing
import JsonQuery.Proofs.Json.Equality
import JsonQuery.Proofs.Query.Compile

namespace JsonQuery

mutual

/-- No query inside a filter starts at the root of the document. -/
def Selector.RootFree : Selector → Prop
  | .filter e => e.RootFree
  | _ => True

def Selector.AllRootFree : List Selector → Prop
  | [] => True
  | s :: ss => s.RootFree ∧ Selector.AllRootFree ss

def Segment.RootFree : Segment → Prop
  | .child ss | .descendant ss => Selector.AllRootFree ss

def Segment.AllRootFree : List Segment → Prop
  | [] => True
  | s :: ss => s.RootFree ∧ Segment.AllRootFree ss

def Expr.RootFree : Expr → Prop
  | .logical _ a b | .compare _ a b => a.RootFree ∧ b.RootFree
  | .not a | .paren a => a.RootFree
  | .exists anchor ss | .query anchor ss => anchor = .current ∧ Segment.AllRootFree ss
  | .call _ args => Expr.AllRootFree args
  | .literal _ => True

def Expr.AllRootFree : List Expr → Prop
  | [] => True
  | e :: es => e.RootFree ∧ Expr.AllRootFree es

end

def Query.RootFree (q : Query) : Prop := Segment.AllRootFree q.segments

/-- The items of an array at places that its length determines. -/
def Node.itemsAt (n : Node) (places : Nat → List Nat) : List Node :=
  match n.value with
  | .array items => (places items.length).filterMap (fun k => n.child? (.index k))
  | _ => []

theorem select_index_eq (document : Json) (n : Node) (i : Int) :
    (Selector.index i).select document n =
      n.itemsAt (fun length => (Selector.place? i length).toList) := by
  have hplace (o : Option Nat) : (o.bind (fun k => n.child? (.index k))).toList =
      o.toList.filterMap (fun k => n.child? (.index k)) := by
    cases o with
    | none => rfl
    | some k => cases hk : n.child? (.index k) <;> simp [hk]
  simp only [Selector.select, hplace]
  rfl

theorem select_slice_eq (document : Json) (n : Node) (start stop step : Option Int) :
    (Selector.slice start stop step).select document n =
      n.itemsAt (Selector.places start stop step) := by
  rw [Selector.select]
  rfl

theorem rel_bind {α β γ δ : Type} {R : α → β → Prop} {T : γ → δ → Prop} {a : Option α}
    {b : Option β} {f : α → Option γ} {g : β → Option δ} (h : Option.Rel R a b)
    (hfg : ∀ x y, R x y → Option.Rel T (f x) (g y)) : Option.Rel T (a.bind f) (b.bind g) := by
  cases h with
  | none => exact .none
  | some h => exact hfg _ _ h

/-- Two evaluations side by side: which values, nodes and lists of nodes correspond. Filters tell
no value from the one that corresponds to it, nodes that correspond have children that do, and
correspondence of lists is kept by the operations from which evaluation builds them. -/
structure Simulation where
  value : Json → Json → Prop
  node : Node → Node → Prop
  nodes : List Node → List Node → Prop
  primitive {v : Json} : v.IsPrimitive → value v v
  alike {v w : Json} : value v w → v.Alike w
  equalValue {v v' w w' : Json} : value v v' → value w w' → v.equalValue w = v'.equalValue w'
  value_of_node {n m : Node} : node n m → value n.value m.value
  children {n m : Node} : node n m → nodes n.children m.children
  child? {n m : Node} : node n m → ∀ step, Option.Rel node (n.child? step) (m.child? step)
  nil : nodes [] []
  singleton {n m : Node} : nodes [n] [m] ↔ node n m
  append {ns ns' ms ms' : List Node} : nodes ns ms → nodes ns' ms' → nodes (ns ++ ns') (ms ++ ms')
  flatMap {ns ms : List Node} {f g : Node → List Node} : nodes ns ms →
    (∀ n ∈ ns, ∀ m, node n m → nodes (f n) (g m)) → nodes (ns.flatMap f) (ms.flatMap g)
  length {ns ms : List Node} : nodes ns ms → ns.length = ms.length

namespace Simulation

variable {S : Simulation}

section Lists

variable {n m : Node} {ns ms : List Node}

theorem toList {a b : Option Node} (h : Option.Rel S.node a b) : S.nodes a.toList b.toList := by
  cases h with
  | none => exact S.nil
  | some h => exact S.singleton.mpr h

theorem filterMap {α : Type} (xs : List α) {f g : α → Option Node}
    (h : ∀ x, Option.Rel S.node (f x) (g x)) : S.nodes (xs.filterMap f) (xs.filterMap g) := by
  simp only [List.filterMap_eq_flatMap_toList]
  induction xs with
  | nil => exact S.nil
  | cons x xs ih =>
    simp only [List.flatMap_cons]
    exact S.append (toList (h x)) ih

theorem filter {p q : Node → Bool} (h : S.nodes ns ms) (hpq : ∀ n m, S.node n m → p n = q m) :
    S.nodes (ns.filter p) (ms.filter q) := by
  have hfilter (p : Node → Bool) (ns : List Node) :
      ns.filter p = ns.flatMap (fun n => if p n then [n] else []) := by
    induction ns with
    | nil => rfl
    | cons n ns ih => cases hn : p n <;> simp [hn, ih]
  rw [hfilter p, hfilter q]
  refine S.flatMap h (fun n _ m hnm => ?_)
  rw [hpq n m hnm]
  split
  · exact S.singleton.mpr hnm
  · exact S.nil

theorem isEmpty (h : S.nodes ns ms) : ns.isEmpty = ms.isEmpty := by
  rw [Bool.eq_iff_iff, List.isEmpty_iff_length_eq_zero, List.isEmpty_iff_length_eq_zero, S.length h]

theorem only? (h : S.nodes ns ms) : Option.Rel S.node (Node.only? ns) (Node.only? ms) := by
  have hlength := S.length h
  match ns, ms, h, hlength with
  | [], [], _, _ => exact .none
  | [n], [m], h, _ => exact .some (S.singleton.mp h)
  | _ :: _ :: _, _ :: _ :: _, _, _ => exact .none

theorem subtree {n m : Node} (h : S.node n m) : S.nodes n.subtree m.subtree := by
  rw [n.subtree_eq, m.subtree_eq]
  have hbelow := S.flatMap (S.children h) (fun c hc c' hcc => subtree hcc)
  exact S.append (S.singleton.mpr h) hbelow
termination_by sizeOf n.value
decreasing_by exact Node.sizeOf_child hc

end Lists

section Comparisons

variable {v v' w w' : Option Json}

theorem equal (hv : Option.Rel S.value v v') (hw : Option.Rel S.value w w') :
    Comparison.equal v w = Comparison.equal v' w' := by
  cases hv with
  | none => cases hw <;> rfl
  | some hv =>
    cases hw with
    | none => rfl
    | some hw => exact S.equalValue hv hw

theorem less (hv : Option.Rel S.value v v') (hw : Option.Rel S.value w w') :
    Comparison.less v w = Comparison.less v' w' := by
  cases hv with
  | none => cases hw <;> rfl
  | @some a a' ha =>
    cases hw with
    | none => cases S.alike ha <;> simp [Comparison.less]
    | @some b b' hb => exact (S.alike ha).less_eq (S.alike hb)

theorem holds (op : ComparisonOp) (hv : Option.Rel S.value v v') (hw : Option.Rel S.value w w') :
    Comparison.holds op v w = Comparison.holds op v' w' := by
  cases op <;> simp only [Comparison.holds, equal hv hw, less hv hw, less hw hv]

end Comparisons

section Functions

/-- Correspondence of what functions take and return. -/
inductive Typed (S : Simulation) : TypedValue → TypedValue → Prop
  | value {v w : Option Json} (h : Option.Rel S.value v w) : S.Typed (.value v) (.value w)
  | logical (b : Bool) : S.Typed (.logical b) (.logical b)
  | nodes {ns ms : List Node} (h : S.nodes ns ms) : S.Typed (.nodes ns) (.nodes ms)

/-- Corresponding arguments have corresponding results. -/
def Respects (S : Simulation) (f : Extension) : Prop :=
  ∀ vs ws, List.Forall₂ S.Typed vs ws → S.Typed (f.apply vs) (f.apply ws)

def RespectsAll (S : Simulation) (r : Registry) : Prop :=
  ∀ name f, r.lookup name = some f → S.Respects f

theorem Typed.value? {v w : TypedValue} (h : S.Typed v w) :
    Option.Rel S.value v.value? w.value? := by
  cases h with
  | value h => exact h
  | logical _ | nodes _ => exact .none

theorem Typed.nodes? {v w : TypedValue} (h : S.Typed v w) :
    Option.Rel S.nodes v.nodes? w.nodes? := by
  cases h with
  | nodes h => exact .some h
  | logical _ | value _ => exact .none

variable {vs ws : List TypedValue}

theorem argument (h : List.Forall₂ S.Typed vs ws) (i : Nat) :
    Option.Rel S.value (vs[i]?.bind TypedValue.value?) (ws[i]?.bind TypedValue.value?) :=
  rel_bind (forall₂_getElem? h i) (fun _ _ => Typed.value?)

theorem nodesArgument (h : List.Forall₂ S.Typed vs ws) (i : Nat) :
    Option.Rel S.nodes (vs[i]?.bind TypedValue.nodes?) (ws[i]?.bind TypedValue.nodes?) :=
  rel_bind (forall₂_getElem? h i) (fun _ _ => Typed.nodes?)

theorem typed_ofNat (k : Nat) : S.Typed (.ofNat k) (.ofNat k) :=
  .value (.some (S.primitive trivial))

theorem respects_length : S.Respects .length := by
  intro vs ws h
  have hvalue := argument h 0
  simp only [Extension.length, List.head?_eq_getElem?]
  generalize vs[0]?.bind TypedValue.value? = v at hvalue
  generalize ws[0]?.bind TypedValue.value? = w at hvalue
  cases hvalue with
  | none => exact .value .none
  | @some a a' ha =>
    cases S.alike ha with
    | number _ => exact .value .none
    | array hlength | object hlength =>
      simp only [hlength]
      exact typed_ofNat _
    | refl =>
      cases a with
      | string _ | array _ | object _ => exact typed_ofNat _
      | null | bool _ | number _ => exact .value .none

theorem respects_count : S.Respects .count := by
  intro vs ws h
  have hnodes := nodesArgument h 0
  simp only [Extension.count, List.head?_eq_getElem?]
  generalize vs[0]?.bind TypedValue.nodes? = ns at hnodes
  generalize ws[0]?.bind TypedValue.nodes? = ms at hnodes
  cases hnodes with
  | none => exact .value .none
  | some hnodes =>
    simp only [S.length hnodes]
    exact typed_ofNat _

theorem respects_regexpTest (name : String) (test : String → String → Bool) :
    S.Respects (.regexpTest name test) := by
  intro vs ws h
  have htext := argument h 0
  have hpattern := argument h 1
  simp only [Extension.regexpTest, List.head?_eq_getElem?]
  generalize vs[0]?.bind TypedValue.value? = v at htext
  generalize ws[0]?.bind TypedValue.value? = w at htext
  generalize vs[1]?.bind TypedValue.value? = p at hpattern
  generalize ws[1]?.bind TypedValue.value? = q at hpattern
  cases htext with
  | none => exact .logical false
  | @some a a' ha =>
    cases S.alike ha with
    | number _ | array _ | object _ => exact .logical false
    | refl =>
      cases hpattern with
      | none => cases a <;> exact .logical false
      | @some b b' hb =>
        cases S.alike hb with
        | number _ | array _ | object _ => cases a <;> exact .logical false
        | refl => cases a <;> cases b <;> exact .logical _

theorem respects_value : S.Respects .value := by
  intro vs ws h
  have honly := rel_bind (nodesArgument h 0) (fun _ _ => only?)
  simp only [Extension.value, List.head?_eq_getElem?]
  generalize (vs[0]?.bind TypedValue.nodes?).bind Node.only? = n at honly
  generalize (ws[0]?.bind TypedValue.nodes?).bind Node.only? = m at honly
  cases honly with
  | none => exact .value .none
  | some hnode => exact .value (.some (S.value_of_node hnode))

theorem respects_standard : S.RespectsAll .standard := by
  intro name f h
  rcases Registry.mem_standard (Registry.mem_of_lookup h) with rfl | rfl | rfl | rfl | rfl
  · exact respects_length
  · exact respects_count
  · exact respects_regexpTest _ _
  · exact respects_regexpTest _ _
  · exact respects_value

end Functions

section Selectors

variable {document document' : Json}

/-- The two evaluations select corresponding children, each with a selector of its own. -/
def Selects (S : Simulation) (document document' : Json) (s s' : Selector) : Prop :=
  ∀ n m, S.node n m → S.nodes (s.select document n) (s'.select document' m)

theorem selects_name (name : String) :
    S.Selects document document' (.name name) (.name name) := by
  intro n m h
  rw [Selector.select, Selector.select]
  exact toList (S.child? h _)

theorem selects_wildcard : S.Selects document document' .wildcard .wildcard := by
  intro n m h
  rw [Selector.select, Selector.select]
  exact S.children h

theorem itemsAt {n m : Node} (h : S.node n m) (places : Nat → List Nat) :
    S.nodes (n.itemsAt places) (m.itemsAt places) := by
  have halike := S.alike (S.value_of_node h)
  unfold Node.itemsAt
  generalize n.value = v at halike
  generalize m.value = w at halike
  cases halike with
  | array hlength =>
    simp only [hlength]
    exact filterMap _ (fun k => S.child? h _)
  | number _ | object _ => exact S.nil
  | refl =>
    cases v with
    | array items => exact filterMap _ (fun k => S.child? h _)
    | null | bool _ | number _ | string _ | object _ => exact S.nil

theorem selects_index (i : Int) : S.Selects document document' (.index i) (.index i) := by
  intro n m h
  rw [select_index_eq, select_index_eq]
  exact itemsAt h _

theorem selects_slice (start stop step : Option Int) :
    S.Selects document document' (.slice start stop step) (.slice start stop step) := by
  intro n m h
  rw [select_slice_eq, select_slice_eq]
  exact itemsAt h _

theorem selects_filter {e e' : Expr}
    (he : ∀ n m, S.node n m → e.holds document n = e'.holds document' m) :
    S.Selects document document' (.filter e) (.filter e') := by
  intro n m h
  rw [Selector.select, Selector.select]
  exact filter (S.children h) he

theorem selects_all {ss ss' : List Selector}
    (h : List.Forall₂ (S.Selects document document') ss ss') {n m : Node} (hnm : S.node n m) :
    S.nodes (Selector.selectAll document n ss) (Selector.selectAll document' m ss') := by
  induction h with
  | nil =>
    rw [Selector.selectAll, Selector.selectAll]
    exact S.nil
  | cons hs _ ih =>
    rw [Selector.selectAll, Selector.selectAll]
    exact S.append (hs n m hnm) ih

def Applies (S : Simulation) (document document' : Json) (s s' : Segment) : Prop :=
  ∀ n m, S.node n m → S.nodes (s.apply document n) (s'.apply document' m)

variable {ss ss' : List Selector}

theorem applies_child (h : List.Forall₂ (S.Selects document document') ss ss') :
    S.Applies document document' (.child ss) (.child ss') := by
  intro n m hnm
  rw [Segment.apply, Segment.apply]
  exact selects_all h hnm

theorem applies_descendant (h : List.Forall₂ (S.Selects document document') ss ss') :
    S.Applies document document' (.descendant ss) (.descendant ss') := by
  intro n m hnm
  rw [Segment.apply, Segment.apply]
  exact S.flatMap (subtree hnm) (fun c _ c' hcc => selects_all h hcc)

theorem applies_all {ss ss' : List Segment}
    (h : List.Forall₂ (S.Applies document document') ss ss') {ns ms : List Node}
    (hnm : S.nodes ns ms) :
    S.nodes (Segment.applyAll document ns ss) (Segment.applyAll document' ms ss') := by
  induction h generalizing ns ms with
  | nil =>
    rw [Segment.applyAll, Segment.applyAll]
    exact hnm
  | cons hs _ ih =>
    rw [Segment.applyAll, Segment.applyAll]
    apply ih
    exact S.flatMap hnm (fun n _ m hnm => hs n m hnm)

end Selectors

section Expressions

variable {document document' : Json}

/-- The two evaluations make the same of a test, and corresponding things of other expressions,
each of an expression of its own. -/
structure Agrees (S : Simulation) (document document' : Json) (e e' : Expr) : Prop where
  holds : ∀ n m, S.node n m → e.holds document n = e'.holds document' m
  value : ∀ n m, S.node n m → Option.Rel S.value (e.value? document n) (e'.value? document' m)
  nodes : ∀ n m, S.node n m → S.nodes (e.nodes document n) (e'.nodes document' m)

variable {a a' b b' : Expr}

theorem agrees_logical {op : LogicalOp} (ha : S.Agrees document document' a a')
    (hb : S.Agrees document document' b b') :
    S.Agrees document document' (.logical op a b) (.logical op a' b') where
  holds n m h := by
    cases op <;> simp only [Expr.holds, ha.holds n m h, hb.holds n m h]
  value _ _ _ := .none
  nodes _ _ _ := S.nil

theorem agrees_not (ha : S.Agrees document document' a a') :
    S.Agrees document document' (.not a) (.not a') where
  holds n m h := by simp only [Expr.holds, ha.holds n m h]
  value _ _ _ := .none
  nodes _ _ _ := S.nil

theorem agrees_paren (ha : S.Agrees document document' a a') :
    S.Agrees document document' (.paren a) (.paren a') where
  holds n m h := by simp only [Expr.holds, ha.holds n m h]
  value _ _ _ := .none
  nodes _ _ _ := S.nil

theorem agrees_compare {op : ComparisonOp} (ha : S.Agrees document document' a a')
    (hb : S.Agrees document document' b b') :
    S.Agrees document document' (.compare op a b) (.compare op a' b') where
  holds n m h := by
    simp only [Expr.holds]
    exact Simulation.holds op (ha.value n m h) (hb.value n m h)
  value _ _ _ := .none
  nodes _ _ _ := S.nil

theorem agrees_literal {v w : Json} (h : S.value v w) :
    S.Agrees document document' (.literal v) (.literal w) where
  holds _ _ _ := rfl
  value _ _ _ := .some h
  nodes _ _ _ := S.nil

section Queries

variable {anchor : Anchor} {ss ss' : List Segment}

/-- The two evaluations find corresponding nodes for a query in a filter. -/
theorem found (hroot : S.node (.root document) (.root document') ∨ anchor = .current)
    (h : List.Forall₂ (S.Applies document document') ss ss') {n m : Node} (hnm : S.node n m) :
    S.nodes (Segment.applyAll document [anchor.node document n] ss)
      (Segment.applyAll document' [anchor.node document' m] ss') := by
  refine applies_all h (S.singleton.mpr ?_)
  cases anchor with
  | current => exact hnm
  | root => exact hroot.resolve_right (by simp)

theorem agrees_exists (hroot : S.node (.root document) (.root document') ∨ anchor = .current)
    (h : List.Forall₂ (S.Applies document document') ss ss') :
    S.Agrees document document' (.exists anchor ss) (.exists anchor ss') where
  holds n m hnm := by rw [Expr.holds_exists, Expr.holds_exists, isEmpty (found hroot h hnm)]
  value _ _ _ := .none
  nodes n m hnm := by
    rw [Expr.nodes_exists, Expr.nodes_exists]
    exact found hroot h hnm

theorem agrees_query (hroot : S.node (.root document) (.root document') ∨ anchor = .current)
    (h : List.Forall₂ (S.Applies document document') ss ss') :
    S.Agrees document document' (.query anchor ss) (.query anchor ss') where
  holds n m hnm := by rw [Expr.holds_query, Expr.holds_query, isEmpty (found hroot h hnm)]
  value n m hnm := by
    rw [Expr.value?_query, Expr.value?_query, Option.map_eq_bind, Option.map_eq_bind]
    exact rel_bind (only? (found hroot h hnm)) (fun _ _ h => .some (S.value_of_node h))
  nodes n m hnm := by
    rw [Expr.nodes_query, Expr.nodes_query]
    exact found hroot h hnm

end Queries

variable {es es' : List Expr}

theorem given (h : List.Forall₂ (S.Agrees document document') es es') {n m : Node}
    (hnm : S.node n m) (ts : List ExprType) :
    List.Forall₂ S.Typed (Expr.arguments document n es ts)
      (Expr.arguments document' m es' ts) := by
  induction h generalizing ts with
  | nil => simp only [Expr.arguments, List.Forall₂.nil]
  | cons he _ ih =>
    cases ts with
    | nil => simp only [Expr.arguments, List.Forall₂.nil]
    | cons t ts =>
      cases t with
      | value =>
        simp only [Expr.arguments]
        exact .cons (.value (he.value n m hnm)) (ih ts)
      | logical =>
        simp only [Expr.arguments, he.holds n m hnm]
        exact .cons (.logical _) (ih ts)
      | nodes =>
        simp only [Expr.arguments]
        exact .cons (.nodes (he.nodes n m hnm)) (ih ts)

theorem agrees_call {f : Extension} (hf : S.Respects f)
    (h : List.Forall₂ (S.Agrees document document') es es') :
    S.Agrees document document' (.call f es) (.call f es') where
  holds n m hnm := by
    have hresult := hf _ _ (given h hnm f.params)
    simp only [Expr.holds]
    generalize f.apply (Expr.arguments document n es f.params) = v at hresult
    generalize f.apply (Expr.arguments document' m es' f.params) = w at hresult
    cases hresult with
    | value _ => rfl
    | logical b => rfl
    | nodes hnodes => exact congrArg Bool.not (isEmpty hnodes)
  value n m hnm := by
    simp only [Expr.value?]
    exact (hf _ _ (given h hnm f.params)).value?
  nodes n m hnm := by
    have hnodes := (hf _ _ (given h hnm f.params)).nodes?
    simp only [Expr.nodes]
    generalize (f.apply (Expr.arguments document n es f.params)).nodes? = ns at hnodes
    generalize (f.apply (Expr.arguments document' m es' f.params)).nodes? = ms at hnodes
    cases hnodes with
    | none => exact S.nil
    | some hnodes => exact hnodes

end Expressions

section Trees

variable {document document' : Json} {r : Registry}

-- Filters reach the root of the document by its name alone, so that either the roots correspond
-- or no query starts there. The induction is on the tree, together with its lists.
mutual

theorem selects (hr : S.RespectsAll r) : ∀ {s : Selector}, s.WellTyped r →
    S.node (.root document) (.root document') ∨ s.RootFree → S.Selects document document' s s
  | .name name, _, _ => selects_name name
  | .wildcard, _, _ => selects_wildcard
  | .index i, _, _ => selects_index i
  | .slice start stop step, _, _ => selects_slice start stop step
  | .filter _, ht, hroot => selects_filter (agrees hr ht hroot).holds

theorem selects_each (hr : S.RespectsAll r) : ∀ {ss : List Selector},
    Selector.AllWellTyped r ss →
      S.node (.root document) (.root document') ∨ Selector.AllRootFree ss →
        List.Forall₂ (S.Selects document document') ss ss
  | [], _, _ => .nil
  | _ :: _, ht, hroot =>
    .cons (selects hr ht.1 (hroot.imp_right And.left))
      (selects_each hr ht.2 (hroot.imp_right And.right))

theorem applies (hr : S.RespectsAll r) : ∀ {s : Segment}, s.WellTyped r →
    S.node (.root document) (.root document') ∨ s.RootFree → S.Applies document document' s s
  | .child _, ht, hroot => applies_child (selects_each hr ht.2 hroot)
  | .descendant _, ht, hroot => applies_descendant (selects_each hr ht.2 hroot)

theorem applies_each (hr : S.RespectsAll r) : ∀ {ss : List Segment},
    Segment.AllWellTyped r ss →
      S.node (.root document) (.root document') ∨ Segment.AllRootFree ss →
        List.Forall₂ (S.Applies document document') ss ss
  | [], _, _ => .nil
  | _ :: _, ht, hroot =>
    .cons (applies hr ht.1 (hroot.imp_right And.left))
      (applies_each hr ht.2 (hroot.imp_right And.right))

theorem agrees (hr : S.RespectsAll r) : ∀ {e : Expr} {t : ExprType}, e.HasType r t →
    S.node (.root document) (.root document') ∨ e.RootFree → S.Agrees document document' e e
  | .logical _ _ _, _, ht, hroot => agrees_logical (agrees hr ht.2.1 (hroot.imp_right And.left))
      (agrees hr ht.2.2 (hroot.imp_right And.right))
  | .not _, _, ht, hroot => agrees_not (agrees hr ht.2 hroot)
  | .paren _, _, ht, hroot => agrees_paren (agrees hr ht.2 hroot)
  | .compare _ _ _, _, ht, hroot => agrees_compare (agrees hr ht.2.1 (hroot.imp_right And.left))
      (agrees hr ht.2.2 (hroot.imp_right And.right))
  | .exists _ _, _, ht, hroot => agrees_exists (hroot.imp_right And.left)
      (applies_each hr ht.2 (hroot.imp_right And.right))
  | .query _ _, _, ht, hroot => agrees_query (hroot.imp_right And.left)
      (applies_each hr ht.2 (hroot.imp_right And.right))
  | .call f _, _, ht, hroot => agrees_call (hr f.name f ht.1) (agrees_each hr ht.2.2 hroot)
  | .literal _, _, ht, _ => agrees_literal (S.primitive ht.2)

theorem agrees_each (hr : S.RespectsAll r) :
    ∀ {es : List Expr} {ts : List ExprType}, Expr.HaveTypes r es ts →
      S.node (.root document) (.root document') ∨ Expr.AllRootFree es →
        List.Forall₂ (S.Agrees document document') es es
  | [], _, _, _ => .nil
  | _ :: _, [], ht, _ => ht.elim
  | _ :: _, _ :: _, ht, hroot =>
    .cons (agrees hr ht.1 (hroot.imp_right And.left))
      (agrees_each hr ht.2 (hroot.imp_right And.right))

end

/-- From corresponding nodes, the segments of a compiled query with the standard functions lead to
corresponding nodes. -/
theorem applyAll {env : Environment} (henv : env.registry = .standard) {text : String} {q : Query}
    (h : env.compile text = .ok q)
    (hroot : S.node (.root document) (.root document') ∨ q.RootFree) {ns ms : List Node}
    (hnodes : S.nodes ns ms) : S.nodes (Segment.applyAll document ns q.segments)
      (Segment.applyAll document' ms q.segments) := by
  have htyped : q.WellTyped .standard := henv ▸ (Environment.compile_iff.mp h).2.2.1
  exact applies_all (applies_each respects_standard htyped hroot) hnodes

end Trees

end Simulation
end JsonQuery
