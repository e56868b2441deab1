import JsonQuery.Proofs.Evaluation.Locality
import JsonQuery.Proofs.Evaluation.Overflow

namespace JsonQuery

/-- The step that a singular selector takes from a value to a child. An index is counted from the
start of the array. -/
inductive Selector.Takes : Json → Selector → Step → Json → Prop where
  | name {members : List (String × Json)} {name : String} {c : Json}
      (hc : members.lookup name = some c) : Takes (.object members) (.name name) (.name name) c
  | index {items : List Json} {i : Int} {k : Nat} {c : Json}
      (hk : (k : Int) = Selector.normalized items.length i) (hc : items[k]? = some c) :
      Takes (.array items) (.index i) (.index k) c

/-- Whether a value has the child that a singular selector names. -/
def Selector.ExistsIn (v : Json) : Selector → Prop
  | .name key => ∃ members, v = .object members ∧ key ∈ members.map Prod.fst
  | .index i => ∃ items, v = .array items ∧ -(items.length : Int) ≤ i ∧ i < items.length
  | _ => False

/-- Where singular segments lead from a value, by which location, and to which value. -/
inductive Segment.Leads : Json → List Segment → Location → Json → Prop where
  | stay (v : Json) : Leads v [] [] v
  | step {v c w : Json} {s : Selector} {ss : List Segment} {step : Step} {l : Location}
      (hs : s.Takes v step c) (h : Leads c ss l w) : Leads v (.child [s] :: ss) (step :: l) w

/-- Every step exists in the value to which those before it lead. -/
def Segment.StepsExist (v : Json) (ss : List Segment) : Prop :=
  ∀ front s back l w, ss = front ++ .child [s] :: back → Leads v front l w → s.ExistsIn w

theorem Json.lookup_isSome {members : List (String × Json)} {name : String} :
    (members.lookup name).isSome ↔ name ∈ members.map Prod.fst := by
  simp [List.lookup_isSome_iff, @eq_comm _ name]

section Steps

variable {v : Json} {n : Node} {s : Selector}

theorem Selector.ExistsIn.exists_takes (h : s.ExistsIn v) : ∃ step c, s.Takes v step c := by
  cases s with
  | name name =>
    obtain ⟨members, rfl, hname⟩ := h
    obtain ⟨c, hc⟩ := Option.isSome_iff_exists.mp (Json.lookup_isSome.mpr hname)
    exact ⟨_, c, .name hc⟩
  | index i =>
    obtain ⟨items, rfl, hlow, hhigh⟩ := h
    obtain ⟨k, hk⟩ : ∃ k : Nat, (k : Int) = Selector.normalized items.length i := by
      refine ⟨(Selector.normalized items.length i).toNat, Int.toNat_of_nonneg ?_⟩
      unfold Selector.normalized
      split <;> omega
    have hlt : k < items.length := by
      unfold Selector.normalized at hk
      split at hk <;> omega
    exact ⟨_, _, .index hk (List.getElem?_eq_getElem hlt)⟩
  | wildcard | slice _ _ _ | filter _ => exact h.elim

theorem Selector.Takes.select {step : Step} {c : Json} (h : s.Takes n.value step c)
    (document : Json) : s.select document n = [⟨c, n.location ++ [step]⟩] := by
  generalize hv : n.value = v at h
  cases h with
  | name hc => simp [Selector.select, Node.child?, hv, Json.child?, hc]
  | index hk hc =>
    have hlt := (List.getElem?_eq_some_iff.mp hc).1
    have hplace := place?_eq_some.mpr ⟨hk, hlt⟩
    simp [Selector.select, hv, hplace, Node.child?, Json.child?, hc]

theorem Selector.select_of_not_existsIn (hs : s.isSingular = true) (h : ¬ s.ExistsIn n.value)
    (document : Json) : s.select document n = [] := by
  apply List.eq_nil_iff_forall_not_mem.mpr
  intro m hm
  apply h
  cases s with
  | name name =>
    rw [Selector.select, Option.mem_toList] at hm
    obtain ⟨members, hmembers⟩ := child?_name hm
    obtain ⟨c, hc, -⟩ := Option.map_eq_some_iff.mp hm
    rw [hmembers] at hc
    exact ⟨members, hmembers, Json.lookup_isSome.mp (Option.isSome_of_eq_some hc)⟩
  | index i =>
    rw [Selector.select] at hm
    split at hm
    · rename_i items hitems
      obtain ⟨k, hk, -⟩ := Option.bind_eq_some_iff.mp (Option.mem_toList.mp hm)
      obtain ⟨hnormalized, hlt⟩ := place?_eq_some.mp hk
      unfold Selector.normalized at hnormalized
      refine ⟨items, hitems, ?_⟩
      split at hnormalized <;> omega
    · simp at hm
  | wildcard | slice _ _ _ | filter _ => cases hs

end Steps

section Paths

variable {v w : Json} {n : Node} {ss : List Segment} {l : Location}

theorem Segment.isSingular_eq {s : Segment} (h : s.isSingular = true) :
    ∃ selector, s = .child [selector] ∧ selector.isSingular = true := by
  unfold Segment.isSingular at h
  split at h
  · exact ⟨_, rfl, h⟩
  · cases h

theorem Segment.applyAll_step (document : Json) (n : Node) (s : Selector) (ss : List Segment) :
    Segment.applyAll document [n] (.child [s] :: ss) =
      Segment.applyAll document (s.select document n) ss := by
  simp [Segment.applyAll, Segment.apply, Selector.selectAll]

theorem Segment.applyAll_nil (document : Json) (ss : List Segment) :
    Segment.applyAll document [] ss = [] := by
  rw [applyAll_eq, List.flatMap_nil]

theorem Segment.Leads.applyAll (h : Leads v ss l w) (document : Json) (around : Location) :
    Segment.applyAll document [⟨v, around⟩] ss = [⟨w, around ++ l⟩] := by
  induction h generalizing around with
  | stay v => rw [Segment.applyAll, List.append_nil]
  | @step v c w s ss step l hs h ih =>
    have hselect : s.select document ⟨v, around⟩ = [⟨c, around ++ [step]⟩] := hs.select document
    rw [Segment.applyAll_step, hselect, ih, List.append_assoc, List.singleton_append]

/-- Singular segments lead somewhere, unless a step does not exist where those before it lead. -/
theorem Segment.leads_or_stops (h : ss.all Segment.isSingular = true) (v : Json) :
    (∃ l w, Leads v ss l w) ∨ ∃ front s back l w, ss = front ++ .child [s] :: back ∧
      Leads v front l w ∧ s.isSingular = true ∧ ¬ s.ExistsIn w := by
  induction ss generalizing v with
  | nil => exact .inl ⟨[], v, .stay v⟩
  | cons segment ss ih =>
    obtain ⟨hfirst, hrest⟩ := Bool.and_eq_true_iff.mp h
    obtain ⟨s, rfl, hs⟩ := Segment.isSingular_eq hfirst
    by_cases hexists : s.ExistsIn v
    · obtain ⟨step, c, htakes⟩ := hexists.exists_takes
      rcases ih hrest c with ⟨l, w, hl⟩ | ⟨front, s', back, l, w, rfl, hl, hs', hnot⟩
      · exact .inl ⟨_, w, .step htakes hl⟩
      · exact .inr ⟨_, s', back, _, w, rfl, .step htakes hl, hs', hnot⟩
    · exact .inr ⟨[], s, ss, [], v, rfl, .stay v, hs, hexists⟩

theorem Segment.applyAll_of_stops {front back : List Segment} {s : Selector}
    (h : Leads n.value front l w) (hs : s.isSingular = true) (hnot : ¬ s.ExistsIn w)
    (document : Json) : Segment.applyAll document [n] (front ++ .child [s] :: back) = [] := by
  have hselect : s.select document ⟨w, n.location ++ l⟩ = [] :=
    Selector.select_of_not_existsIn hs hnot document
  calc Segment.applyAll document [n] (front ++ .child [s] :: back)
      = Segment.applyAll document [⟨w, n.location ++ l⟩] (.child [s] :: back) := by
        rw [applyAll_append, h.applyAll document n.location]
    _ = [] := by rw [Segment.applyAll_step, hselect, Segment.applyAll_nil]

/-- All steps exist if and only if the segments lead somewhere. -/
theorem Segment.stepsExist_iff (h : ss.all Segment.isSingular = true) :
    StepsExist v ss ↔ ∃ l w, Leads v ss l w := by
  constructor
  · intro hexist
    rcases Segment.leads_or_stops h v with hl | ⟨front, s, back, l, w, rfl, hl, -, hnot⟩
    · exact hl
    · exact absurd (hexist front s back l w rfl hl) hnot
  · rintro ⟨l, w, hl⟩ front s back l' w' rfl hl'
    by_contra hnot
    have hs : s.isSingular = true := by
      rw [List.all_append, Bool.and_eq_true] at h
      exact (Bool.and_eq_true_iff.mp h.2).1
    have hnone : Segment.applyAll .null [⟨v, []⟩] (front ++ .child [s] :: back) = [] :=
      Segment.applyAll_of_stops hl' hs hnot .null
    rw [hl.applyAll] at hnone
    cases hnone

/-- Singular segments keep to words if their indices are words. -/
theorem Segment.allFitWords_of_isSingular (h : ss.all Segment.isSingular = true)
    (hi : ∀ i, .child [.index i] ∈ ss → Word.Holds i) (bound : Nat) :
    Segment.AllFitWords bound ss := by
  induction ss with
  | nil => trivial
  | cons segment ss ih =>
    obtain ⟨hfirst, hrest⟩ := Bool.and_eq_true_iff.mp h
    obtain ⟨s, rfl, hs⟩ := Segment.isSingular_eq hfirst
    refine ⟨⟨?_, trivial⟩, ih hrest (fun i hmem => hi i (List.mem_cons_of_mem _ hmem))⟩
    cases s with
    | name name => trivial
    | index i => exact hi i (List.mem_cons_self ..)
    | wildcard | slice _ _ _ | filter _ => cases hs

/-- Singular segments find the node to which they lead, or nothing. -/
theorem Segment.finds_or_not (h : ss.all Segment.isSingular = true) (document : Json) (n : Node) :
    (∃ l w, Leads n.value ss l w ∧
      Segment.applyAll document [n] ss = [⟨w, n.location ++ l⟩]) ∨
    (¬ ∃ l w, Leads n.value ss l w) ∧ Segment.applyAll document [n] ss = [] := by
  rcases Segment.leads_or_stops h n.value with
    ⟨l, w, hl⟩ | ⟨front, s, back, l, w, hsplit, hl, hs, hnot⟩
  · exact .inl ⟨l, w, hl, hl.applyAll document n.location⟩
  · have hnone : Segment.applyAll document [n] ss = [] := by
      rw [hsplit]
      exact Segment.applyAll_of_stops hl hs hnot document
    refine .inr ⟨?_, hnone⟩
    rintro ⟨l', w', hl'⟩
    have hsome := hl'.applyAll document n.location
    rw [hnone] at hsome
    cases hsome

/-- As an operand, a singular query is Nothing only where it selects nothing. -/
theorem Expr.value?_query_eq_none (h : ss.all Segment.isSingular = true) (document : Json)
    (n : Node) (anchor : Anchor) : (Expr.query anchor ss).value? document n = none ↔
      Segment.applyAll document [anchor.node document n] ss = [] := by
  rw [Expr.value?_query, Option.map_eq_none_iff]
  rcases Segment.finds_or_not h document (anchor.node document n) with ⟨l, w, -, hone⟩ | ⟨-, hnone⟩
  · simp [hone, Node.only?]
  · simp [hnone, Node.only?]

end Paths

mutual

/-- The expressions in a part of a query, at every depth. -/
def Selector.exprs : Selector → List Expr
  | .filter e => e.exprs
  | _ => []

def Selector.allExprs : List Selector → List Expr
  | [] => []
  | s :: ss => s.exprs ++ Selector.allExprs ss

def Segment.exprs : Segment → List Expr
  | .child ss | .descendant ss => Selector.allExprs ss

def Segment.allExprs : List Segment → List Expr
  | [] => []
  | s :: ss => s.exprs ++ Segment.allExprs ss

def Expr.exprs : Expr → List Expr
  | .logical op a b => .logical op a b :: (a.exprs ++ b.exprs)
  | .not a => .not a :: a.exprs
  | .paren a => .paren a :: a.exprs
  | .compare op a b => .compare op a b :: (a.exprs ++ b.exprs)
  | .exists anchor ss => .exists anchor ss :: Segment.allExprs ss
  | .query anchor ss => .query anchor ss :: Segment.allExprs ss
  | .call f args => .call f args :: Expr.allExprs args
  | .literal v => [.literal v]

def Expr.allExprs : List Expr → List Expr
  | [] => []
  | e :: es => e.exprs ++ Expr.allExprs es

end

def Query.exprs (q : Query) : List Expr := Segment.allExprs q.segments

section Typed

variable {r : Registry} {e' : Expr}

-- Whatever stands in a well typed tree is well typed. The induction is on the tree, with its lists.
mutual

theorem Selector.hasType_of_mem_exprs : ∀ {s : Selector}, s.WellTyped r → e' ∈ s.exprs →
    ∃ t, e'.HasType r t
  | .filter e, h, he => Expr.hasType_of_mem_exprs (e := e) h he
  | .name _, _, he | .wildcard, _, he | .index _, _, he | .slice _ _ _, _, he => by
    simp [Selector.exprs] at he

theorem Selector.hasType_of_mem_allExprs : ∀ {ss : List Selector}, Selector.AllWellTyped r ss →
    e' ∈ Selector.allExprs ss → ∃ t, e'.HasType r t
  | s :: ss, h, he => by
    rw [Selector.allExprs] at he
    rcases List.mem_append.mp he with he | he
    · exact Selector.hasType_of_mem_exprs h.1 he
    · exact Selector.hasType_of_mem_allExprs h.2 he

theorem Segment.hasType_of_mem_exprs : ∀ {s : Segment}, s.WellTyped r → e' ∈ s.exprs →
    ∃ t, e'.HasType r t
  | .child _, h, he | .descendant _, h, he => by
    rw [Segment.exprs] at he
    exact Selector.hasType_of_mem_allExprs h.2 he

theorem Segment.hasType_of_mem_allExprs : ∀ {ss : List Segment}, Segment.AllWellTyped r ss →
    e' ∈ Segment.allExprs ss → ∃ t, e'.HasType r t
  | s :: ss, h, he => by
    rw [Segment.allExprs] at he
    rcases List.mem_append.mp he with he | he
    · exact Segment.hasType_of_mem_exprs h.1 he
    · exact Segment.hasType_of_mem_allExprs h.2 he

theorem Expr.hasType_of_mem_exprs : ∀ {e : Expr} {t : ExprType}, e.HasType r t → e' ∈ e.exprs →
    ∃ t, e'.HasType r t
  | .logical op a b, t, h, he | .compare op a b, t, h, he => by
    rw [Expr.exprs, List.mem_cons, List.mem_append] at he
    rcases he with rfl | he | he
    · exact ⟨t, h⟩
    · exact Expr.hasType_of_mem_exprs h.2.1 he
    · exact Expr.hasType_of_mem_exprs h.2.2 he
  | .not a, t, h, he | .paren a, t, h, he => by
    rw [Expr.exprs, List.mem_cons] at he
    rcases he with rfl | he
    · exact ⟨t, h⟩
    · exact Expr.hasType_of_mem_exprs (e := a) h.2 he
  | .exists anchor ss, t, h, he | .query anchor ss, t, h, he => by
    rw [Expr.exprs, List.mem_cons] at he
    rcases he with rfl | he
    · exact ⟨t, h⟩
    · have hss : Segment.AllWellTyped r ss := h.2
      exact Segment.hasType_of_mem_allExprs hss he
  | .call f args, t, h, he => by
    rw [Expr.exprs, List.mem_cons] at he
    rcases he with rfl | he
    · exact ⟨t, h⟩
    · have hargs : Expr.HaveTypes r args f.params := h.2.2
      exact Expr.hasType_of_mem_allExprs hargs he
  | .literal v, t, h, he => by
    rw [Expr.exprs, List.mem_singleton] at he
    exact ⟨t, he ▸ h⟩

theorem Expr.hasType_of_mem_allExprs : ∀ {es : List Expr} {ts : List ExprType},
    Expr.HaveTypes r es ts → e' ∈ Expr.allExprs es → ∃ t, e'.HasType r t
  | e :: es, t :: ts, h, he => by
    rw [Expr.allExprs] at he
    rcases List.mem_append.mp he with he | he
    · exact Expr.hasType_of_mem_exprs h.1 he
    · exact Expr.hasType_of_mem_allExprs h.2 he

end

/-- The queries among the operands of a well typed comparison are singular. -/
theorem Expr.isSingular_of_compare {op : ComparisonOp} {a b : Expr} {t : ExprType}
    (h : (Expr.compare op a b).HasType r t) {anchor : Anchor} {ss : List Segment}
    (hq : a = .query anchor ss ∨ b = .query anchor ss) : ss.all Segment.isSingular = true := by
  have hoperand (ht : (Expr.query anchor ss).HasType r .value) :
      ss.all Segment.isSingular = true := by
    rcases ht.1 with hnodes | hvalue
    · cases hnodes
    · exact hvalue.2
  rcases hq with rfl | rfl
  · exact hoperand h.2.1
  · exact hoperand h.2.2

end Typed

namespace Query

/-- A singular query finds one node if all its steps exist, and else none. The node stands where the
steps lead, with indices counted from the start. Indices that are words are enough for evaluation in
words. In a compiled comparison, where all queries are singular, a query is Nothing exactly if it
selects no node. -/
theorem applyAll_singular :
    (∀ q : Query, q.isSingular = true → ∀ (document : Json) (n : Node),
      (Segment.applyAll document [n] q.segments).length ≤ 1 ∧
      ((Segment.applyAll document [n] q.segments).length = 1 ↔
        Segment.StepsExist n.value q.segments) ∧
      (∀ m ∈ Segment.applyAll document [n] q.segments,
        ∃ l, Segment.Leads n.value q.segments l m.value ∧ m.location = n.location ++ l) ∧
      ∀ bound < 2 ^ 62, document.ArraysWithin bound → n.value.ArraysWithin bound →
        (∀ i, .child [.index i] ∈ q.segments → Word.Holds i) →
        Segment.runAll? document [n] q.segments =
          some (Segment.applyAll document [n] q.segments)) ∧
    ∀ (env : Environment) (text : String) (q : Query), env.compile text = .ok q →
      ∀ op a b, .compare op a b ∈ q.exprs →
        ∀ anchor ss, a = .query anchor ss ∨ b = .query anchor ss → ∀ (document : Json) (n : Node),
          (Expr.query anchor ss).value? document n = none ↔
            Segment.applyAll document [anchor.node document n] ss = [] := by
  refine ⟨fun q hq document n => ?_, fun env text q hq op a b hmem anchor ss hquery => ?_⟩
  · have hwords (bound : Nat) (hb : bound < 2 ^ 62) (hd : document.ArraysWithin bound)
        (hn : n.value.ArraysWithin bound) (hi : ∀ i, .child [.index i] ∈ q.segments →
          Word.Holds i) : Segment.runAll? document [n] q.segments =
            some (Segment.applyAll document [n] q.segments) := by
      have hfits := Segment.allFitWords_of_isSingular hq hi bound
      have hyields := Segment.runAll?_yields (p := True) (fun _ => hb) (fun _ => hd)
        (fun _ => hfits) [n] (fun _ m hm => List.mem_singleton.mp hm ▸ hn)
      exact hyields.eq_some trivial
    rw [Segment.stepsExist_iff hq]
    rcases Segment.finds_or_not hq document n with ⟨l, w, hl, hone⟩ | ⟨hnot, hnone⟩
    · refine ⟨by simp [hone], iff_of_true (by simp [hone]) ⟨l, w, hl⟩, fun m hm => ?_, hwords⟩
      rw [hone, List.mem_singleton] at hm
      exact ⟨l, hm ▸ hl, congrArg Node.location hm⟩
    · exact ⟨by simp [hnone], iff_of_false (by simp [hnone]) hnot, by simp [hnone], hwords⟩
  · obtain ⟨t, ht⟩ :=
      Segment.hasType_of_mem_allExprs (Environment.compile_iff.mp hq).2.2.1 hmem
    exact fun document n =>
      Expr.value?_query_eq_none (Expr.isSingular_of_compare ht hquery) document n anchor

/-- The last item of a member, and the operand in the filter of a compiled query. -/
theorem applyAll_singular_last :
    let q : Query := ⟨[.child [.name "a"], .child [.index (-1)]]⟩
    let document := Json.object [("a", .array [.null, .bool true])]
    let operand : List Segment := [.child [.name "b"]]
    Segment.StepsExist document q.segments ∧ q.evaluate? document = some (q.evaluate document) ∧
      (∀ m ∈ q.evaluate document,
        ∃ l, Segment.Leads document q.segments l m.value ∧ m.location = l) ∧
      ∀ n : Node, (Expr.query .current operand).value? document n = none ↔
        Segment.applyAll document [n] operand = [] := by
  intro q document operand
  obtain ⟨hsingular, hcompiled⟩ := applyAll_singular
  obtain ⟨-, hone, hleads, hwords⟩ := hsingular q rfl document (.root document)
  have hwithin : document.ArraysWithin 2 := by
    simp [document, Json.ArraysWithin, Json.ItemsWithin, Json.MembersWithin]
  have hindices : ∀ i, .child [.index i] ∈ q.segments → Word.Holds i := by
    rintro i (_ | ⟨_, _ | ⟨_, hi⟩⟩)
    · decide
    · cases hi
  refine ⟨hone.mp (by cbv), hwords 2 (by decide) hwithin hwithin hindices, hleads, fun n => ?_⟩
  exact hcompiled .default _ _ Environment.sample_compiles .greater _ _ (.head _) .current operand
    (.inl rfl) document n

end Query
end JsonQuery
