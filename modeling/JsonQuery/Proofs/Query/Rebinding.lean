import JsonQuery.Proofs.Grammar.Typing

namespace JsonQuery

mutual

/-- The same tree with other functions in the calls. -/
def Selector.rebind (swap : Extension → Extension) : Selector → Selector
  | .filter e => .filter (e.rebind swap)
  | s => s

def Selector.rebindAll (swap : Extension → Extension) : List Selector → List Selector
  | [] => []
  | s :: ss => s.rebind swap :: Selector.rebindAll swap ss

def Segment.rebind (swap : Extension → Extension) : Segment → Segment
  | .child ss => .child (Selector.rebindAll swap ss)
  | .descendant ss => .descendant (Selector.rebindAll swap ss)

def Segment.rebindAll (swap : Extension → Extension) : List Segment → List Segment
  | [] => []
  | s :: ss => s.rebind swap :: Segment.rebindAll swap ss

def Expr.rebind (swap : Extension → Extension) : Expr → Expr
  | .logical op a b => .logical op (a.rebind swap) (b.rebind swap)
  | .not a => .not (a.rebind swap)
  | .paren a => .paren (a.rebind swap)
  | .compare op a b => .compare op (a.rebind swap) (b.rebind swap)
  | .exists anchor ss => .exists anchor (Segment.rebindAll swap ss)
  | .query anchor ss => .query anchor (Segment.rebindAll swap ss)
  | .call f args => .call (swap f) (Expr.rebindAll swap args)
  | .literal v => .literal v

def Expr.rebindAll (swap : Extension → Extension) : List Expr → List Expr
  | [] => []
  | e :: es => e.rebind swap :: Expr.rebindAll swap es

end

def Query.rebind (swap : Extension → Extension) (q : Query) : Query :=
  ⟨Segment.rebindAll swap q.segments⟩

section Identity

mutual

theorem Selector.rebind_id : ∀ s : Selector, s.rebind id = s
  | .name _ | .wildcard | .index _ | .slice _ _ _ => rfl
  | .filter e => by rw [Selector.rebind, Expr.rebind_id e]

theorem Selector.rebindAll_id : ∀ ss : List Selector, Selector.rebindAll id ss = ss
  | [] => rfl
  | s :: ss => by rw [Selector.rebindAll, Selector.rebind_id s, Selector.rebindAll_id ss]

theorem Segment.rebind_id : ∀ s : Segment, s.rebind id = s
  | .child ss | .descendant ss => by rw [Segment.rebind, Selector.rebindAll_id ss]

theorem Segment.rebindAll_id : ∀ ss : List Segment, Segment.rebindAll id ss = ss
  | [] => rfl
  | s :: ss => by rw [Segment.rebindAll, Segment.rebind_id s, Segment.rebindAll_id ss]

theorem Expr.rebind_id : ∀ e : Expr, e.rebind id = e
  | .logical _ a b | .compare _ a b => by rw [Expr.rebind, Expr.rebind_id a, Expr.rebind_id b]
  | .not a | .paren a => by rw [Expr.rebind, Expr.rebind_id a]
  | .exists _ ss | .query _ ss => by rw [Expr.rebind, Segment.rebindAll_id ss]
  | .call f args => by rw [Expr.rebind, Expr.rebindAll_id args, id]
  | .literal _ => rfl

theorem Expr.rebindAll_id : ∀ es : List Expr, Expr.rebindAll id es = es
  | [] => rfl
  | e :: es => by rw [Expr.rebindAll, Expr.rebind_id e, Expr.rebindAll_id es]

end

theorem Query.rebind_id (q : Query) : q.rebind id = q := by
  rw [Query.rebind, Segment.rebindAll_id]

end Identity

/-- Functions in place of others that declare the same. -/
def Extension.Preserves (swap : Extension → Extension) : Prop :=
  ∀ f : Extension, f.agrees (swap f) = true

namespace Extension

theorem agrees_iff {f g : Extension} :
    f.agrees g = true ↔ f.name = g.name ∧ f.params = g.params ∧ f.returns = g.returns := by
  simp [agrees, and_assoc]

theorem preserves_id : Preserves id := fun _ => agrees_iff.mpr ⟨rfl, rfl, rfl⟩

variable {swap : Extension → Extension}

theorem Preserves.name_eq (h : Preserves swap) (f : Extension) : (swap f).name = f.name :=
  (agrees_iff.mp (h f)).1.symm

theorem Preserves.params_eq (h : Preserves swap) (f : Extension) : (swap f).params = f.params :=
  (agrees_iff.mp (h f)).2.1.symm

theorem Preserves.returns_eq (h : Preserves swap) (f : Extension) :
    (swap f).returns = f.returns := (agrees_iff.mp (h f)).2.2.symm

end Extension

section Checks

variable {swap : Extension → Extension}

theorem Segment.isSingular_rebind (s : Segment) : (s.rebind swap).isSingular = s.isSingular := by
  cases s with
  | descendant ss => rfl
  | child ss =>
    rcases ss with _ | ⟨s, _ | ⟨s', ss⟩⟩
    · rfl
    · cases s <;> rfl
    · rfl

theorem Segment.all_isSingular_rebind (ss : List Segment) :
    (Segment.rebindAll swap ss).all Segment.isSingular = ss.all Segment.isSingular := by
  induction ss with
  | nil => rfl
  | cons s ss ih =>
    rw [Segment.rebindAll, List.all_cons, List.all_cons, Segment.isSingular_rebind, ih]

variable (h : Extension.Preserves swap)
include h

theorem Expr.asTest_rebind (e : Expr) :
    (e.rebind swap).asTest = e.asTest.map (Expr.rebind swap) := by
  cases e with
  | call f args =>
    simp only [Expr.rebind, Expr.asTest, h.returns_eq, h.name_eq]
    split <;> rfl
  | _ => rfl

theorem Expr.comparisonFault?_rebind (e : Expr) :
    (e.rebind swap).comparisonFault? = e.comparisonFault? := by
  cases e with
  | call f args => simp only [Expr.rebind, Expr.comparisonFault?, h.returns_eq, h.name_eq]
  | query anchor ss =>
    simp only [Expr.rebind, Expr.comparisonFault?, Segment.all_isSingular_rebind]
  | _ => rfl

theorem Expr.fits_rebind (param : ExprType) (e : Expr) :
    (e.rebind swap).fits param = e.fits param := by
  cases e with
  | call f args => cases param <;> simp only [Expr.rebind, Expr.fits, h.returns_eq]
  | query anchor ss =>
    cases param <;> simp only [Expr.rebind, Expr.fits, Segment.all_isSingular_rebind]
  | _ => cases param <;> rfl

theorem Expr.asArgument_rebind (function : String) (position : Nat) (param : ExprType) (e : Expr) :
    (e.rebind swap).asArgument function position param =
      (e.asArgument function position param).map (Expr.rebind swap) := by
  have hfits : (if fits param (e.rebind swap) then .ok (e.rebind swap)
      else .error (.argumentType function position param)) =
      (if fits param e then .ok e else .error (.argumentType function position param) :
        Except TypeFault Expr).map (Expr.rebind swap) := by
    rw [Expr.fits_rebind h]
    split <;> rfl
  unfold asArgument
  cases e with
  | query anchor ss =>
    cases param with
    | logical => rfl
    | _ => exact hfits
  | _ => cases param <;> exact hfits

end Checks

theorem Json.identical_self {v : Json} (h : v.IsPrimitive) : v.identical v = true := by
  cases v with
  | null => rfl
  | bool b => simp [identical, equalBy]
  | number x => cases x <;> simp [identical, equalBy, Number.identical]
  | string s => simp [identical, equalBy]
  | array items => cases h
  | object members => cases h

section Same

variable {swap : Extension → Extension} {r : Registry}

mutual

/-- A well-typed tree is the same with functions that declare what its own do. -/
theorem Selector.same_rebind (h : Extension.Preserves swap) : ∀ {s : Selector},
    s.WellTyped r → s.same (s.rebind swap) = true
  | .name _, _ | .wildcard, _ | .index _, _ | .slice _ _ _, _ => by
    simp [Selector.same, Selector.rebind]
  | .filter e, ht => by
    rw [Selector.rebind, Selector.same]
    exact Expr.same_rebind h ht

theorem Selector.sameAll_rebind (h : Extension.Preserves swap) : ∀ {ss : List Selector},
    Selector.AllWellTyped r ss → Selector.sameAll ss (Selector.rebindAll swap ss) = true
  | [], _ => by rw [Selector.rebindAll, Selector.sameAll]
  | s :: ss, ht => by
    rw [Selector.rebindAll, Selector.sameAll, Selector.same_rebind h ht.1,
      Selector.sameAll_rebind h ht.2]
    rfl

theorem Segment.same_rebind (h : Extension.Preserves swap) : ∀ {s : Segment},
    s.WellTyped r → s.same (s.rebind swap) = true
  | .child ss, ht | .descendant ss, ht => by
    rw [Segment.rebind, Segment.same]
    exact Selector.sameAll_rebind h ht.2

theorem Segment.sameAll_rebind (h : Extension.Preserves swap) : ∀ {ss : List Segment},
    Segment.AllWellTyped r ss → Segment.sameAll ss (Segment.rebindAll swap ss) = true
  | [], _ => by rw [Segment.rebindAll, Segment.sameAll]
  | s :: ss, ht => by
    rw [Segment.rebindAll, Segment.sameAll, Segment.same_rebind h ht.1,
      Segment.sameAll_rebind h ht.2]
    rfl

theorem Expr.same_rebind (h : Extension.Preserves swap) : ∀ {e : Expr} {t : ExprType},
    e.HasType r t → e.same (e.rebind swap) = true
  | .logical _ a b, _, ⟨_, ha, hb⟩ | .compare _ a b, _, ⟨_, ha, hb⟩ => by
    simp [Expr.rebind, Expr.same, Expr.same_rebind h ha, Expr.same_rebind h hb]
  | .not a, _, ⟨_, ha⟩ | .paren a, _, ⟨_, ha⟩ => by
    rw [Expr.rebind, Expr.same]
    exact Expr.same_rebind h ha
  | .exists _ ss, _, ⟨_, hss⟩ | .query _ ss, _, ⟨_, hss⟩ => by
    simp [Expr.rebind, Expr.same, Segment.sameAll_rebind h hss]
  | .call f args, _, ⟨_, _, hargs⟩ => by
    rw [Expr.rebind, Expr.same, h f, Expr.sameAll_rebind h hargs]
    rfl
  | .literal v, _, ⟨_, hv⟩ => by
    rw [Expr.rebind, Expr.same]
    exact Json.identical_self hv

theorem Expr.sameAll_rebind (h : Extension.Preserves swap) :
    ∀ {es : List Expr} {ts : List ExprType}, Expr.HaveTypes r es ts →
      Expr.sameAll es (Expr.rebindAll swap es) = true
  | [], _, _ => by rw [Expr.rebindAll, Expr.sameAll]
  | e :: es, [], ht => ht.elim
  | e :: es, t :: ts, ht => by
    rw [Expr.rebindAll, Expr.sameAll, Expr.same_rebind h ht.1, Expr.sameAll_rebind h ht.2]
    rfl

end

end Same

theorem Segment.sameAll_self {r : Registry} {ss : List Segment} (h : Segment.AllWellTyped r ss) :
    Segment.sameAll ss ss = true := by
  have hsame := Segment.sameAll_rebind Extension.preserves_id h
  rwa [Segment.rebindAll_id] at hsame

end JsonQuery
