import JsonQuery.Proofs.Evaluation.Simulation

namespace JsonQuery

mutual

/-- The functions that are called, at any depth, are those that a registry has under their names,
and no literal has two members of one name. -/
def Selector.BuiltOver (r : Registry) : Selector → Prop
  | .filter e => e.BuiltOver r
  | _ => True

def Selector.AllBuiltOver (r : Registry) : List Selector → Prop
  | [] => True
  | s :: ss => s.BuiltOver r ∧ Selector.AllBuiltOver r ss

def Segment.BuiltOver (r : Registry) : Segment → Prop
  | .child ss | .descendant ss => Selector.AllBuiltOver r ss

def Segment.AllBuiltOver (r : Registry) : List Segment → Prop
  | [] => True
  | s :: ss => s.BuiltOver r ∧ Segment.AllBuiltOver r ss

def Expr.BuiltOver (r : Registry) : Expr → Prop
  | .logical _ a b | .compare _ a b => a.BuiltOver r ∧ b.BuiltOver r
  | .not a | .paren a => a.BuiltOver r
  | .exists _ ss | .query _ ss => Segment.AllBuiltOver r ss
  | .call f args => r.lookup f.name = some f ∧ Expr.AllBuiltOver r args
  | .literal v => v.UniqueNames

def Expr.AllBuiltOver (r : Registry) : List Expr → Prop
  | [] => True
  | e :: es => e.BuiltOver r ∧ Expr.AllBuiltOver r es

end

def Query.BuiltOver (r : Registry) (q : Query) : Prop := Segment.AllBuiltOver r q.segments

/-- A registry has one function of a name. -/
theorem Registry.eq_of_agrees {r : Registry} {f g : Extension} (hf : r.lookup f.name = some f)
    (hg : r.lookup g.name = some g) (h : f.agrees g = true) : f = g := by
  have hname : f.name = g.name := by simp_all [Extension.agrees]
  rw [hname, hg] at hf
  exact (Option.some.inj hf).symm

namespace Json

/-- Equal, or equal as literals are. -/
def Interchangeable (v w : Json) : Prop :=
  v = w ∨ v.UniqueNames ∧ w.UniqueNames ∧ v.identical w = true

theorem alike_of_identical {v w : Json} (h : v.identical w = true) : v.Alike w := by
  have htop := (equalBy_iff.mp h).1
  cases v <;> cases w <;> simp only [equalTop, beq_iff_eq, Bool.false_eq_true] at htop
  · exact .refl _
  · rw [htop]
    exact .refl _
  · exact .number htop
  · rw [htop]
    exact .refl _
  · exact .array htop
  · exact .object htop

theorem Interchangeable.child? {v w : Json} (h : v.Interchangeable w) (step : Step) :
    Option.Rel Interchangeable (v.child? step) (w.child? step) := by
  rcases h with rfl | ⟨hv, hw, h⟩
  · cases v.child? step with
    | none => exact .none
    | some a => exact .some (.inl rfl)
  · cases ha : v.child? step with
    | none =>
      cases hb : w.child? step with
      | none => exact .none
      | some b =>
        obtain ⟨a, ha', -⟩ := exists_child_of_equalBy hv hw h hb
        rw [ha] at ha'
        cases ha'
    | some a =>
      obtain ⟨b, hb, hab⟩ := (equalBy_iff.mp h).2 step a ((mem_children_iff hv).mpr ha)
      rw [hb]
      exact .some (.inr ⟨uniqueNames_child hv ha, uniqueNames_child hw hb, hab⟩)

theorem interchange_interchangeable : Interchange Interchangeable where
  alike h := by
    rcases h with rfl | ⟨-, -, h⟩
    · exact .refl _
    · exact alike_of_identical h
  forth h := by
    rcases h with rfl | h
    · exact fun step a ha => ⟨a, ha, .inl rfl⟩
    · exact exists_child_of_rel h.1 h.2.1 (Interchangeable.child? (.inr h))
  back h := by
    rcases h with rfl | h
    · exact fun step b hb => ⟨b, hb, .inl rfl⟩
    · intro step b hb
      exact exists_child_of_rel h.2.1 h.1
        (fun step => rel_flip (Interchangeable.child? (.inr h) step)) step b hb
  child? := Interchangeable.child?

end Json

namespace Simulation

/-- Evaluation of two queries on one document, with literals that can be interchanged. -/
def literals : Simulation where
  value := Json.Interchangeable
  node := Eq
  nodes := Eq
  primitive _ := .inl rfl
  alike := Json.interchange_interchangeable.alike
  equalValue := Json.interchange_interchangeable.equalBy_eq Number.respectsIdentical_equalValue
  value_of_node h := .inl (congrArg Node.value h)
  children h := congrArg Node.children h
  child? := by
    rintro n _ rfl step
    cases n.child? step with
    | none => exact .none
    | some c => exact .some rfl
  nil := rfl
  singleton := List.singleton_inj
  append h h' := by rw [h, h']
  flatMap := by
    rintro ns _ f g rfl hfg
    exact List.flatMap_congr (fun n hn => hfg n hn n rfl)
  length h := congrArg List.length h

variable {document : Json} {r : Registry}

section Trees

-- The induction is on the first tree. The second has its shape, or they would not be the same.
mutual

theorem selects_same (hr : literals.RespectsAll r) : ∀ {s s' : Selector}, s.BuiltOver r →
    s'.BuiltOver r → s.same s' = true → literals.Selects document document s s'
  | .name a, s', _, _, h => by
    cases s' with
    | name b =>
      obtain rfl : a = b := by simpa [Selector.same] using h
      exact selects_name a
    | _ => simp [Selector.same] at h
  | .wildcard, s', _, _, h => by
    cases s' with
    | wildcard => exact selects_wildcard
    | _ => simp [Selector.same] at h
  | .index i, s', _, _, h => by
    cases s' with
    | index j =>
      obtain rfl : i = j := by simpa [Selector.same] using h
      exact selects_index i
    | _ => simp [Selector.same] at h
  | .slice a b c, s', _, _, h => by
    cases s' with
    | slice d e f =>
      obtain ⟨⟨rfl, rfl⟩, rfl⟩ : (a = d ∧ b = e) ∧ c = f := by simpa [Selector.same] using h
      exact selects_slice a b c
    | _ => simp [Selector.same] at h
  | .filter e, s', hu, hu', h => by
    cases s' with
    | filter e' =>
      rw [Selector.same] at h
      exact selects_filter (agrees_same hr hu hu' h).holds
    | _ => simp [Selector.same] at h

theorem selects_sameAll (hr : literals.RespectsAll r) : ∀ {ss ss' : List Selector},
    Selector.AllBuiltOver r ss → Selector.AllBuiltOver r ss' → Selector.sameAll ss ss' = true →
      List.Forall₂ (literals.Selects document document) ss ss'
  | [], ss', _, _, h => by
    cases ss' with
    | nil => exact .nil
    | cons s' ss' => simp [Selector.sameAll] at h
  | s :: ss, ss', hu, hu', h => by
    cases ss' with
    | nil => simp [Selector.sameAll] at h
    | cons s' ss' =>
      rw [Selector.sameAll, Bool.and_eq_true] at h
      exact .cons (selects_same hr hu.1 hu'.1 h.1) (selects_sameAll hr hu.2 hu'.2 h.2)

theorem applies_same (hr : literals.RespectsAll r) : ∀ {s s' : Segment}, s.BuiltOver r →
    s'.BuiltOver r → s.same s' = true → literals.Applies document document s s'
  | .child ss, s', hu, hu', h => by
    cases s' with
    | child ss' =>
      rw [Segment.same] at h
      exact applies_child (selects_sameAll hr hu hu' h)
    | descendant ss' => simp [Segment.same] at h
  | .descendant ss, s', hu, hu', h => by
    cases s' with
    | child ss' => simp [Segment.same] at h
    | descendant ss' =>
      rw [Segment.same] at h
      exact applies_descendant (selects_sameAll hr hu hu' h)

theorem applies_sameAll (hr : literals.RespectsAll r) : ∀ {ss ss' : List Segment},
    Segment.AllBuiltOver r ss → Segment.AllBuiltOver r ss' → Segment.sameAll ss ss' = true →
      List.Forall₂ (literals.Applies document document) ss ss'
  | [], ss', _, _, h => by
    cases ss' with
    | nil => exact .nil
    | cons s' ss' => simp [Segment.sameAll] at h
  | s :: ss, ss', hu, hu', h => by
    cases ss' with
    | nil => simp [Segment.sameAll] at h
    | cons s' ss' =>
      rw [Segment.sameAll, Bool.and_eq_true] at h
      exact .cons (applies_same hr hu.1 hu'.1 h.1) (applies_sameAll hr hu.2 hu'.2 h.2)

theorem agrees_same (hr : literals.RespectsAll r) : ∀ {e e' : Expr}, e.BuiltOver r →
    e'.BuiltOver r → e.same e' = true → literals.Agrees document document e e'
  | .logical o a b, e', hu, hu', h => by
    cases e' with
    | logical p c d =>
      obtain ⟨⟨rfl, ha⟩, hb⟩ : (o = p ∧ a.same c = true) ∧ b.same d = true := by
        simpa [Expr.same] using h
      exact agrees_logical (agrees_same hr hu.1 hu'.1 ha) (agrees_same hr hu.2 hu'.2 hb)
    | _ => simp [Expr.same] at h
  | .not a, e', hu, hu', h => by
    cases e' with
    | not c =>
      rw [Expr.same] at h
      exact agrees_not (agrees_same hr hu hu' h)
    | _ => simp [Expr.same] at h
  | .paren a, e', hu, hu', h => by
    cases e' with
    | paren c =>
      rw [Expr.same] at h
      exact agrees_paren (agrees_same hr hu hu' h)
    | _ => simp [Expr.same] at h
  | .compare o a b, e', hu, hu', h => by
    cases e' with
    | compare p c d =>
      obtain ⟨⟨rfl, ha⟩, hb⟩ : (o = p ∧ a.same c = true) ∧ b.same d = true := by
        simpa [Expr.same] using h
      exact agrees_compare (agrees_same hr hu.1 hu'.1 ha) (agrees_same hr hu.2 hu'.2 hb)
    | _ => simp [Expr.same] at h
  | .exists anchor ss, e', hu, hu', h => by
    cases e' with
    | «exists» anchor' ss' =>
      obtain ⟨rfl, hss⟩ : anchor = anchor' ∧ Segment.sameAll ss ss' = true := by
        simpa [Expr.same] using h
      exact agrees_exists (.inl rfl) (applies_sameAll hr hu hu' hss)
    | _ => simp [Expr.same] at h
  | .query anchor ss, e', hu, hu', h => by
    cases e' with
    | query anchor' ss' =>
      obtain ⟨rfl, hss⟩ : anchor = anchor' ∧ Segment.sameAll ss ss' = true := by
        simpa [Expr.same] using h
      exact agrees_query (.inl rfl) (applies_sameAll hr hu hu' hss)
    | _ => simp [Expr.same] at h
  | .call f args, e', hu, hu', h => by
    cases e' with
    | call g args' =>
      obtain ⟨hagrees, hargs⟩ : f.agrees g = true ∧ Expr.sameAll args args' = true := by
        simpa [Expr.same] using h
      obtain rfl := Registry.eq_of_agrees hu.1 hu'.1 hagrees
      exact agrees_call (hr f.name f hu.1) (agrees_sameAll hr hu.2 hu'.2 hargs)
    | _ => simp [Expr.same] at h
  | .literal v, e', hu, hu', h => by
    cases e' with
    | literal w =>
      rw [Expr.same] at h
      exact agrees_literal (.inr ⟨hu, hu', h⟩)
    | _ => simp [Expr.same] at h

theorem agrees_sameAll (hr : literals.RespectsAll r) : ∀ {es es' : List Expr},
    Expr.AllBuiltOver r es → Expr.AllBuiltOver r es' → Expr.sameAll es es' = true →
      List.Forall₂ (literals.Agrees document document) es es'
  | [], es', _, _, h => by
    cases es' with
    | nil => exact .nil
    | cons e' es' => simp [Expr.sameAll] at h
  | e :: es, es', hu, hu', h => by
    cases es' with
    | nil => simp [Expr.sameAll] at h
    | cons e' es' =>
      rw [Expr.sameAll, Bool.and_eq_true] at h
      exact .cons (agrees_same hr hu.1 hu'.1 h.1) (agrees_sameAll hr hu.2 hu'.2 h.2)

end

end Trees

end Simulation

namespace Query

/-- Queries that are the same select the same, though their literals may differ in the order of
members and in the signs of zeros. -/
theorem evaluate_same {q q' : Query} (hq : q.BuiltOver .standard)
    (hq' : q'.BuiltOver .standard) (h : q.same q' = true) (document : Json) :
    q.evaluate document = q'.evaluate document := by
  have hsegments : List.Forall₂ (Simulation.literals.Applies document document) q.segments
      q'.segments := Simulation.applies_sameAll Simulation.respects_standard hq hq' h
  exact Simulation.applies_all hsegments rfl

/-- A literal as an operand and as an argument, its members and zeros written in two ways. -/
theorem evaluate_same_zeros :
    let test (v : Json) : Query := ⟨[.descendant [.filter (.logical .and
      (.compare .equal (.query .current []) (.literal v))
      (.compare .less (.call .length [.literal v]) (.literal (.number (.int 3)))))]]⟩
    let q := test (.object [("a", .number (.float (.zero false))), ("b", .null)])
    let q' := test (.object [("b", .null), ("a", .number (.float (.zero true)))])
    let document := Json.array [.object [("b", .null), ("a", .number (.int 0))], .null]
    q.BuiltOver .standard ∧ q'.BuiltOver .standard ∧ q.same q' = true ∧
      q.evaluate document = q'.evaluate document := by
  intro test q q' document
  have htest (v : Json) (hv : v.UniqueNames) : (test v).BuiltOver .standard :=
    ⟨⟨⟨⟨trivial, hv⟩, ⟨rfl, hv, trivial⟩, trivial⟩, trivial⟩, trivial⟩
  have hq : q.BuiltOver .standard := htest _ (by simp [Json.UniqueNames, Json.UniqueMembers])
  have hq' : q'.BuiltOver .standard := htest _ (by simp [Json.UniqueNames, Json.UniqueMembers])
  have hsame : q.same q' = true := by cbv
  exact ⟨hq, hq', hsame, evaluate_same hq hq' hsame document⟩

end Query
end JsonQuery
