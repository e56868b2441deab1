import JsonQuery.Json.Comparison
import JsonQuery.Proofs.Json.Reordered

namespace JsonQuery
namespace Number

theorem identical_self (a : Number) : a.identical a = true := by
  cases a <;> simp [identical]

theorem order_beyond {a b : Number} (h : a.signed? = none ∨ b.signed? = none) :
    order a b = a.orderBeyond b := by
  unfold order
  rcases h with h | h
  · rw [h]
  · rw [h]
    cases a.signed? <;> rfl

theorem compare_natCast (m n : Nat) : compare (m : Int) n = compare m n := by
  rw [← cmp_eq_compare, ← cmp_eq_compare]
  exact Nat.strictMono_cast.cmp_map_eq m n

/-- Integers compare exactly, in whichever words they are compared. -/
@[simp] theorem order_int (a b : Int) : order (.int a) (.int b) = compare a b := by
  by_cases hsigned : a < 2 ^ 63 ∧ b < 2 ^ 63
  · simp only [order, signed?, if_pos hsigned.1, if_pos hsigned.2]
  · have hnone : signed? (.int a) = none ∨ signed? (.int b) = none := by
      rcases not_and_or.mp hsigned with ha | hb
      · exact .inl (if_neg ha)
      · exact .inr (if_neg hb)
    rw [order_beyond hnone]
    cases a with
    | ofNat m =>
      cases b with
      | ofNat n => exact (compare_natCast m n).symm
      | negSucc n =>
        have hgt : compare (Int.ofNat m) (Int.negSucc n) = .gt := compare_gt_iff_gt.mpr (by omega)
        exact hgt.symm
    | negSucc m =>
      cases b with
      | ofNat n =>
        have hlt : compare (Int.negSucc m) (Int.ofNat n) = .lt := compare_lt_iff_lt.mpr (by omega)
        exact hlt.symm
      -- Two negative integers are in signed words.
      | negSucc n => omega

@[simp] theorem order_float_left (x : Binary64) (b : Number) :
    order (.float x) b = compare x.scaled b.scaled := by
  rw [order_beyond (.inl rfl)]
  rfl

@[simp] theorem order_float_right (a : Number) (y : Binary64) :
    order a (.float y) = compare a.scaled y.scaled := by
  rw [order_beyond (.inr rfl)]
  cases a with
  | int i => cases i <;> rfl
  | float x => rfl

/-- The order does not tell the two zeros apart, and no other numbers are written alike. -/
theorem order_identical {a a' b b' : Number} (ha : a.identical a' = true)
    (hb : b.identical b' = true) : order a b = order a' b' := by
  cases a <;> cases a' <;> cases b <;> cases b' <;> simp_all [identical, scaled]

/-- An equality of numbers that does not tell numbers apart that are written alike. -/
def RespectsIdentical (same : Number → Number → Bool) : Prop :=
  ∀ a a' b b', a.identical a' = true → b.identical b' = true → same a b = same a' b'

theorem respectsIdentical_equalValue : RespectsIdentical equalValue := by
  intro a a' b b' ha hb
  rw [equalValue, equalValue, order_identical ha hb]

end Number

namespace Json

variable {same : Number → Number → Bool}

section Tops

/-- Two equal values, two numbers written alike, or two containers of one kind and size. -/
inductive Alike : Json → Json → Prop
  | refl (v : Json) : Alike v v
  | number {a b : Number} (h : a.identical b = true) : Alike (.number a) (.number b)
  | array {items others : List Json} (h : items.length = others.length) :
      Alike (.array items) (.array others)
  | object {members others : List (String × Json)} (h : members.length = others.length) :
      Alike (.object members) (.object others)

theorem Reordered.alike {v w : Json} (h : v.Reordered w) : v.Alike w := by
  cases v with
  | array items =>
    obtain ⟨others, rfl, hitems⟩ := h
    exact .array (itemsReordered_iff.mp hitems).length_eq
  | object members =>
    obtain ⟨renewed, others, rfl, hmembers, hperm⟩ := h
    exact .object ((membersReordered_iff.mp hmembers).length_eq.trans hperm.length_eq)
  | null | bool _ | number _ | string _ =>
    obtain rfl := h
    exact .refl _

/-- The order of values looks at no children either. -/
theorem Alike.less_eq {v v' w w' : Json} (hv : v.Alike v') (hw : w.Alike w') :
    Comparison.less (some v) (some w) = Comparison.less (some v') (some w') := by
  cases hv with
  | refl v =>
    cases hw with
    | refl w => rfl
    | number h =>
      cases v with
      | number a => simp only [Comparison.less, Number.order_identical a.identical_self h]
      | _ => rfl
    | array _ | object _ => cases v <;> rfl
  | number h =>
    cases hw with
    | refl w =>
      cases w with
      | number b => simp only [Comparison.less, Number.order_identical h b.identical_self]
      | _ => rfl
    | number h' => simp only [Comparison.less, Number.order_identical h h']
    | array _ | object _ => rfl
  | array _ | object _ => rfl

/-- Equality without a look at the children. -/
def equalTop (same : Number → Number → Bool) : Json → Json → Bool
  | .null, .null => true
  | .bool a, .bool b => a == b
  | .number a, .number b => same a b
  | .string a, .string b => a == b
  | .array as, .array bs => as.length == bs.length
  | .object as, .object bs => as.length == bs.length
  | _, _ => false

theorem equalTop_alike (hsame : Number.RespectsIdentical same) {v v' w w' : Json}
    (hv : v.Alike v') (hw : w.Alike w') : equalTop same v w = equalTop same v' w' := by
  cases hv with
  | refl v =>
    cases hw with
    | refl w => rfl
    | number h =>
      cases v with
      | number a => exact hsame _ _ _ _ a.identical_self h
      | _ => rfl
    | array h | object h => cases v <;> simp [equalTop, h]
  | number h =>
    cases hw with
    | refl w =>
      cases w with
      | number b => exact hsame _ _ _ _ h b.identical_self
      | _ => rfl
    | number h' => exact hsame _ _ _ _ h h'
    | array _ | object _ => rfl
  | array h =>
    cases hw with
    | refl w => cases w <;> simp [equalTop, h]
    | array h' => simp [equalTop, h, h']
    | number _ | object _ => rfl
  | object h =>
    cases hw with
    | refl w => cases w <;> simp [equalTop, h]
    | number _ | array _ => rfl
    | object h' => simp [equalTop, h, h']

theorem equalTop_self (hsame : ∀ a, same a a = true) (v : Json) : equalTop same v v = true := by
  cases v <;> simp [equalTop, hsame]

theorem equalTop_comm (hsame : ∀ a b, same a b = same b a) (v w : Json) :
    equalTop same v w = equalTop same w v := by
  cases v <;> cases w <;> simp only [equalTop, hsame, Bool.beq_comm]

theorem length_children_of_equalTop {v w : Json} (h : equalTop same v w = true) :
    v.children.length = w.children.length := by
  cases v <;> cases w <;> simp_all [equalTop, children]

end Tops

section Children

theorem equalItems_iff {as bs : List Json} : equalItems same as bs = true ↔
    as.length = bs.length ∧
      ∀ (i : Nat) a, as[i]? = some a → ∃ b, bs[i]? = some b ∧ equalBy same a b = true := by
  induction as generalizing bs with
  | nil => cases bs <;> simp [equalItems]
  | cons a as ih =>
    cases bs with
    | nil => simp [equalItems]
    | cons b bs =>
      simp only [equalItems, Bool.and_eq_true, ih, List.length_cons, Nat.add_right_cancel_iff]
      constructor
      · intro hleft
        rcases hleft with ⟨hab, hlength, hrest⟩
        refine ⟨hlength, fun i a' ha => ?_⟩
        cases i with
        | zero => exact ⟨b, rfl, by simpa [← Option.some.inj ha] using hab⟩
        | succ i => exact hrest i a' (by simpa using ha)
      · intro hright
        rcases hright with ⟨hlength, hall⟩
        obtain ⟨_, hb, hab⟩ := hall 0 a rfl
        refine ⟨Option.some.inj hb ▸ hab, hlength, fun i a' ha => ?_⟩
        simpa using hall (i + 1) a' (by simpa using ha)

theorem equalMembers_iff {as bs : List (String × Json)} : equalMembers same as bs = true ↔
    ∀ name a, (name, a) ∈ as → ∃ b, bs.lookup name = some b ∧ equalBy same a b = true := by
  induction as with
  | nil => simp [equalMembers]
  | cons m as ih =>
    obtain ⟨name, a⟩ := m
    rw [equalMembers, Bool.and_eq_true, ih]
    cases hb : bs.lookup name with
    | none =>
      simp only [Bool.false_eq_true, false_and, false_iff]
      intro hall
      obtain ⟨b, hb', -⟩ := hall name a (by simp)
      rw [hb] at hb'
      cases hb'
    | some b =>
      simp only [List.mem_cons, Prod.mk.injEq]
      constructor
      · intro hleft other c hc
        rcases hc with ⟨rfl, rfl⟩ | hc
        · exact ⟨b, hb, hleft.1⟩
        · exact hleft.2 other c hc
      · intro hall
        refine ⟨?_, fun other c hc => hall other c (.inr hc)⟩
        obtain ⟨b', hb', hequal⟩ := hall name a (.inl ⟨rfl, rfl⟩)
        rw [hb] at hb'
        cases hb'
        exact hequal

/-- Equality child by child, in whatever order the children stand. -/
theorem equalBy_iff {v w : Json} : equalBy same v w = true ↔
    equalTop same v w = true ∧ ∀ step a, (step, a) ∈ v.children →
      ∃ b, w.child? step = some b ∧ equalBy same a b = true := by
  cases v with
  | array as =>
    cases w with
    | array bs =>
      simp only [equalBy, equalTop, equalItems_iff, beq_iff_eq]
      refine and_congr_right' ?_
      constructor
      · intro hall step a ha
        obtain ⟨i, hi, hia⟩ := List.mem_mapIdx.mp ha
        cases hia
        exact hall i _ (List.getElem?_eq_getElem hi)
      · intro hall i a ha
        obtain ⟨hi, rfl⟩ := List.getElem?_eq_some_iff.mp ha
        exact hall (.index i) _ (List.mem_mapIdx.mpr ⟨i, hi, rfl⟩)
    | null | bool _ | number _ | string _ | object _ => simp [equalBy, equalTop]
  | object as =>
    cases w with
    | object bs =>
      simp only [equalBy, equalTop, equalMembers_iff, Bool.and_eq_true]
      refine and_congr_right' ?_
      constructor
      · intro hall step a ha
        obtain ⟨⟨name, b⟩, hm, hstep⟩ := List.mem_map.mp ha
        cases hstep
        exact hall name _ hm
      · intro hall name a ha
        exact hall (.name name) a (List.mem_map.mpr ⟨_, ha, rfl⟩)
    | null | bool _ | number _ | string _ | array _ => simp [equalBy, equalTop]
  | null | bool _ | number _ | string _ => cases w <;> simp [equalBy, equalTop, children]

end Children

section Laws

theorem equalBy_self (hsame : ∀ a, same a a = true) {v : Json} (h : v.UniqueNames) :
    equalBy same v v = true := by
  refine equalBy_iff.mpr ⟨equalTop_self hsame v, fun step a ha => ?_⟩
  have hchild := (mem_children_iff h).mp ha
  exact ⟨a, hchild, equalBy_self hsame (uniqueNames_child h hchild)⟩
termination_by sizeOf v
decreasing_by exact sizeOf_children ha

/-- Equality looks from the left to the right only. With as many children on both sides, none is
left over on the right. -/
theorem exists_child_of_equalBy {v w : Json} (hv : v.UniqueNames) (hw : w.UniqueNames)
    (h : equalBy same v w = true) {step : Step} {b : Json} (hb : w.child? step = some b) :
    ∃ a, v.child? step = some a ∧ equalBy same a b = true := by
  obtain ⟨htop, hchildren⟩ := equalBy_iff.mp h
  have hsubset : v.children.map Prod.fst ⊆ w.children.map Prod.fst := by
    intro other hother
    obtain ⟨⟨_, a⟩, ha, rfl⟩ := List.mem_map.mp hother
    obtain ⟨b', hb', -⟩ := hchildren _ a ha
    exact List.mem_map.mpr ⟨_, (mem_children_iff hw).mpr hb', rfl⟩
  have hlength : (w.children.map Prod.fst).length ≤ (v.children.map Prod.fst).length := by
    simp [length_children_of_equalTop htop]
  have hperm := (List.subperm_of_subset (children_nodup hv) hsubset).perm_of_length_le hlength
  have hmem : step ∈ w.children.map Prod.fst :=
    List.mem_map.mpr ⟨_, (mem_children_iff hw).mpr hb, rfl⟩
  obtain ⟨⟨_, a⟩, ha, rfl⟩ := List.mem_map.mp (hperm.mem_iff.mpr hmem)
  obtain ⟨b', hb', hequal⟩ := hchildren _ a ha
  rw [hb] at hb'
  cases hb'
  exact ⟨a, (mem_children_iff hv).mp ha, hequal⟩

theorem equalBy_symm (hsame : ∀ a b, same a b = same b a) {v w : Json} (hv : v.UniqueNames)
    (hw : w.UniqueNames) (h : equalBy same v w = true) : equalBy same w v = true := by
  refine equalBy_iff.mpr ⟨?_, fun step b hb => ?_⟩
  · rw [equalTop_comm hsame]
    exact (equalBy_iff.mp h).1
  · have hb' := (mem_children_iff hw).mp hb
    obtain ⟨a, ha, hequal⟩ := exists_child_of_equalBy hv hw h hb'
    exact ⟨a, ha, equalBy_symm hsame (uniqueNames_child hv ha) (uniqueNames_child hw hb') hequal⟩
termination_by sizeOf w
decreasing_by exact sizeOf_children hb

theorem equalBy_comm (hsame : ∀ a b, same a b = same b a) {v w : Json} (hv : v.UniqueNames)
    (hw : w.UniqueNames) : equalBy same v w = equalBy same w v := by
  rw [Bool.eq_iff_iff]
  exact ⟨equalBy_symm hsame hv hw, equalBy_symm hsame hw hv⟩

end Laws

section Interchange

/-- Values that can take each other's place: alike, with children behind the same steps that can
take each other's place too. -/
structure Interchange (R : Json → Json → Prop) : Prop where
  alike {v w : Json} : R v w → v.Alike w
  forth {v w : Json} : R v w → ∀ step a, (step, a) ∈ v.children →
    ∃ b, (step, b) ∈ w.children ∧ R a b
  back {v w : Json} : R v w → ∀ step b, (step, b) ∈ w.children →
    ∃ a, (step, a) ∈ v.children ∧ R a b
  child? {v w : Json} : R v w → ∀ step, Option.Rel R (v.child? step) (w.child? step)

variable {R : Json → Json → Prop}

theorem exists_child_of_rel {v w : Json} (hv : v.UniqueNames) (hw : w.UniqueNames)
    (h : ∀ step, Option.Rel R (v.child? step) (w.child? step)) (step : Step) (a : Json)
    (ha : (step, a) ∈ v.children) : ∃ b, (step, b) ∈ w.children ∧ R a b := by
  have hstep := h step
  rw [(mem_children_iff hv).mp ha] at hstep
  generalize hb : w.child? step = found at hstep
  cases hstep with
  | some hab => exact ⟨_, (mem_children_iff hw).mpr hb, hab⟩

theorem rel_flip {α β : Type} {R : α → β → Prop} {x : Option α} {y : Option β}
    (h : Option.Rel R x y) : Option.Rel (flip R) y x := by
  cases h with
  | none => exact .none
  | some h => exact .some h

/-- Equality does not tell apart what can be interchanged. -/
theorem Interchange.equalBy_eq (hR : Interchange R) (hsame : Number.RespectsIdentical same)
    {v v' w w' : Json} (h : R v v') (h' : R w w') : equalBy same v w = equalBy same v' w' := by
  have hchildren (step : Step) (a a' : Json) (ha : (step, a) ∈ v.children) (haa : R a a') :
      (∃ b, w.child? step = some b ∧ equalBy same a b = true) ↔
        ∃ b, w'.child? step = some b ∧ equalBy same a' b = true := by
    have hchild := hR.child? h' step
    generalize w.child? step = found at hchild
    generalize w'.child? step = found' at hchild
    cases hchild with
    | none => simp
    | some hbb => simp [hR.equalBy_eq hsame haa hbb]
  rw [Bool.eq_iff_iff, equalBy_iff, equalBy_iff, equalTop_alike hsame (hR.alike h) (hR.alike h')]
  refine and_congr_right' ?_
  constructor
  · intro hall step a' ha'
    obtain ⟨a, ha, haa⟩ := hR.back h step a' ha'
    exact (hchildren step a a' ha haa).mp (hall step a ha)
  · intro hall step a ha
    obtain ⟨a', ha', haa⟩ := hR.forth h step a ha
    exact (hchildren step a a' ha haa).mpr (hall step a' ha')
termination_by sizeOf v
decreasing_by exact sizeOf_children ha

theorem interchange_reordered : Interchange (fun v w => v.UniqueNames ∧ v.Reordered w) := by
  have hchild {v w : Json} (h : v.UniqueNames ∧ v.Reordered w) (step : Step) :
      Option.Rel (fun v w => v.UniqueNames ∧ v.Reordered w) (v.child? step) (w.child? step) := by
    have hrel := h.2.child? h.1 step
    have hunique (a : Json) (ha : v.child? step = some a) := uniqueNames_child h.1 ha
    generalize v.child? step = found at hrel hunique
    generalize w.child? step = found' at hrel
    cases hrel with
    | none => exact .none
    | some hab => exact .some ⟨hunique _ rfl, hab⟩
  have hother {v w : Json} (h : v.UniqueNames ∧ v.Reordered w) : w.UniqueNames :=
    uniqueNames_reordered h.1 h.2
  exact {
    alike := fun h => h.2.alike
    forth := fun h => exists_child_of_rel h.1 (hother h) (hchild h)
    back := fun h => exists_child_of_rel (hother h) h.1 (fun step => rel_flip (hchild h step))
    child? := hchild }

/-- Equality does not see the order of members. -/
theorem equalBy_reordered (hsame : Number.RespectsIdentical same) {v v' w w' : Json}
    (hv : v.UniqueNames) (hw : w.UniqueNames) (h : v.Reordered v') (h' : w.Reordered w') :
    equalBy same v w = equalBy same v' w' :=
  interchange_reordered.equalBy_eq hsame ⟨hv, h⟩ ⟨hw, h'⟩

end Interchange

end Json
end JsonQuery
