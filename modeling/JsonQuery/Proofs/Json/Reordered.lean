import JsonQuery.Json.Comparison
import JsonQuery.Proofs.Evaluation.Tree

namespace JsonQuery

theorem forall₂_getElem? {α β : Type} {R : α → β → Prop} {xs : List α} {ys : List β}
    (h : List.Forall₂ R xs ys) (i : Nat) : Option.Rel R xs[i]? ys[i]? := by
  induction h generalizing i with
  | nil => exact .none
  | cons hxy _ ih =>
    cases i with
    | zero => exact .some hxy
    | succ i => simpa using ih i

theorem forall₂_mapIdx {α β γ δ : Type} {R : α → β → Prop} {S : γ → δ → Prop} {xs : List α}
    {ys : List β} {f : Nat → α → γ} {g : Nat → β → δ} (h : List.Forall₂ R xs ys)
    (hfg : ∀ i x y, R x y → S (f i x) (g i y)) :
    List.Forall₂ S (xs.mapIdx f) (ys.mapIdx g) := by
  rw [List.forall₂_iff_get] at h ⊢
  obtain ⟨hlength, hget⟩ := h
  refine ⟨by simpa using hlength, fun i hi hi' => ?_⟩
  simp only [List.length_mapIdx] at hi hi'
  simpa using hfg i _ _ (hget i hi hi')

namespace Json

mutual

/-- The same value, in which the members of objects, at any depth, may stand in another order. -/
def Reordered : Json → Json → Prop
  | .array items, w => ∃ others, w = .array others ∧ ItemsReordered items others
  | .object members, w => ∃ renewed others,
      w = .object others ∧ MembersReordered members renewed ∧ renewed.Perm others
  | v, w => w = v

def ItemsReordered : List Json → List Json → Prop
  | [], ws => ws = []
  | v :: vs, ws => ∃ w rest, ws = w :: rest ∧ Reordered v w ∧ ItemsReordered vs rest

/-- The order of these members is kept, but not the one inside their values. -/
def MembersReordered : List (String × Json) → List (String × Json) → Prop
  | [], ws => ws = []
  | (name, v) :: ms, ws => ∃ w rest,
      ws = (name, w) :: rest ∧ Reordered v w ∧ MembersReordered ms rest

end

theorem itemsReordered_iff {vs ws : List Json} :
    ItemsReordered vs ws ↔ List.Forall₂ Reordered vs ws := by
  induction vs generalizing ws with
  | nil => rw [ItemsReordered, List.forall₂_nil_left_iff]
  | cons v vs ih =>
    simp only [ItemsReordered, List.forall₂_cons_left_iff, ih]
    grind

theorem membersReordered_iff {ms ns : List (String × Json)} : MembersReordered ms ns ↔
    List.Forall₂ (fun m n => m.1 = n.1 ∧ m.2.Reordered n.2) ms ns := by
  induction ms generalizing ns with
  | nil => rw [MembersReordered, List.forall₂_nil_left_iff]
  | cons m ms ih =>
    obtain ⟨name, v⟩ := m
    simp only [MembersReordered, List.forall₂_cons_left_iff, ih, Prod.exists]
    grind

section Names

theorem names_reordered {ms ns : List (String × Json)} (h : MembersReordered ms ns) :
    ms.map Prod.fst = ns.map Prod.fst := by
  have hnames := (membersReordered_iff.mp h).imp (fun _ _ hm => hm.1)
  rwa [← List.forall₂_eq_eq_eq, List.forall₂_map_left_iff, List.forall₂_map_right_iff]

mutual

theorem uniqueNames_reordered : ∀ {v w : Json}, v.UniqueNames → v.Reordered w → w.UniqueNames
  | .array _, _, hv, ⟨_, rfl, hitems⟩ => uniqueItems_reordered hv hitems
  | .object _, _, hv, ⟨_, _, rfl, hmembers, hperm⟩ => by
    have hunique := uniqueMembers_iff.mp (uniqueMembers_reordered hv.2 hmembers)
    refine ⟨?_, uniqueMembers_iff.mpr (fun m hm => hunique m (hperm.mem_iff.mpr hm))⟩
    exact (hperm.map Prod.fst).nodup (names_reordered hmembers ▸ hv.1)
  | .null, _, _, rfl | .bool _, _, _, rfl | .number _, _, _, rfl | .string _, _, _, rfl => trivial

theorem uniqueItems_reordered : ∀ {vs ws : List Json}, UniqueItems vs → ItemsReordered vs ws →
    UniqueItems ws
  | [], _, _, rfl => trivial
  | _ :: _, _, hvs, ⟨_, _, rfl, hw, hrest⟩ =>
    ⟨uniqueNames_reordered hvs.1 hw, uniqueItems_reordered hvs.2 hrest⟩

theorem uniqueMembers_reordered : ∀ {ms ns : List (String × Json)}, UniqueMembers ms →
    MembersReordered ms ns → UniqueMembers ns
  | [], _, _, rfl => trivial
  | _ :: _, _, hms, ⟨_, _, rfl, hw, hrest⟩ =>
    ⟨uniqueNames_reordered hms.1 hw, uniqueMembers_reordered hms.2 hrest⟩

end

end Names

section Children

theorem lookup_reordered {ms ns : List (String × Json)} (h : MembersReordered ms ns)
    (name : String) : Option.Rel Reordered (ms.lookup name) (ns.lookup name) := by
  rw [membersReordered_iff] at h
  induction h with
  | nil => exact .none
  | @cons m n ms ns hmn _ ih =>
    obtain ⟨other, v⟩ := m
    obtain ⟨_, w⟩ := n
    obtain ⟨rfl, hvw⟩ := hmn
    simp only [List.lookup_cons]
    by_cases hname : (name == other) = true
    · simpa [hname] using Option.Rel.some hvw
    · simpa [hname] using ih

theorem lookup_perm {ms ns : List (String × Json)} (h : (ms.map Prod.fst).Nodup)
    (hperm : ms.Perm ns) (name : String) : ms.lookup name = ns.lookup name := by
  apply Option.ext
  intro v
  rw [lookup_eq_some_iff h, lookup_eq_some_iff ((hperm.map Prod.fst).nodup h), hperm.mem_iff]

/-- A step leads to a child in both values or in neither. -/
theorem Reordered.child? {v w : Json} (hv : v.UniqueNames) (h : v.Reordered w) (step : Step) :
    Option.Rel Reordered (v.child? step) (w.child? step) := by
  cases v with
  | array items =>
    obtain ⟨others, rfl, hitems⟩ := h
    cases step with
    | name name => exact .none
    | index i => exact forall₂_getElem? (itemsReordered_iff.mp hitems) i
  | object members =>
    obtain ⟨renewed, others, rfl, hmembers, hperm⟩ := h
    cases step with
    | index i => exact .none
    | name name =>
      have hnames : (renewed.map Prod.fst).Nodup := names_reordered hmembers ▸ hv.1
      simp only [Json.child?, ← lookup_perm hnames hperm]
      exact lookup_reordered hmembers name
  | null | bool _ | number _ | string _ =>
    obtain rfl := h
    exact .none

/-- The children stand behind the same steps, though in another order. -/
theorem Reordered.children {v w : Json} (h : v.Reordered w) : ∃ cs : List (Step × Json),
    List.Forall₂ (fun p q => p.1 = q.1 ∧ p.2.Reordered q.2) v.children cs ∧
      cs.Perm w.children := by
  cases v with
  | array items =>
    obtain ⟨others, rfl, hitems⟩ := h
    refine ⟨_, ?_, .refl _⟩
    exact forall₂_mapIdx (itemsReordered_iff.mp hitems) (fun i x y hxy => ⟨rfl, hxy⟩)
  | object members =>
    obtain ⟨renewed, others, rfl, hmembers, hperm⟩ := h
    refine ⟨_, ?_, hperm.map _⟩
    rw [Json.children, List.forall₂_map_left_iff, List.forall₂_map_right_iff]
    exact (membersReordered_iff.mp hmembers).imp (fun m n hmn => ⟨congrArg Step.name hmn.1, hmn.2⟩)
  | null | bool _ | number _ | string _ =>
    obtain rfl := h
    exact ⟨[], .nil, .nil⟩

end Children

end Json
end JsonQuery
