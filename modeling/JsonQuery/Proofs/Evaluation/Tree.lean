import JsonQuery.Query.Evaluation
import JsonQuery.Proofs.Evaluation.Enumeration

namespace JsonQuery
namespace Json

theorem uniqueItems_iff {items : List Json} :
    UniqueItems items ↔ ∀ v ∈ items, v.UniqueNames := by
  induction items with
  | nil => simp [UniqueItems]
  | cons v vs ih => simp [UniqueItems, ih]

theorem uniqueMembers_iff {members : List (String × Json)} :
    UniqueMembers members ↔ ∀ m ∈ members, m.2.UniqueNames := by
  induction members with
  | nil => simp [UniqueMembers]
  | cons m ms ih =>
    obtain ⟨name, v⟩ := m
    simp [UniqueMembers, ih]

theorem lookup_eq_some_iff {members : List (String × Json)} (h : (members.map Prod.fst).Nodup)
    {name : String} {v : Json} : members.lookup name = some v ↔ (name, v) ∈ members := by
  induction members with
  | nil => simp
  | cons m ms ih =>
    obtain ⟨name', w⟩ := m
    rw [List.map_cons, List.nodup_cons] at h
    rw [List.lookup_cons, List.mem_cons, Prod.mk.injEq]
    by_cases hname : name = name'
    · subst hname
      have hnot : (name, v) ∉ ms := fun hm => h.1 (List.mem_map.mpr ⟨_, hm, rfl⟩)
      simp [hnot, eq_comm]
    · have hfalse : (name == name') = false := by simpa using hname
      simp [hfalse, hname, ih h.2]

/-- Where names are unique, each child stands behind one step. -/
theorem mem_children_iff {v c : Json} (h : v.UniqueNames) {step : Step} :
    (step, c) ∈ v.children ↔ v.child? step = some c := by
  cases v with
  | array items =>
    cases step with
    | name name => simp [children, child?]
    | index i =>
      simp only [children, child?, List.mem_mapIdx, Prod.mk.injEq, Step.index.injEq]
      rw [List.getElem?_eq_some_iff]
      constructor
      · intro hleft
        rcases hleft with ⟨j, hj, rfl, rfl⟩
        exact ⟨hj, rfl⟩
      · intro hright
        rcases hright with ⟨hi, rfl⟩
        exact ⟨i, hi, rfl, rfl⟩
  | object members =>
    cases step with
    | index i => simp [children, child?]
    | name name =>
      simp only [children, child?, lookup_eq_some_iff h.1, List.mem_map, Prod.mk.injEq,
        Step.name.injEq, Prod.exists]
      constructor
      · intro hleft
        rcases hleft with ⟨_, _, hm, rfl, rfl⟩
        exact hm
      · exact fun hm => ⟨name, c, hm, rfl, rfl⟩
  | null | bool _ | number _ | string _ => simp [children, child?]

theorem mem_children_of_child? {v c : Json} {step : Step} (h : v.child? step = some c) :
    (step, c) ∈ v.children := by
  cases v with
  | array items =>
    cases step with
    | name name => simp [child?] at h
    | index i =>
      obtain ⟨hi, rfl⟩ := List.getElem?_eq_some_iff.mp h
      exact List.mem_mapIdx.mpr ⟨i, hi, rfl⟩
  | object members =>
    cases step with
    | index i => simp [child?] at h
    | name name =>
      obtain ⟨before, after, rfl, -⟩ := List.lookup_eq_some_iff.mp h
      simp [children]
  | null | bool _ | number _ | string _ => simp [child?] at h

theorem children_nodup {v : Json} (h : v.UniqueNames) : (v.children.map Prod.fst).Nodup := by
  cases v with
  | array items =>
    have hfst : (items.mapIdx (fun i v => (Step.index i, v))).map Prod.fst =
        (List.range items.length).map Step.index := by
      apply List.ext_getElem <;> simp
    rw [children, hfst]
    exact List.nodup_range.map (fun _ _ => Step.index.inj)
  | object members =>
    have hfst : (members.map (fun m => (Step.name m.1, m.2))).map Prod.fst =
        (members.map Prod.fst).map Step.name := by simp [Function.comp_def]
    rw [children, hfst]
    exact h.1.map (fun _ _ => Step.name.inj)
  | null | bool _ | number _ | string _ => simp [children]

theorem uniqueNames_child {v c : Json} (h : v.UniqueNames) {step : Step}
    (hc : v.child? step = some c) : c.UniqueNames := by
  rw [← mem_children_iff h] at hc
  cases v with
  | array items =>
    simp only [children, List.mem_mapIdx, Prod.mk.injEq] at hc
    obtain ⟨i, hi, -, rfl⟩ := hc
    exact uniqueItems_iff.mp h _ (List.getElem_mem hi)
  | object members =>
    simp only [children, List.mem_map, Prod.mk.injEq] at hc
    obtain ⟨m, hm, -, rfl⟩ := hc
    exact uniqueMembers_iff.mp h.2 m hm
  | null | bool _ | number _ | string _ => simp [children] at hc

theorem at?_append (v : Json) (l l' : Location) :
    v.at? (l ++ l') = (v.at? l).bind (fun w => w.at? l') := by
  induction l generalizing v with
  | nil => rfl
  | cons step l ih =>
    simp only [List.cons_append, at?, ih, Option.bind_assoc]

theorem uniqueNames_at {v w : Json} (h : v.UniqueNames) {l : Location}
    (hw : v.at? l = some w) : w.UniqueNames := by
  induction l generalizing v with
  | nil =>
    cases hw
    exact h
  | cons step l ih =>
    obtain ⟨c, hc, hw⟩ := Option.bind_eq_some_iff.mp hw
    exact ih (uniqueNames_child h hc) hw

theorem sizeOf_children {v c : Json} {step : Step} (h : (step, c) ∈ v.children) :
    sizeOf c < sizeOf v := by
  cases v with
  | array items =>
    simp only [children, List.mem_mapIdx, Prod.mk.injEq] at h
    obtain ⟨i, hi, -, rfl⟩ := h
    have := List.sizeOf_lt_of_mem (List.getElem_mem hi)
    simp only [array.sizeOf_spec]
    omega
  | object members =>
    simp only [children, List.mem_map, Prod.mk.injEq] at h
    obtain ⟨⟨name, w⟩, hm, -, rfl⟩ := h
    have := List.sizeOf_lt_of_mem hm
    simp only [object.sizeOf_spec, Prod.mk.sizeOf_spec] at this ⊢
    omega
  | null | bool _ | number _ | string _ => simp [children] at h

end Json

namespace Node

/-- The node at the end of a path that starts at another. -/
def follow (n : Node) (path : Location) : Option Node :=
  (n.value.at? path).map (fun v => ⟨v, n.location ++ path⟩)

theorem follow_nil (n : Node) : n.follow [] = some n := by
  simp [follow, Json.at?]

theorem follow_append (n : Node) (l l' : Location) :
    n.follow (l ++ l') = (n.follow l).bind (fun m => m.follow l') := by
  unfold follow
  rw [Json.at?_append]
  cases n.value.at? l <;> simp

theorem follow_singleton (n : Node) (step : Step) : n.follow [step] = n.child? step := by
  cases h : n.value.child? step <;> simp [follow, child?, Json.at?, h]

theorem follow_concat (n : Node) (l : Location) (step : Step) :
    n.follow (l ++ [step]) = (n.follow l).bind (fun m => m.child? step) := by
  rw [follow_append]
  simp only [follow_singleton]

theorem uniqueNames_follow {n m : Node} (h : n.value.UniqueNames) {l : Location}
    (hm : n.follow l = some m) : m.value.UniqueNames := by
  obtain ⟨v, hv, rfl⟩ := Option.map_eq_some_iff.mp hm
  exact Json.uniqueNames_at h hv

theorem uniqueNames_child {n m : Node} (h : n.value.UniqueNames) {step : Step}
    (hm : n.child? step = some m) : m.value.UniqueNames :=
  uniqueNames_follow h ((n.follow_singleton step).trans hm)

theorem enumerates_children {n : Node} (h : n.value.UniqueNames) :
    Enumerates n.children (fun step m => n.child? step = some m) := by
  refine ⟨n.value.children.map (fun p => (p.1, ⟨p.2, n.location ++ [p.1]⟩)), ?_, ?_, ?_⟩
  · simp [children, Function.comp_def]
  · simpa [Function.comp_def] using Json.children_nodup h
  · intro step m
    simp only [List.mem_map, Prod.mk.injEq, Prod.exists, child?, Option.map_eq_some_iff]
    constructor
    · intro hleft
      rcases hleft with ⟨_, c, hc, rfl, rfl⟩
      exact ⟨c, (Json.mem_children_iff h).mp hc, rfl⟩
    · intro hright
      rcases hright with ⟨c, hc, rfl⟩
      exact ⟨step, c, (Json.mem_children_iff h).mpr hc, rfl, rfl⟩

theorem preorderItems_eq (l : Location) (i : Nat) (items : List Json) :
    preorderItems l i items = (items.mapIdx (fun j v => (Step.index (i + j), v))).flatMap
      (fun p => preorder (l ++ [p.1]) p.2) := by
  induction items generalizing i with
  | nil => rfl
  | cons v vs ih =>
    simp only [preorderItems, ih, List.mapIdx_cons, List.flatMap_cons, Nat.add_zero,
      Nat.add_assoc, Nat.add_comm 1]

theorem preorderMembers_eq (l : Location) (members : List (String × Json)) :
    preorderMembers l members = (members.map (fun m => (Step.name m.1, m.2))).flatMap
      (fun p => preorder (l ++ [p.1]) p.2) := by
  induction members with
  | nil => rfl
  | cons m ms ih =>
    obtain ⟨name, v⟩ := m
    simp only [preorderMembers, ih, List.map_cons, List.flatMap_cons]

/-- A subtree is its top, and behind it the subtrees of the children. -/
theorem subtree_eq (n : Node) : n.subtree = n :: n.children.flatMap Node.subtree := by
  obtain ⟨v, l⟩ := n
  unfold subtree children
  simp only [List.flatMap_map]
  cases v with
  | array items => simp [preorder, preorderItems_eq, Json.children]
  | object members => simp only [preorder, preorderMembers_eq, Json.children]
  | null | bool _ | number _ | string _ => simp [preorder, Json.children]

theorem sizeOf_child {n m : Node} (h : m ∈ n.children) : sizeOf m.value < sizeOf n.value := by
  obtain ⟨⟨step, v⟩, hv, rfl⟩ := List.mem_map.mp h
  exact Json.sizeOf_children hv

theorem mem_children_of_child? {n m : Node} {step : Step} (h : n.child? step = some m) :
    m ∈ n.children := by
  obtain ⟨v, hv, rfl⟩ := Option.map_eq_some_iff.mp h
  exact List.mem_map.mpr ⟨_, Json.mem_children_of_child? hv, rfl⟩

/-- Paths are empty, or a step and a path behind it. -/
def pathOf : Unit ⊕ (Step × Location) → Location :=
  Sum.elim (fun _ => []) (fun p => p.1 :: p.2)

theorem pathOf_injective : pathOf.Injective := by
  rintro (_ | ⟨step, path⟩) (_ | ⟨step', path'⟩) h
  · rfl
  · cases h
  · cases h
  · cases h
    rfl

/-- The nodes of a subtree are those at the ends of paths, each path once. -/
theorem enumerates_subtree {n : Node} (h : n.value.UniqueNames) :
    Enumerates n.subtree (fun path m => n.follow path = some m) := by
  have hchildren := (enumerates_children h).flatMap (fun m hm => by
    obtain ⟨step, hstep⟩ := (enumerates_children h).mem_iff.mp hm
    exact enumerates_subtree (uniqueNames_child h hstep))
  have hall := ((Enumerates.toList (some n) ()).append hchildren).map_index pathOf_injective
  rw [subtree_eq]
  refine hall.congr (fun path m => ?_)
  constructor
  · intro hleft
    rcases hleft with ⟨⟨⟩ | ⟨step, rest⟩, rfl, hm⟩
    · rw [← hm.2]
      exact n.follow_nil
    · obtain ⟨c, hc, hm⟩ := hm
      show n.follow ([step] ++ rest) = some m
      rw [follow_append, follow_singleton, hc]
      exact hm
  · intro hm
    cases path with
    | nil => exact ⟨.inl (), rfl, rfl, n.follow_nil.symm.trans hm⟩
    | cons step rest =>
      have hstep : n.follow ([step] ++ rest) = some m := hm
      rw [follow_append, follow_singleton] at hstep
      obtain ⟨c, hc, hm⟩ := Option.bind_eq_some_iff.mp hstep
      exact ⟨.inr (step, rest), rfl, c, hc, hm⟩
termination_by sizeOf n.value
decreasing_by exact sizeOf_child hm

end Node

namespace Selector

variable (document : Json) (n : Node)

/-- A selector picks among the children. -/
theorem select_subset (s : Selector) : s.select document n ⊆ n.children := by
  intro m hm
  cases s with
  | name name => exact Node.mem_children_of_child? (Option.mem_toList.mp hm)
  | wildcard => exact hm
  | index i =>
    rw [select] at hm
    split at hm
    · obtain ⟨k, -, hk⟩ := Option.bind_eq_some_iff.mp (Option.mem_toList.mp hm)
      exact Node.mem_children_of_child? hk
    · simp at hm
  | slice start stop step =>
    rw [select] at hm
    split at hm
    · obtain ⟨k, -, hk⟩ := List.mem_filterMap.mp hm
      exact Node.mem_children_of_child? hk
    · simp at hm
  | filter test => exact List.mem_of_mem_filter hm

theorem selectAll_eq_flatMap (ss : List Selector) :
    selectAll document n ss = ss.flatMap (fun s => s.select document n) := by
  induction ss with
  | nil => rw [selectAll, List.flatMap_nil]
  | cons s ss ih => rw [selectAll, ih, List.flatMap_cons]

theorem selectAll_subset (ss : List Selector) : selectAll document n ss ⊆ n.children := by
  intro m hm
  rw [selectAll_eq_flatMap] at hm
  obtain ⟨s, -, hs⟩ := List.mem_flatMap.mp hm
  exact select_subset document n s hs

end Selector
end JsonQuery
