import Mathlib

namespace JsonQuery

/-- The list has one entry `x` for each index `r` with `P r x`, and no others. Two indices may
give equal entries, which then stand in the list twice. -/
def Enumerates {ρ α : Type} (xs : List α) (P : ρ → α → Prop) : Prop :=
  ∃ ps : List (ρ × α), ps.map Prod.snd = xs ∧ (ps.map Prod.fst).Nodup ∧ ∀ r x, (r, x) ∈ ps ↔ P r x

namespace Enumerates

variable {ρ σ α β : Type} {xs ys : List α} {P Q : ρ → α → Prop}

theorem congr (h : Enumerates xs P) (hpq : ∀ r x, P r x ↔ Q r x) : Enumerates xs Q := by
  obtain ⟨ps, hxs, hnodup, hmem⟩ := h
  exact ⟨ps, hxs, hnodup, fun r x => (hmem r x).trans (hpq r x)⟩

theorem mem_iff (h : Enumerates xs P) {x : α} : x ∈ xs ↔ ∃ r, P r x := by
  obtain ⟨ps, rfl, -, hmem⟩ := h
  simp [hmem]

/-- There is one entry if there is one index. -/
theorem eq_singleton_iff (h : Enumerates xs P) {x : α} :
    xs = [x] ↔ ∃ r, P r x ∧ ∀ r' y, P r' y → r' = r := by
  obtain ⟨ps, rfl, hnodup, hmem⟩ := h
  constructor
  · intro heq
    obtain ⟨⟨r, y⟩, rfl, rfl⟩ := List.map_eq_singleton_iff.mp heq
    refine ⟨r, (hmem _ _).mp (by simp), fun r' y' hy => ?_⟩
    exact congrArg Prod.fst (List.mem_singleton.mp ((hmem r' y').mpr hy))
  · intro hright
    rcases hright with ⟨r, hx, honly⟩
    have hall : ∀ p ∈ ps, p = (r, x) := by
      rintro ⟨r', y⟩ hp
      obtain rfl := honly r' y ((hmem _ _).mp hp)
      exact List.inj_on_of_nodup_map hnodup hp ((hmem _ _).mpr hx) rfl
    have hlength : ps.length ≤ 1 := by
      by_contra hlong
      obtain ⟨p, q, qs, rfl⟩ : ∃ p q qs, ps = p :: q :: qs := by
        match ps with
        | [] | [_] => simp at hlong
        | p :: q :: qs => exact ⟨p, q, qs, rfl⟩
      have hp := hall p (by simp)
      have hq := hall q (by simp)
      simp [hp, hq] at hnodup
    obtain ⟨p, hp⟩ := List.length_eq_one_iff.mp
      (Nat.le_antisymm hlength (List.length_pos_of_mem ((hmem _ _).mpr hx)))
    rw [hp, hall p (by simp [hp])]
    rfl

theorem nil : Enumerates ([] : List α) (fun (_ : ρ) _ => False) := ⟨[], rfl, by simp, by simp⟩

theorem toList (o : Option α) (r : ρ) :
    Enumerates o.toList (fun r' x => r' = r ∧ o = some x) := by
  cases o with
  | none => exact ⟨[], rfl, by simp, by simp⟩
  | some x => exact ⟨[(r, x)], rfl, by simp, by simp [eq_comm]⟩

/-- Indices may be renamed as long as they stay apart. -/
theorem map_index (h : Enumerates xs P) {f : ρ → σ} (hf : f.Injective) :
    Enumerates xs (fun s x => ∃ r, f r = s ∧ P r x) := by
  obtain ⟨ps, rfl, hnodup, hmem⟩ := h
  refine ⟨ps.map (fun p => (f p.1, p.2)), by simp [Function.comp_def], ?_, ?_⟩
  · have hfst : (ps.map (fun p => (f p.1, p.2))).map Prod.fst = (ps.map Prod.fst).map f := by
      simp [Function.comp_def]
    rw [hfst]
    exact hnodup.map hf
  · simp only [List.mem_map, Prod.exists, Prod.mk.injEq, hmem]
    grind

theorem map (h : Enumerates xs P) (g : α → β) :
    Enumerates (xs.map g) (fun r y => ∃ x, P r x ∧ g x = y) := by
  obtain ⟨ps, rfl, hnodup, hmem⟩ := h
  refine ⟨ps.map (fun p => (p.1, g p.2)), by simp [Function.comp_def],
    by simpa [Function.comp_def] using hnodup, ?_⟩
  simp only [List.mem_map, Prod.exists, Prod.mk.injEq, hmem]
  grind

theorem filter (h : Enumerates xs P) (p : α → Bool) :
    Enumerates (xs.filter p) (fun r x => P r x ∧ p x = true) := by
  obtain ⟨ps, rfl, hnodup, hmem⟩ := h
  refine ⟨ps.filter (p ∘ Prod.snd), List.filter_map.symm, ?_, by simp [hmem]⟩
  exact hnodup.sublist (List.filter_sublist.map _)

/-- Two lists one behind the other, with the indices of the two kept apart. -/
theorem append {Q : σ → α → Prop} (h : Enumerates xs P) (h' : Enumerates ys Q) :
    Enumerates (xs ++ ys) (fun (r : ρ ⊕ σ) x => r.elim (P · x) (Q · x)) := by
  obtain ⟨ps, hps, hpsnodup, hpsmem⟩ := h.map_index Sum.inl_injective
  obtain ⟨qs, hqs, hqsnodup, hqsmem⟩ := h'.map_index Sum.inr_injective
  refine ⟨ps ++ qs, by rw [List.map_append, hps, hqs], ?_, ?_⟩
  · rw [List.map_append]
    refine hpsnodup.append hqsnodup ?_
    intro r hr hr'
    obtain ⟨⟨_, x⟩, hx, rfl⟩ := List.mem_map.mp hr
    obtain ⟨⟨_, y⟩, hy, heq⟩ := List.mem_map.mp hr'
    obtain ⟨a, rfl, -⟩ := (hpsmem _ _).mp hx
    obtain ⟨b, rfl, -⟩ := (hqsmem _ _).mp hy
    cases heq
  · intro r x
    rw [List.mem_append, hpsmem, hqsmem]
    cases r <;> simp

/-- A list for each entry of another. -/
theorem flatMap {f : α → List β} {Q : α → σ → β → Prop} (h : Enumerates xs P)
    (hf : ∀ x ∈ xs, Enumerates (f x) (Q x)) :
    Enumerates (xs.flatMap f) (fun (r : ρ × σ) y => ∃ x, P r.1 x ∧ Q x r.2 y) := by
  obtain ⟨ps, rfl, hnodup, hmem⟩ := h
  choose! qs hqs hqsnodup hqsmem using hf
  have hin {p : ρ × α} (hp : p ∈ ps) : p.2 ∈ ps.map Prod.snd := List.mem_map_of_mem hp
  refine ⟨ps.flatMap (fun p => (qs p.2).map (fun q => ((p.1, q.1), q.2))), ?_, ?_, ?_⟩
  · rw [List.map_flatMap, List.flatMap_map]
    refine List.flatMap_congr (fun p hp => ?_)
    simp [Function.comp_def, ← hqs p.2 (hin hp)]
  · rw [List.map_flatMap, List.nodup_flatMap]
    refine ⟨fun p hp => ?_, ?_⟩
    · have hfst : ((qs p.2).map (fun q => ((p.1, q.1), q.2))).map Prod.fst =
          ((qs p.2).map Prod.fst).map (Prod.mk p.1) := by simp [Function.comp_def]
      rw [hfst]
      exact (hqsnodup p.2 (hin hp)).map (Prod.mk_right_injective p.1)
    · refine (List.pairwise_map.mp hnodup).imp (fun {p p'} hne => ?_)
      intro r hr hr'
      simp only [List.map_map, List.mem_map, Function.comp_apply] at hr hr'
      obtain ⟨q, -, rfl⟩ := hr
      obtain ⟨q', -, heq⟩ := hr'
      exact hne (congrArg Prod.fst heq).symm
  · intro r y
    simp only [List.mem_flatMap, List.mem_map]
    constructor
    · intro hleft
      rcases hleft with ⟨p, hp, q, hq, heq⟩
      obtain ⟨rfl, rfl⟩ := Prod.mk.inj heq
      exact ⟨p.2, (hmem _ _).mp hp, (hqsmem p.2 (hin hp) _ _).mp hq⟩
    · intro hright
      rcases hright with ⟨x, hx, hy⟩
      have hp := (hmem _ _).mpr hx
      exact ⟨_, hp, (r.2, y), (hqsmem x (hin hp) _ _).mpr hy, rfl⟩

/-- What is found at places, each place once. -/
theorem filterMap {ks : List ρ} (h : ks.Nodup) (f : ρ → Option α) :
    Enumerates (ks.filterMap f) (fun k x => k ∈ ks ∧ f k = some x) := by
  have hks : Enumerates ks (fun k x => k = x ∧ x ∈ ks) :=
    ⟨ks.map (fun k => (k, k)), by simp [Function.comp_def], by simpa [Function.comp_def] using h,
      by simp; grind⟩
  have hall := hks.flatMap (fun k _ => toList (f k) ())
  have hinj : (Prod.fst : ρ × Unit → ρ).Injective := by
    rintro ⟨k, _⟩ ⟨k', _⟩ hk
    simpa using hk
  rw [List.filterMap_eq_flatMap_toList]
  refine (hall.map_index hinj).congr (fun k x => ?_)
  simp

/-- Entries that tell their indices stand in a list once. -/
theorem nodup_map {f : α → ρ} (h : Enumerates xs P) (hf : ∀ r x, P r x → f x = r) :
    (xs.map f).Nodup := by
  obtain ⟨ps, rfl, hnodup, hmem⟩ := h
  have hfst : (ps.map Prod.snd).map f = ps.map Prod.fst := by
    rw [List.map_map]
    exact List.map_congr_left (fun p hp => hf p.1 p.2 ((hmem _ _).mp hp))
  rwa [hfst]

/-- How often an entry stands in a list is the number of its indices. -/
theorem count_eq [BEq α] [LawfulBEq α] (h : Enumerates xs P) (x : α) :
    (xs.count x : ℕ∞) = Set.encard {r | P r x} := by
  obtain ⟨ps, rfl, hnodup, hmem⟩ := h
  classical
  have hset : {r | P r x} = ((ps.filter (·.2 == x)).map Prod.fst).toFinset := by
    ext r
    simp [hmem]
  have hsub : ((ps.filter (·.2 == x)).map Prod.fst).Nodup :=
    hnodup.sublist (List.filter_sublist.map _)
  rw [hset, Set.encard_coe_eq_coe_finsetCard, List.toFinset_card_of_nodup hsub, List.length_map,
    ← List.countP_eq_length_filter, List.count, List.countP_map]
  rfl

end Enumerates
end JsonQuery
