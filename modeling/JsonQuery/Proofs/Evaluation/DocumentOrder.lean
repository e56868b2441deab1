import JsonQuery.Proofs.Evaluation.Tree
import JsonQuery.Query.Word

namespace JsonQuery
namespace Json

/-- The steps to the children, in document order. -/
def steps (v : Json) : List Step := v.children.map Prod.fst

/-- The order of the places in a value: a container comes before what it contains, and a child,
with all that it contains, before the next child. -/
inductive Before : Json → Location → Location → Prop where
  | container {v : Json} {step : Step} {l : Location} : Before v [] (step :: l)
  | inside {v c : Json} {step : Step} {l l' : Location} (hc : v.child? step = some c)
      (h : Before c l l') : Before v (step :: l) (step :: l')
  | siblings {v : Json} {step step' : Step} {l l' : Location} (hmem : step' ∈ v.steps)
      (h : v.steps.idxOf step < v.steps.idxOf step') : Before v (step :: l) (step' :: l')

namespace Before

variable {v w : Json} {l l' l'' : Location}

theorem irrefl (l : Location) (v : Json) : ¬ v.Before l l := by
  intro h
  induction l generalizing v with
  | nil => cases h
  | cons step l ih =>
    cases h with
    | inside hc h => exact ih _ h
    | siblings hmem h => exact Nat.lt_irrefl _ h

theorem trans (h : v.Before l l') (h' : v.Before l' l'') : v.Before l l'' := by
  induction h generalizing l'' with
  | container => cases h' <;> exact .container
  | inside hc h ih =>
    cases h' with
    | inside hc' h' =>
      rw [hc] at hc'
      cases hc'
      exact .inside hc (ih h')
    | siblings hmem h' => exact .siblings hmem h'
  | siblings hmem h =>
    cases h' with
    | inside hc h' => exact .siblings hmem h
    | siblings hmem' h' => exact .siblings hmem' (Nat.lt_trans h h')

theorem asymm (h : v.Before l l') : ¬ v.Before l' l := fun h' => irrefl _ _ (h.trans h')

/-- Of two places that a value has, one comes first. -/
theorem total {a b : Json} (ha : v.at? l = some a) (hb : v.at? l' = some b) :
    v.Before l l' ∨ l = l' ∨ v.Before l' l := by
  induction l generalizing v l' with
  | nil =>
    cases l' with
    | nil => exact .inr (.inl rfl)
    | cons step' l' => exact .inl .container
  | cons step l ih =>
    cases l' with
    | nil => exact .inr (.inr .container)
    | cons step' l' =>
      obtain ⟨c, hc, ha⟩ := Option.bind_eq_some_iff.mp ha
      obtain ⟨c', hc', hb⟩ := Option.bind_eq_some_iff.mp hb
      have hmem : step ∈ v.steps := List.mem_map_of_mem (mem_children_of_child? hc)
      have hmem' : step' ∈ v.steps := List.mem_map_of_mem (mem_children_of_child? hc')
      rcases Nat.lt_trichotomy (v.steps.idxOf step) (v.steps.idxOf step') with hlt | heq | hgt
      · exact .inl (.siblings hmem' hlt)
      · obtain rfl := (List.idxOf_inj hmem).mp heq
        rw [hc] at hc'
        cases hc'
        rcases ih ha hb with h | rfl | h
        · exact .inl (.inside hc h)
        · exact .inr (.inl rfl)
        · exact .inr (.inr (.inside hc h))
      · exact .inr (.inr (.siblings hmem hgt))

/-- Places in a part of a value stand in it as they stand in the part. -/
theorem append (hw : v.at? l = some w) (h : w.Before l' l'') : v.Before (l ++ l') (l ++ l'') := by
  induction l generalizing v with
  | nil =>
    cases hw
    exact h
  | cons step l ih =>
    obtain ⟨c, hc, hw⟩ := Option.bind_eq_some_iff.mp hw
    exact .inside hc (ih hw)

end Before

theorem pairwise_children {v : Json} (h : v.UniqueNames) :
    v.children.Pairwise (fun p q => v.steps.idxOf p.1 < v.steps.idxOf q.1) := by
  have hnodup : v.steps.Nodup := children_nodup h
  have hsteps : v.steps.Pairwise (fun s t => v.steps.idxOf s < v.steps.idxOf t) := by
    apply List.pairwise_iff_getElem.mpr
    intro i j hi hj hij
    rwa [hnodup.idxOf_getElem, hnodup.idxOf_getElem]
  rwa [steps, List.pairwise_map] at hsteps

end Json

namespace Node

variable {n m : Node}

/-- The subtree of a node of a document holds what the document has at its place and behind. -/
theorem mem_subtree_iff {document : Json} (hd : document.UniqueNames)
    (hn : document.at? n.location = some n.value) :
    m ∈ n.subtree ↔ n.location <+: m.location ∧ document.at? m.location = some m.value := by
  rw [(enumerates_subtree (Json.uniqueNames_at hd hn)).mem_iff]
  constructor
  · intro hleft
    obtain ⟨path, hpath⟩ := hleft
    obtain ⟨v, hv, rfl⟩ := Option.map_eq_some_iff.mp hpath
    refine ⟨List.prefix_append _ _, ?_⟩
    rw [Json.at?_append, hn]
    exact hv
  · intro hright
    obtain ⟨⟨path, hpath⟩, hm⟩ := hright
    refine ⟨path, Option.map_eq_some_iff.mpr ⟨m.value, ?_, by rw [hpath]⟩⟩
    rw [← hpath, Json.at?_append, hn] at hm
    exact hm

theorem location_of_mem_subtree (h : n.value.UniqueNames) (hm : m ∈ n.subtree) :
    ∃ path, m.location = n.location ++ path := by
  obtain ⟨path, hpath⟩ := (enumerates_subtree h).mem_iff.mp hm
  obtain ⟨v, -, rfl⟩ := Option.map_eq_some_iff.mp hpath
  exact ⟨path, rfl⟩

/-- A subtree lists its nodes in document order. -/
theorem pairwise_subtree {n : Node} (h : n.value.UniqueNames) :
    n.subtree.Pairwise (fun a b => ∃ l l', a.location = n.location ++ l ∧
      b.location = n.location ++ l' ∧ n.value.Before l l') := by
  have hinside {step : Step} {c : Json} (hc : (step, c) ∈ n.value.children) :
      n.value.child? step = some c ∧ c.UniqueNames :=
    have hstep := (Json.mem_children_iff h).mp hc
    ⟨hstep, Json.uniqueNames_child h hstep⟩
  rw [subtree_eq]
  unfold children
  rw [List.flatMap_map]
  apply List.Pairwise.cons
  · intro m hm
    obtain ⟨⟨step, c⟩, hc, hm⟩ := List.mem_flatMap.mp hm
    obtain ⟨path, hpath⟩ := location_of_mem_subtree (hinside hc).2 hm
    exact ⟨[], step :: path, by simp, by simpa using hpath, .container⟩
  · apply List.pairwise_flatMap.mpr
    constructor
    · intro p hc
      obtain ⟨step, c⟩ := p
      obtain ⟨hstep, hunique⟩ := hinside hc
      have hchild : (⟨c, n.location ++ [step]⟩ : Node) ∈ n.children := List.mem_map_of_mem hc
      refine (pairwise_subtree hunique).imp ?_
      intro a b hab
      obtain ⟨l, l', ha, hb, hbefore⟩ := hab
      exact ⟨step :: l, step :: l', by simpa using ha, by simpa using hb, .inside hstep hbefore⟩
    · apply (Json.pairwise_children h).imp_of_mem
      intro p q hc hc' hlt a ha b hb
      obtain ⟨step, c⟩ := p
      obtain ⟨step', c'⟩ := q
      obtain ⟨path, hpath⟩ := location_of_mem_subtree (hinside hc).2 ha
      obtain ⟨path', hpath'⟩ := location_of_mem_subtree (hinside hc').2 hb
      exact ⟨step :: path, step' :: path', by simpa using hpath, by simpa using hpath',
        .siblings (List.mem_map_of_mem hc') hlt⟩
termination_by sizeOf n.value
decreasing_by exact sizeOf_child hchild

/-- The values that a document has at a place and behind it, each once, in document order. -/
structure DocumentOrder (document : Json) (n : Node) (ns : List Node) : Prop where
  mem_iff : ∀ m, m ∈ ns ↔ n.location <+: m.location ∧ document.at? m.location = some m.value
  pairwise : ns.Pairwise (fun a b => document.Before a.location b.location)

theorem documentOrder_subtree {document : Json} (hd : document.UniqueNames)
    (hn : document.at? n.location = some n.value) : DocumentOrder document n n.subtree := by
  constructor
  · intro m
    exact mem_subtree_iff hd hn
  · apply (pairwise_subtree (Json.uniqueNames_at hd hn)).imp
    intro a b hab
    obtain ⟨l, l', ha, hb, hbefore⟩ := hab
    rw [ha, hb]
    exact hbefore.append hn

end Node

namespace Segment

variable {document : Json} {n : Node}

/-- The descendant segment step by step: the selectors at the node, and then the same segment at
each child. -/
theorem apply_descendant_eq (ss : List Selector) :
    (Segment.descendant ss).apply document n =
      (Segment.child ss).apply document n ++
        n.children.flatMap (fun c => (Segment.descendant ss).apply document c) := by
  simp only [Segment.apply]
  rw [Node.subtree_eq, List.flatMap_cons, List.flatMap_assoc]

/-- The place above each result of a child segment. -/
theorem dropLast_of_mem_apply_child {ss : List Selector} {m : Node}
    (hm : m ∈ (Segment.child ss).apply document n) : m.location.dropLast = n.location := by
  rw [Segment.apply] at hm
  obtain ⟨p, -, rfl⟩ := List.mem_map.mp (Selector.selectAll_subset document n ss hm)
  exact List.dropLast_concat

/-- A descendant segment gives, for each value of the subtree in document order, what a child
segment gives there, one selector after the other. So the places above its results never go back.
Evaluation in words stops only where it stops for one of these child segments. -/
theorem apply_descendant (hd : document.UniqueNames)
    (hn : document.at? n.location = some n.value) (ss : List Selector) :
    ∃ tops, Node.DocumentOrder document n tops ∧
      (Segment.descendant ss).apply document n =
        tops.flatMap (fun m => (Segment.child ss).apply document m) ∧
      (∀ m, (Segment.child ss).apply document m = ss.flatMap (fun s => s.select document m)) ∧
      ((Segment.descendant ss).apply document n).Pairwise
        (fun a b => ¬ document.Before b.location.dropLast a.location.dropLast) ∧
      (Segment.descendant ss).run? document n =
        (tops.mapM (fun m => (Segment.child ss).run? document m)).map List.flatten := by
  have horder := Node.documentOrder_subtree hd hn
  refine ⟨n.subtree, horder, ?_, ?_, ?_, ?_⟩
  · simp only [Segment.apply]
  · intro m
    rw [Segment.apply, Selector.selectAll_eq_flatMap]
  · rw [Segment.apply]
    apply List.pairwise_flatMap.mpr
    constructor
    · intro m _
      apply List.pairwise_of_forall_mem_list
      intro a ha b hb
      rw [dropLast_of_mem_apply_child ha, dropLast_of_mem_apply_child hb]
      exact Json.Before.irrefl _ _
    · apply horder.pairwise.imp
      intro m m' hbefore a ha b hb
      rw [dropLast_of_mem_apply_child ha, dropLast_of_mem_apply_child hb]
      exact hbefore.asymm
  · simp only [Segment.run?]
    cases n.subtree.mapM (fun m => Selector.selectAll? document m ss) <;> rfl

/-- Selectors that pick some children several times, below a member that is not the first. -/
theorem apply_descendant_overlapping :
    let inner := Json.array [.object [("j", .null), ("k", .null)], .array [.object [("j", .null)]]]
    let document := Json.object [("x", .object [("j", .null)]), ("o", inner)]
    let ss := [Selector.index 0, .wildcard, .filter (.exists .current [.child [.name "j"]])]
    let results := (Segment.descendant ss).apply document ⟨inner, [.name "o"]⟩
    document.UniqueNames ∧ document.at? [.name "o"] = some inner ∧
      results.map (fun m => m.location.tail) = [[.index 0], [.index 0], [.index 1], [.index 0],
        [.index 0, .name "j"], [.index 0, .name "k"],
        [.index 1, .index 0], [.index 1, .index 0], [.index 1, .index 0],
        [.index 1, .index 0, .name "j"]] ∧
      (∃ tops, Node.DocumentOrder document ⟨inner, [.name "o"]⟩ tops ∧
        results = tops.flatMap (fun m => (Segment.child ss).apply document m)) ∧
      results.Pairwise (fun a b => ¬ document.Before b.location.dropLast a.location.dropLast) := by
  intro inner document ss results
  have hd : document.UniqueNames := by
    simp [document, inner, Json.UniqueNames, Json.UniqueMembers, Json.UniqueItems]
  have hn : document.at? [.name "o"] = some inner := by rfl
  obtain ⟨tops, horder, hblocks, -, hparents, -⟩ :=
    @apply_descendant document ⟨inner, [.name "o"]⟩ hd hn ss
  exact ⟨hd, hn, by rfl, ⟨tops, horder, hblocks⟩, hparents⟩

end Segment
end JsonQuery
