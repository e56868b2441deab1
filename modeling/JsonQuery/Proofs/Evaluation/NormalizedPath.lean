import JsonQuery.Proofs.Evaluation.Counting
import JsonQuery.Proofs.Query.Compile

namespace JsonQuery
open Token (Kind NamesFunctions)

namespace Step

/-- The selector that takes a step. -/
def selector : Step → Selector
  | .name s => .name s
  | .index k => .index k

def kind : Step → Kind
  | .name s => .string s
  | .index k => .number (.ofInt k)

end Step

namespace Query

/-- The singular query that names a place step by step. -/
def ofLocation (l : Location) : Query := ⟨l.map (fun step => .child [step.selector])⟩

theorem ofLocation_chars (l : Location) : (ofLocation l).chars = l.chars := by
  have hstep (step : Step) : (Segment.child [step.selector]).chars = Location.stepChars step := by
    cases step <;> simp [Step.selector, Location.stepChars, Segment.chars, Selector.listChars,
      Selector.tailChars, Selector.chars, intChars]
  have hall : Segment.listChars (l.map (fun step => .child [step.selector])) =
      l.flatMap Location.stepChars := by
    induction l with
    | nil => rfl
    | cons step l ih => rw [List.map_cons, Segment.listChars, hstep, ih, List.flatMap_cons]
  exact congrArg ('$' :: ·) hall

theorem ofLocation_text (l : Location) : (ofLocation l).text = l.text :=
  congrArg String.ofList (ofLocation_chars l)

theorem ofLocation_isSingular (l : Location) : (ofLocation l).isSingular = true := by
  simp only [isSingular, ofLocation, List.all_map, List.all_eq_true]
  intro step _
  cases step <;> rfl

theorem ofLocation_depth (l : Location) : (ofLocation l).depth = 0 := by
  induction l with
  | nil => rfl
  | cons step l ih =>
    have hstep : (Segment.child [step.selector]).depth = 0 := by cases step <;> rfl
    exact Nat.max_eq_zero_iff.mpr ⟨hstep, ih⟩

/-- Every index is one that queries may use. -/
theorem ofLocation_wellTyped {l : Location} (h : ∀ k : Nat, .index k ∈ l → k ≤ maxIndex)
    (r : Registry) : (ofLocation l).WellTyped r := by
  induction l with
  | nil => trivial
  | cons step l ih =>
    refine ⟨⟨by simp, ?_, trivial⟩, ih (fun k hk => h k (List.mem_cons_of_mem step hk))⟩
    cases step with
    | name name => trivial
    | index k =>
      have := h k (by simp)
      have hmax : (0 : Int) ≤ maxIndex := by decide
      exact ⟨by omega, this⟩

theorem ofLocation_spells (l : Location) :
    ∃ ks, (ofLocation l).Spells ks ∧ NamesFunctions ks := by
  have hselector (step : Step) : step.selector.Spells [step.kind] := by
    cases step with
    | name name => rfl
    | index k => exact ⟨_, rfl, Numeral.ofInt_spellsIndex k⟩
  have hall : ∃ path, Segment.SpellsAll (l.map (fun step => .child [step.selector])) path ∧
      NamesFunctions path := by
    induction l with
    | nil => exact ⟨[], rfl, by simp [NamesFunctions]⟩
    | cons step l ih =>
      obtain ⟨path, hpath, hnames⟩ := ih
      have hlist : Selector.SpellsAll [step.selector] [step.kind] :=
        ⟨[step.kind], [], rfl, hselector step, rfl⟩
      refine ⟨[.openBracket, step.kind, .closeBracket] ++ path,
        ⟨_, path, rfl, .inr ⟨[step.kind], rfl, hlist⟩, hpath⟩, ?_⟩
      intro name hname
      have hin : Kind.function name ∈ path := by
        cases step <;> simpa [Step.kind] using hname
      exact hnames name hin
  obtain ⟨path, hpath, hnames⟩ := hall
  exact ⟨.root :: path, ⟨path, rfl, hpath⟩, fun name hname => hnames name (by simpa using hname)⟩

theorem select_selector (document : Json) (n : Node) (step : Step) :
    step.selector.select document n = (n.child? step).toList := by
  cases step with
  | name name => simp [Step.selector, Selector.select]
  | index k =>
    simp only [Step.selector, Selector.select]
    cases hn : n.value with
    | array items =>
      by_cases hk : k < items.length
      · have hplace : Selector.place? k items.length = some k :=
          place?_eq_some.mpr ⟨by simp [Selector.normalized], hk⟩
        simp [hplace]
      · have hplace : Selector.place? k items.length = none := by
          refine Option.eq_none_iff_forall_ne_some.mpr (fun j hj => hk ?_)
          obtain ⟨hj, hlt⟩ := place?_eq_some.mp hj
          simp only [Selector.normalized] at hj
          omega
        have hchild : n.child? (.index k) = none := by
          simp [Node.child?, hn, Json.child?, List.getElem?_eq_none (Nat.le_of_not_lt hk)]
        simp [hplace, hchild]
    | null | bool _ | number _ | string _ | object _ => simp [Node.child?, hn, Json.child?]

/-- The query of a place selects the node there and nothing else. -/
theorem ofLocation_evaluate (l : Location) (document : Json) :
    (ofLocation l).evaluate document = ((Node.root document).follow l).toList := by
  have hall (n : Node) : Segment.applyAll document [n]
      (l.map (fun step => .child [step.selector])) = (n.follow l).toList := by
    induction l generalizing n with
    | nil => simp [Segment.applyAll, Node.follow_nil]
    | cons step l ih =>
      have hstep : (Segment.child [step.selector]).apply document n = (n.child? step).toList := by
        simp [Segment.apply, Selector.selectAll, select_selector]
      have hfollow : n.follow (step :: l) = (n.child? step).bind (fun m => m.follow l) := by
        rw [← Node.follow_singleton, ← Node.follow_append]
        rfl
      rw [List.map_cons, Segment.applyAll, List.flatMap_singleton, hstep, hfollow, applyAll_eq]
      cases n.child? step with
      | none => rfl
      | some m => simpa using ih m
  exact hall (.root document)

end Query

namespace Json

mutual

/-- No array, at any depth, has more items than the bound. -/
def ArraysWithin (bound : Nat) : Json → Prop
  | .array items => items.length ≤ bound ∧ ItemsWithin bound items
  | .object members => MembersWithin bound members
  | _ => True

def ItemsWithin (bound : Nat) : List Json → Prop
  | [] => True
  | item :: items => ArraysWithin bound item ∧ ItemsWithin bound items

def MembersWithin (bound : Nat) : List (String × Json) → Prop
  | [] => True
  | (_, value) :: members => ArraysWithin bound value ∧ MembersWithin bound members

end

theorem itemsWithin_iff {bound : Nat} {items : List Json} :
    ItemsWithin bound items ↔ ∀ v ∈ items, v.ArraysWithin bound := by
  induction items with
  | nil => simp [ItemsWithin]
  | cons v vs ih => simp [ItemsWithin, ih]

theorem membersWithin_iff {bound : Nat} {members : List (String × Json)} :
    MembersWithin bound members ↔ ∀ m ∈ members, m.2.ArraysWithin bound := by
  induction members with
  | nil => simp [MembersWithin]
  | cons m ms ih =>
    obtain ⟨name, v⟩ := m
    simp [MembersWithin, ih]

theorem arraysWithin_of_mem {bound : Nat} {v c : Json} (h : v.ArraysWithin bound) {step : Step}
    (hc : (step, c) ∈ v.children) : c.ArraysWithin bound ∧ ∀ k, step = .index k → k < bound := by
  cases v with
  | array items =>
    obtain ⟨i, hi, heq⟩ := List.mem_mapIdx.mp hc
    cases heq
    refine ⟨itemsWithin_iff.mp h.2 _ (List.getElem_mem hi), ?_⟩
    rintro k ⟨⟩
    exact Nat.lt_of_lt_of_le hi h.1
  | object members =>
    obtain ⟨m, hm, heq⟩ := List.mem_map.mp hc
    cases heq
    exact ⟨membersWithin_iff.mp h m hm, by simp⟩
  | null | bool _ | number _ | string _ => simp [children] at hc

theorem arraysWithin_child {bound : Nat} {v c : Json} (h : v.ArraysWithin bound) {step : Step}
    (hc : v.child? step = some c) : c.ArraysWithin bound ∧ ∀ k, step = .index k → k < bound :=
  arraysWithin_of_mem h (mem_children_of_child? hc)

/-- The indices on the way to a value are those of the arrays around it. -/
theorem index_lt_of_at {bound : Nat} {v w : Json} (h : v.ArraysWithin bound) {l : Location}
    (hw : v.at? l = some w) {k : Nat} (hk : .index k ∈ l) : k < bound := by
  induction l generalizing v with
  | nil => simp at hk
  | cons step l ih =>
    obtain ⟨c, hc, hw⟩ := Option.bind_eq_some_iff.mp hw
    obtain ⟨hwithin, hindex⟩ := arraysWithin_child h hc
    rcases List.mem_cons.mp hk with rfl | hk
    · exact hindex k rfl
    · exact ih hwithin hw hk

end Json

/-- The normalized path of a result compiles wherever queries do, to a singular query that finds
that result again and nothing else. -/
theorem normalizedPath_finds_node {document : Json} (hd : document.UniqueNames)
    (ha : document.ArraysWithin (2 ^ 53)) {q : Query} {n : Node} (hn : n ∈ q.evaluate document)
    (env : Environment) :
    ∃ p, env.compile n.location.text = .ok p ∧ p.isSingular = true ∧
      p.evaluate document = [n] := by
  have hvalue := Query.at_of_mem_evaluate hd hn
  have hindices : ∀ k : Nat, .index k ∈ n.location → k ≤ maxIndex := by
    intro k hk
    have := Json.index_lt_of_at ha hvalue hk
    have hmax : maxIndex = 2 ^ 53 - 1 := rfl
    omega
  obtain ⟨ks, hspells, hnames⟩ := Query.ofLocation_spells n.location
  refine ⟨.ofLocation n.location, ?_, Query.ofLocation_isSingular n.location, ?_⟩
  · rw [← Query.ofLocation_text]
    exact Environment.compile_of_spells hspells hnames
      (Query.ofLocation_wellTyped hindices env.registry)
      (by rw [Query.ofLocation_depth]; exact Nat.zero_le _)
  · rw [Query.ofLocation_evaluate]
    have hroot : (Node.root document).follow n.location = some n := by
      simp [Node.follow, Node.root, hvalue]
    rw [hroot]
    rfl

/-- A name with a quote, and an index behind it. -/
theorem normalizedPath_finds_node_quoted :
    Location.text [.name "it's", .index 1] = "$['it\\'s'][1]" ∧
    ∃ p, Environment.default.compile (Location.text [.name "it's", .index 1]) = .ok p ∧
      p.isSingular = true ∧
      p.evaluate (.object [("it's", .array [.null, .bool true])]) =
        [⟨.bool true, [.name "it's", .index 1]⟩] := by
  have hd : (Json.object [("it's", .array [.null, .bool true])]).UniqueNames := by
    simp [Json.UniqueNames, Json.UniqueMembers, Json.UniqueItems]
  have ha : (Json.object [("it's", .array [.null, .bool true])]).ArraysWithin (2 ^ 53) := by
    simp [Json.ArraysWithin, Json.MembersWithin, Json.ItemsWithin]
  have hn : (⟨.bool true, [.name "it's", .index 1]⟩ : Node) ∈
      (Query.mk [.descendant [.wildcard]]).evaluate
        (.object [("it's", .array [.null, .bool true])]) := .tail _ (.tail _ (.head _))
  exact ⟨by cbv, normalizedPath_finds_node hd ha hn Environment.default⟩

end JsonQuery
