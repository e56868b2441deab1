import Mathlib
import JsonQuery.Proofs.Regexp.Completeness
import JsonQuery.Proofs.Regexp.Denotation
import JsonQuery.Proofs.Regexp.Scanning
import JsonQuery.Regexp.Limits

namespace JsonQuery
open Engine (CharSet Pattern Frame State GroupKind OpenClass)

namespace Regexp

/-- The members of a class that items spell. -/
def spelledItems (items : List ClassItem) : CharSet :=
  items.foldl (fun s item => .union s item.spelled) .empty

/-- The expression that an atom and its quantifier spell, given that of the atom. -/
def Quantifier.around (q : Quantifier) (e : Pattern) : Pattern :=
  match q.spelled with
  | some (low, high) => .repetition low high true e
  | none => e

end Regexp

mutual

/-- The frame that is reached by reading the translation of an expression. -/
def Regexp.reached : Regexp → Frame → Frame
  | .last b, f => ⟨f.branches, b.reached f.parts⟩
  | .alt b r, f => r.reached ⟨Frame.sequence (b.reached f.parts) :: f.branches, []⟩

/-- The parts, those of a branch included. -/
def Branch.reached : Branch → List Pattern → List Pattern
  | .done, ps => ps
  | .piece a q b, ps => b.reached (q.around a.spelled :: ps)

/-- The expression that an atom spells. -/
def Atom.spelled : Atom → Pattern
  | .symbol s => .literal s.char
  | .dot => .set (.complement (.union (.union .empty (.single '\n')) (.single '\r')))
  | .property complement p => .set (Regexp.propertySpelled complement p)
  | .bracket negated items => .set ((Regexp.spelledItems items).complementIf negated)
  | .group r => .group (.plain []) (r.reached .empty).pattern

end

namespace Engine.State

theorem read_scan {s s' : State} {cs rest : List Char} {l : Lexeme}
    (h : s.scan cs = some (l, rest)) (hs : s.step l = some s') : s.read cs = s'.read rest := by
  have hne : cs.isEmpty = false := by
    cases cs with
    | nil =>
      have := scan_length h
      simp at this
    | cons c cs => rfl
  rw [read, hne]
  simp only [Bool.false_eq_true, if_false]
  split
  · rename_i hnone
    rw [h] at hnone
    cases hnone
  · rename_i hsome
    rw [h] at hsome
    cases hsome
    rw [hs, Option.bind_some]

end Engine.State

namespace Regexp

section Reading

variable (f : Frame) (outer : List (GroupKind × Frame)) (rest : List Char)

/-- The items of a class are read one by one. -/
theorem read_items {items : List ClassItem} (h : ∀ item ∈ items, ∃ cs, item.Spells cs)
    (negated : Bool) (s : CharSet) :
    State.read ⟨[⟨negated, none, s⟩], f, outer⟩ (items.flatMap ClassItem.chars ++ ']' :: rest) =
      State.read ⟨[⟨negated, none, items.foldl (fun s item => .union s item.spelled) s⟩], f, outer⟩
        (']' :: rest) := by
  induction items generalizing s with
  | nil => rfl
  | cons item items ih =>
    have hnext : (items.flatMap ClassItem.chars ++ ']' :: rest).head? ≠ some '-' := by
      cases items with
      | nil => simp
      | cons next items =>
        obtain ⟨c, tail, hchars, hc⟩ := next.chars_head
        rw [List.flatMap_cons, hchars]
        rintro ⟨⟩
        exact hc (by decide)
    obtain ⟨cs, hcs⟩ := h item (List.mem_cons_self ..)
    have hitem : State.read ⟨[⟨negated, none, s⟩], f, outer⟩
        (item.chars ++ (items.flatMap ClassItem.chars ++ ']' :: rest)) =
          State.read ⟨[⟨negated, none, .union s item.spelled⟩], f, outer⟩
            (items.flatMap ClassItem.chars ++ ']' :: rest) :=
      State.read_scan (ClassItem.scanInClass_chars hcs hnext) rfl
    rw [List.flatMap_cons, List.append_assoc, hitem, ih (fun i hi => h i (by simp [hi])),
      List.foldl_cons]

theorem read_bracket {items : List ClassItem} (hne : items ≠ [])
    (h : ∀ item ∈ items, ∃ cs, item.Spells cs) (negated : Bool) :
    State.read ⟨[], f, outer⟩ ((Atom.bracket negated items).chars ++ rest) =
      State.read ⟨[], f.push (Atom.bracket negated items).spelled, outer⟩ rest := by
  have hopen : Engine.scanOpenClass
      ((if negated then ['^'] else []) ++ (items.flatMap ClassItem.chars ++ ']' :: rest)) =
        (.openClass negated [], items.flatMap ClassItem.chars ++ ']' :: rest) := by
    cases items with
    | nil => exact absurd rfl hne
    | cons item items =>
      obtain ⟨c, tail, hchars, hc⟩ := item.chars_head
      rw [List.flatMap_cons, hchars]
      refine Engine.scanOpenClass_of_notMem (fun hmem => hc ?_) negated _
      simp only [List.mem_cons, List.not_mem_nil, or_false] at hmem ⊢
      tauto
  have hscan : Engine.scan ((Atom.bracket negated items).chars ++ rest) =
      some (.openClass negated [], items.flatMap ClassItem.chars ++ ']' :: rest) := by
    rw [← hopen]
    simp [Atom.chars, Engine.scan]
  calc State.read ⟨[], f, outer⟩ ((Atom.bracket negated items).chars ++ rest)
      = State.read ⟨[⟨negated, none, .empty⟩], f, outer⟩
          (items.flatMap ClassItem.chars ++ ']' :: rest) := State.read_scan hscan rfl
    _ = State.read ⟨[⟨negated, none, spelledItems items⟩], f, outer⟩ (']' :: rest) :=
        read_items f outer rest h negated .empty
    _ = State.read ⟨[], f.push (Atom.bracket negated items).spelled, outer⟩ rest :=
        State.read_scan rfl rfl

theorem read_quantifier {q : Quantifier} {cs : List Char} (h : q.Spells cs) (bs ps : List Pattern)
    (a : Atom) (hr : rest.head? ≠ some '?') :
    State.read ⟨[], ⟨bs, a.spelled :: ps⟩, outer⟩ (q.chars ++ rest) =
      State.read ⟨[], ⟨bs, q.around a.spelled :: ps⟩, outer⟩ rest := by
  unfold Quantifier.around
  split
  · rename_i low high hq
    refine State.read_scan (Quantifier.scan_chars h hq hr) ?_
    cases a <;> rfl
  · cases q with
    | once => rfl
    | _ => contradiction

end Reading

namespace ClassItem

theorem spells_of_all {items : List ClassItem} {cs : List Char} (h : SpellsAll items cs) :
    ∀ item ∈ items, ∃ cs, item.Spells cs := by
  induction items generalizing cs with
  | nil => simp
  | cons first items ih =>
    obtain ⟨left, right, -, hfirst, hitems⟩ := h
    intro item hitem
    rcases List.mem_cons.mp hitem with rfl | hitem
    · exact ⟨left, hfirst⟩
    · exact ih hitems item hitem

theorem hyphen_spells : hyphen.Spells ['\\', '-'] := .inr ⟨by decide, rfl⟩

/-- A class has items, each of which could stand alone. -/
theorem spells_of_body {items : List ClassItem} {cs : List Char} (h : SpellsBody items cs) :
    items ≠ [] ∧ ∀ item ∈ items, ∃ cs, item.Spells cs := by
  obtain ⟨first, middle, last, left, inner, right, rfl, -, hfirst, hmiddle, hlast⟩ := h
  refine ⟨by simp, fun item hitem => ?_⟩
  rcases List.mem_append.mp hitem with hitem | hitem
  · rcases List.mem_cons.mp hitem with rfl | hitem
    · rcases hfirst with ⟨rfl, -⟩ | hfirst
      · exact ⟨_, hyphen_spells⟩
      · exact ⟨_, hfirst⟩
    · exact spells_of_all hmiddle item hitem
  · rcases hlast with ⟨rfl, -⟩ | ⟨rfl, -⟩
    · cases hitem
    · rw [List.mem_singleton.mp hitem]
      exact ⟨_, hyphen_spells⟩

end ClassItem
end Regexp

theorem Atom.chars_head (a : Atom) : ∃ c rest, a.chars = c :: rest ∧ c ≠ '?' := by
  cases a with
  | symbol s =>
    rcases s.chars_cases with ⟨c, hchars, -⟩ | ⟨c, -, hc, hchars⟩
    · exact ⟨'\\', [c], hchars, by decide⟩
    · refine ⟨c, [], hchars, ?_⟩
      rintro rfl
      exact hc (by decide)
  | dot | property complement p | bracket negated items => exact ⟨_, _, rfl, by decide⟩
  | group r => exact ⟨'(', _, rfl, by decide⟩

theorem Branch.head?_chars (b : Branch) {rest : List Char} (h : rest.head? ≠ some '?') :
    (b.chars ++ rest).head? ≠ some '?' := by
  cases b with
  | done => exact h
  | piece a q b =>
    obtain ⟨c, tail, hchars, hc⟩ := a.chars_head
    simpa [Branch.chars, hchars] using hc

-- The translation of what is spelled is read as it is written, whatever stands behind it; only a
-- question mark would change the last quantifier. The induction is on the expression.
mutual

theorem Regexp.read_chars : ∀ {r : Regexp} {cs : List Char}, r.Spells cs →
    ∀ (f : Frame) (outer : List (GroupKind × Frame)) {rest : List Char}, rest.head? ≠ some '?' →
      State.read ⟨[], f, outer⟩ (r.chars ++ rest) = State.read ⟨[], r.reached f, outer⟩ rest
  | .last _, _, h, f, outer, _, hr => Branch.read_chars h f.branches f.parts outer hr
  | .alt b r, _, ⟨_, _, _, hb, hothers⟩, f, outer, rest, hr => by
    calc State.read ⟨[], f, outer⟩ ((Regexp.alt b r).chars ++ rest)
        = State.read ⟨[], f, outer⟩ (b.chars ++ '|' :: (r.chars ++ rest)) := by
          simp [Regexp.chars]
      _ = State.read ⟨[], ⟨f.branches, b.reached f.parts⟩, outer⟩ ('|' :: (r.chars ++ rest)) :=
          Branch.read_chars hb f.branches f.parts outer (by simp)
      _ = State.read ⟨[], ⟨Frame.sequence (b.reached f.parts) :: f.branches, []⟩, outer⟩
            (r.chars ++ rest) := State.read_scan rfl rfl
      _ = State.read ⟨[], (Regexp.alt b r).reached f, outer⟩ rest :=
          Regexp.read_chars hothers _ outer hr

theorem Branch.read_chars : ∀ {b : Branch} {cs : List Char}, b.Spells cs →
    ∀ (bs ps : List Pattern) (outer : List (GroupKind × Frame)) {rest : List Char},
      rest.head? ≠ some '?' →
      State.read ⟨[], ⟨bs, ps⟩, outer⟩ (b.chars ++ rest) =
        State.read ⟨[], ⟨bs, b.reached ps⟩, outer⟩ rest
  | .done, _, _, _, _, _, _, _ => rfl
  | .piece a q b, _, ⟨_, _, _, _, ha, hq, hb⟩, bs, ps, outer, rest, hr => by
    calc State.read ⟨[], ⟨bs, ps⟩, outer⟩ ((Branch.piece a q b).chars ++ rest)
        = State.read ⟨[], ⟨bs, ps⟩, outer⟩ (a.chars ++ (q.chars ++ (b.chars ++ rest))) := by
          simp [Branch.chars]
      _ = State.read ⟨[], ⟨bs, a.spelled :: ps⟩, outer⟩ (q.chars ++ (b.chars ++ rest)) :=
          Atom.read_chars ha _ outer _
      _ = State.read ⟨[], ⟨bs, q.around a.spelled :: ps⟩, outer⟩ (b.chars ++ rest) :=
          Regexp.read_quantifier outer _ hq bs ps a (b.head?_chars hr)
      _ = State.read ⟨[], ⟨bs, (Branch.piece a q b).reached ps⟩, outer⟩ rest :=
          Branch.read_chars hb bs _ outer hr

theorem Atom.read_chars : ∀ {a : Atom} {cs : List Char}, a.Spells cs →
    ∀ (f : Frame) (outer : List (GroupKind × Frame)) (rest : List Char),
      State.read ⟨[], f, outer⟩ (a.chars ++ rest) = State.read ⟨[], f.push a.spelled, outer⟩ rest
  | .symbol s, _, _, _, _, rest => State.read_scan (s.scan_chars rest) rfl
  | .dot, _, _, f, outer, rest => by
    have hitems : ∀ item ∈ [Regexp.ClassItem.single .lineFeed, .single .carriageReturn],
        ∃ cs, item.Spells cs := by
      intro item hitem
      simp only [List.mem_cons, List.not_mem_nil, or_false] at hitem
      rcases hitem with rfl | rfl
      · exact ⟨_, .inr rfl⟩
      · exact ⟨_, .inr rfl⟩
    exact Regexp.read_bracket f outer rest (by simp) hitems true
  | .property complement p, _, h, f, outer, rest => by
    have hescape := Regexp.scanEscape_property complement h.1 rest
    have hscan : Engine.scan (Regexp.propertyChars complement p ++ rest) =
        some (.pattern (.set (Regexp.propertySpelled complement p)), rest) := by
      simp [Regexp.propertyChars, Engine.scan, hescape, Engine.Escape.pattern]
    exact State.read_scan hscan rfl
  | .bracket negated items, _, ⟨_, hbody, _⟩, f, outer, rest => by
    obtain ⟨hne, hitems⟩ := Regexp.ClassItem.spells_of_body hbody
    exact Regexp.read_bracket f outer rest hne hitems negated
  | .group r, _, ⟨_, _, hr⟩, f, outer, rest => by
    calc State.read ⟨[], f, outer⟩ ((Atom.group r).chars ++ rest)
        = State.read ⟨[], f, outer⟩ (['(', '?', ':'] ++ (r.chars ++ ')' :: rest)) := by
          simp [Atom.chars]
      _ = State.read ⟨[], .empty, (.plain [], f) :: outer⟩ (r.chars ++ ')' :: rest) :=
          State.read_scan rfl rfl
      _ = State.read ⟨[], r.reached .empty, (.plain [], f) :: outer⟩ (')' :: rest) :=
          Regexp.read_chars hr _ _ (by simp)
      _ = State.read ⟨[], f.push (Atom.group r).spelled, outer⟩ rest := State.read_scan rfl rfl

end

section Meaning

variable {properties : List Char → Option (Set Char)}

namespace Regexp

theorem members?_complementIf (negated : Bool) {s : CharSet} {members : Set Char}
    (h : s.members? properties = some members) :
    (s.complementIf negated).members? properties =
      some (if negated then membersᶜ else members) := by
  cases negated with
  | false => exact h
  | true => simp [CharSet.complementIf, CharSet.members?, h]

theorem ClassItem.members?_spelled (hp : Engine.KnowsCategories properties) {item : ClassItem}
    {cs : List Char} (h : item.Spells cs) :
    item.spelled.members? properties = some item.members := by
  cases item with
  | single s => rfl
  | range low high => rfl
  | property complement p => exact members?_complementIf complement (hp p h.1)

theorem members?_spelledItems (hp : Engine.KnowsCategories properties) {items : List ClassItem}
    (h : ∀ item ∈ items, ∃ cs, item.Spells cs) :
    (spelledItems items).members? properties =
      some {c | ∃ item ∈ items, c ∈ item.members} := by
  have hall (s : CharSet) (members : Set Char) (hs : s.members? properties = some members) :
      (items.foldl (fun s item => .union s item.spelled) s).members? properties =
        some (members ∪ {c | ∃ item ∈ items, c ∈ item.members}) := by
    induction items generalizing s members with
    | nil => simp [hs]
    | cons item items ih =>
      obtain ⟨cs, hcs⟩ := h item (List.mem_cons_self ..)
      have hitem := ClassItem.members?_spelled hp hcs
      have hunion : (CharSet.union s item.spelled).members? properties =
          some (members ∪ item.members) := by simp [CharSet.members?, hs, hitem]
      rw [List.foldl_cons, ih (fun i hi => h i (by simp [hi])) _ _ hunion, Set.union_assoc]
      congr 2
      ext c
      simp
  rw [spelledItems, hall .empty ∅ rfl, Set.empty_union]

theorem Quantifier.language?_around (q : Quantifier) {e : Pattern} {l : Language Char}
    (h : e.language? properties = some l) :
    (q.around e).language? properties = some (q.apply l) := by
  cases q with
  | once => exact h
  | star => simp [around, spelled, Pattern.language?, h, apply, repeated_zero_none]
  | plus => simp [around, spelled, Pattern.language?, h, apply, repeated_none]
  | optional => simp [around, spelled, Pattern.language?, h, apply, repeated_zero_one]
  | exactly n => simp [around, spelled, Pattern.language?, h, apply, repeated_exactly]
  | atLeast n => simp [around, spelled, Pattern.language?, h, apply, repeated_none]
  | between n m => simp [around, spelled, Pattern.language?, h, apply]

end Regexp

-- What is read denotes the language of the expression. The induction is on the expression; the
-- alternatives and the parts in front of it keep what they denote.
mutual

theorem Regexp.language?_reached (hp : Engine.KnowsCategories properties) :
    ∀ {r : Regexp} {cs : List Char}, r.Spells cs → ∀ {bs : List Pattern} {branches : Language Char},
      Frame.branchesLanguage? properties bs = some branches →
      (r.reached ⟨bs, []⟩).pattern.language? properties = some (branches + r.language)
  | .last b, _, h, bs, branches, hbs => by
    have hparts := Branch.partsLanguage?_reached hp h (rfl : Frame.partsLanguage? properties [] = _)
    rw [one_mul] at hparts
    exact Frame.language?_pattern properties hbs hparts
  | .alt b r, _, ⟨_, _, _, hb, hothers⟩, bs, branches, hbs => by
    have hparts := Branch.partsLanguage?_reached hp hb
      (rfl : Frame.partsLanguage? properties [] = _)
    rw [one_mul, ← Frame.language?_sequence] at hparts
    have hbranches : Frame.branchesLanguage? properties
        (Frame.sequence (b.reached []) :: bs) = some (branches + b.language) := by
      simp [Frame.branchesLanguage?, hbs, hparts]
    rw [Regexp.reached, Regexp.language?_reached hp hothers hbranches, Regexp.language, add_assoc]

theorem Branch.partsLanguage?_reached (hp : Engine.KnowsCategories properties) :
    ∀ {b : Branch} {cs : List Char}, b.Spells cs → ∀ {ps : List Pattern} {parts : Language Char},
      Frame.partsLanguage? properties ps = some parts →
      Frame.partsLanguage? properties (b.reached ps) = some (parts * b.language)
  | .done, _, _, ps, parts, hps => by
    rw [Branch.reached, hps, Branch.language, mul_one]
  | .piece a q b, _, ⟨_, _, _, _, ha, _, hb⟩, ps, parts, hps => by
    have hatom := q.language?_around (Atom.language?_spelled hp ha)
    have hparts : Frame.partsLanguage? properties (q.around a.spelled :: ps) =
        some (parts * q.apply a.language) := by simp [Frame.partsLanguage?, hps, hatom]
    rw [Branch.reached, Branch.partsLanguage?_reached hp hb hparts, Branch.language, mul_assoc]

theorem Atom.language?_spelled (hp : Engine.KnowsCategories properties) :
    ∀ {a : Atom} {cs : List Char}, a.Spells cs → a.spelled.language? properties = some a.language
  | .symbol _, _, _ => rfl
  | .dot, _, _ => by
    have hpair : ({'\r', '\n'} : Set Char) = {'\n', '\r'} := Set.pair_comm _ _
    simp [Atom.spelled, Pattern.language?, CharSet.members?, Atom.language, hpair]
  | .property complement p, _, h => by
    have hname : (CharSet.property p.name).members? properties = some p.members := hp p h.1
    have hmembers := Regexp.members?_complementIf complement hname
    simp [Atom.spelled, Pattern.language?, Regexp.propertySpelled, hmembers, Atom.language]
  | .bracket negated items, _, ⟨_, hbody, _⟩ => by
    have hitems := Regexp.members?_spelledItems hp (Regexp.ClassItem.spells_of_body hbody).2
    have hmembers := Regexp.members?_complementIf negated hitems
    simp [Atom.spelled, Pattern.language?, hmembers, Atom.language]
  | .group r, _, ⟨_, _, hr⟩ => by
    have hinner := Regexp.language?_reached hp hr (rfl : Frame.branchesLanguage? properties [] = _)
    rw [zero_add] at hinner
    exact hinner

end
end Meaning

namespace Regexp

theorem isValid_complementIf (negated : Bool) (s : CharSet) :
    (s.complementIf negated).isValid = s.isValid := by cases negated <;> rfl

theorem isValid_spelledItems (items : List ClassItem) :
    (spelledItems items).isValid = items.all ClassItem.isSound := by
  have hitem (item : ClassItem) : item.spelled.isValid = item.isSound := by
    cases item with
    | single s => rfl
    | range low high => rfl
    | property complement p => exact isValid_complementIf complement _
  have hall (s : CharSet) : (items.foldl (fun s item => .union s item.spelled) s).isValid =
      (s.isValid && items.all ClassItem.isSound) := by
    induction items generalizing s with
    | nil => simp
    | cons item items ih =>
      rw [List.foldl_cons, ih, CharSet.isValid, hitem, List.all_cons, Bool.and_assoc]
  exact hall .empty

theorem Quantifier.isValid_around (q : Quantifier) (e : Pattern) :
    (q.around e).isValid = (e.isValid && q.isSound) := by
  cases q with
  | between n m =>
    simp only [around, spelled, Pattern.isValid, isSound, boundFits, Option.all_some]
    ac_rfl
  | _ => simp [around, spelled, Pattern.isValid, isSound, boundFits, Bool.and_comm]

end Regexp

-- The bounds and ranges that an engine checks are those of the expression. The induction is on the
-- expression.
mutual

theorem Regexp.isValid_reached : ∀ (r : Regexp) (bs : List Pattern),
    (r.reached ⟨bs, []⟩).pattern.isValid = (bs.all Pattern.isValid && r.isSound)
  | .last b, bs => by
    rw [Regexp.reached, Frame.isValid_pattern, Branch.all_isValid_reached b]
    simp [Regexp.isSound]
  | .alt b r, bs => by
    rw [Regexp.reached, Regexp.isValid_reached r, List.all_cons, Frame.isValid_sequence,
      Branch.all_isValid_reached b, Regexp.isSound]
    simp
    ac_rfl

theorem Branch.all_isValid_reached : ∀ (b : Branch) (ps : List Pattern),
    (b.reached ps).all Pattern.isValid = (ps.all Pattern.isValid && b.isSound)
  | .done, ps => by rw [Branch.reached, Branch.isSound, Bool.and_true]
  | .piece a q b, ps => by
    rw [Branch.reached, Branch.all_isValid_reached b, List.all_cons, q.isValid_around,
      Atom.isValid_spelled a, Branch.isSound]
    ac_rfl

theorem Atom.isValid_spelled : ∀ a : Atom, a.spelled.isValid = a.isSound
  | .symbol _ | .dot => rfl
  | .property complement p => Regexp.isValid_complementIf complement _
  | .bracket negated items => by
    rw [Atom.spelled, Pattern.isValid, Regexp.isValid_complementIf, Regexp.isValid_spelledItems,
      Atom.isSound]
  | .group r => Regexp.isValid_reached r []

end

namespace Regexp

/-- The whole translation is a text of the engine's notation. -/
theorem read_text {r : Regexp} {cs : List Char} (h : r.Spells cs) :
    Engine.read r.text.toList = some (r.reached .empty).pattern := by
  have hend : ([] : List Char).head? ≠ some '?' := by simp
  have hread := read_chars h .empty [] hend
  rw [List.append_nil] at hread
  rw [text, String.toList_ofList, Engine.read, State.start, hread, State.read]
  rfl

/-- What the translation denotes in the engine's notation, and whether its bounds and ranges pass. -/
theorem language?_text {properties : List Char → Option (Set Char)}
    (hp : Engine.KnowsCategories properties) {r : Regexp} {cs : List Char} (h : r.Spells cs) :
    ∃ e, Engine.read r.text.toList = some e ∧ e.language? properties = some r.language ∧
      e.isValid = r.isSound := by
  refine ⟨_, read_text h, ?_, ?_⟩
  · have hlanguage := language?_reached hp h (rfl : Frame.branchesLanguage? properties [] = _)
    rwa [zero_add] at hlanguage
  · rw [Frame.empty, isValid_reached]
    rfl

/-- The translation of a pattern keeps its language. A pattern has one reading by RFC 9485; the
translation is a text of the engine's notation, which denotes the texts that this reading matches.
A library compiles it to these, unless bounds are too large, bounds or ranges are out of order, or
its limits are exceeded. -/
theorem translation_denotes {L : Engine.Library} (hL : L.Documented) {pattern : String} {r : Regexp}
    (h : ofPattern pattern = .ok r) :
    r.Spells pattern.toList ∧ (∀ s : Regexp, s.Spells pattern.toList → s = r) ∧
      (∃ e, Engine.read r.text.toList = some e ∧
        e.language? L.properties = some r.language) ∧
      (∀ l ∈ L.compile r.text.toList, l = r.language) ∧
      (L.compile r.text.toList = none → r.isSound = false ∨ L.exceeds r.text.toList) := by
  have hspells := ofPattern_spells h
  obtain ⟨e, hread, hlanguage, hvalid⟩ := language?_text hL.categories hspells
  refine ⟨hspells, fun s hs => hs.unique hspells, ⟨e, hread, hlanguage⟩,
    hL.means hread hlanguage, fun hnone => ?_⟩
  by_contra hneither
  obtain ⟨hsound, hlimits⟩ := not_or.mp hneither
  have hcompiles := hL.compiles hread hlanguage (by simpa [hvalid] using hsound) hlimits
  rw [hnone] at hcompiles
  cases hcompiles

/-- An expression whose characters have a meaning of their own in the engine's notation. -/
def sample : Regexp :=
  let members := [ClassItem.hyphen, .range (.plain 'a') (.plain 'c'),
    .property true (.one .uppercaseLetter)]
  let inner := Regexp.alt (.piece .dot .optional .done) (.last .done)
  .last (.piece (.symbol (.plain '&')) .once (.piece (.symbol (.plain '&')) .star
    (.piece (.bracket true members) (.between ['2'] ['3'])
      (.piece (.group inner) .once .done))))

theorem translation_denotes_sample :
    Engine.Library.unlimited.Documented ∧
      ofPattern "&&*[^-a-c\\P\x7bLu\x7d]\x7b2,3\x7d(.?|)" = .ok sample ∧
      sample.text = "\\&\\&*[^\\-a-c\\P\x7bLu\x7d]\x7b2,3\x7d(?:[^\\n\\r]?|)" ∧
      Engine.Library.unlimited.compile sample.text.toList = some sample.language := by
  have hread : ofPattern "&&*[^-a-c\\P\x7bLu\x7d]\x7b2,3\x7d(.?|)" = .ok sample := by cbv
  obtain ⟨-, -, -, hmeans, hnone⟩ :=
    translation_denotes Engine.Library.unlimited_documented hread
  refine ⟨Engine.Library.unlimited_documented, hread, by decide, ?_⟩
  cases hcompile : Engine.Library.unlimited.compile sample.text.toList with
  | none =>
    rcases hnone hcompile with hsound | hlimits
    · exact absurd hsound (by decide)
    · exact hlimits.elim
  | some l => rw [hmeans l hcompile]

end Regexp
end JsonQuery
