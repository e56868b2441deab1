import JsonQuery.Function.Standard
import JsonQuery.Proofs.Regexp.Translation
import JsonQuery.Proofs.Regexp.Walk

namespace JsonQuery
open Engine (Pattern Frame State)

namespace Engine
open Regexp (Between oneOf repeated)

/-- A relation of places of a text, a number of times one behind the other. -/
def chained (cs : List Char) (rel : Nat → Nat → Prop) : Nat → Nat → Nat → Prop
  | 0 => Between cs 1
  | n + 1 => Relation.Comp (chained cs rel n) rel

section Spans

variable (properties : List Char → Option (Set Char)) (cs : List Char)

/-- From where to where an expression may match in a text, where no flag has been set. What asserts
something about words, sets flags or gives a group a name is left out. -/
def Pattern.spans? : Pattern → Option (Nat → Nat → Prop)
  | .empty => some (Between cs 1)
  | .literal c => some (Between cs {[c]})
  | .dot => some (Between cs (oneOf {'\n'}ᶜ))
  | .set s => (s.members? properties).map (fun members => Between cs (oneOf members))
  | .assertion .textStart | .assertion .lineStart => some (fun i j => i = 0 ∧ j = 0)
  | .assertion .textEnd | .assertion .lineEnd => some (fun i j => i = cs.length ∧ j = cs.length)
  | .assertion _ | .flags _ => none
  | .repetition low high _ e => e.spans?.map (fun rel i j =>
      ∃ n, low ≤ n ∧ (∀ m ∈ high, n ≤ m) ∧ chained cs rel n i j)
  | .group (.plain fs) e => if fs.isEmpty then e.spans? else none
  | .group .numbered e => e.spans?
  | .group (.named _) _ => none
  | .concat a b => do return Relation.Comp (← a.spans?) (← b.spans?)
  | .alternation a b => do
    let left ← a.spans?
    let right ← b.spans?
    return fun i j => left i j ∨ right i j

end Spans

section Meaning

variable {properties : List Char → Option (Set Char)} (cs : List Char)

theorem comp_between (l m : Language Char) :
    Relation.Comp (Between cs l) (Between cs m) = Between cs (l * m) := by
  funext i j
  exact propext Regexp.between_mul.symm

theorem chained_between (l : Language Char) (n : Nat) :
    chained cs (Between cs l) n = Between cs (l ^ n) := by
  induction n with
  | zero => rw [chained, pow_zero]
  | succ n ih => rw [chained, ih, comp_between, pow_succ]

theorem repetition_between (low : Nat) (high : Option Nat) (l : Language Char) :
    (fun i j => ∃ n, low ≤ n ∧ (∀ m ∈ high, n ≤ m) ∧ chained cs (Between cs l) n i j) =
      Between cs (repeated low high l) := by
  funext i j
  simp only [chained_between]
  apply propext
  constructor
  · rintro ⟨n, hlow, hhigh, front, word, back, hsplit, hi, hj, hword⟩
    exact ⟨front, word, back, hsplit, hi, hj, n, hlow, hhigh, hword⟩
  · rintro ⟨front, word, back, hsplit, hi, hj, n, hlow, hhigh, hword⟩
    exact ⟨n, hlow, hhigh, front, word, back, hsplit, hi, hj, hword⟩

/-- An expression that denotes a language matches its texts wherever they stand. -/
theorem Pattern.spans?_of_language? {e : Pattern} {l : Language Char}
    (h : e.language? properties = some l) : e.spans? properties cs = some (Between cs l) := by
  induction e generalizing l with
  | empty | literal _ | dot =>
    cases h
    rfl
  | set s =>
    obtain ⟨members, hmembers, rfl⟩ := Option.map_eq_some_iff.mp h
    simp [spans?, hmembers]
  | assertion a | flags fs => cases h
  | repetition low high greedy e ih =>
    obtain ⟨inner, hinner, rfl⟩ := Option.map_eq_some_iff.mp h
    rw [spans?, ih hinner, Option.map_some, repetition_between]
  | group kind e ih =>
    cases kind with
    | numbered => exact ih h
    | named name => cases h
    | plain fs =>
      rw [language?] at h
      rw [spans?]
      split at h
      · rename_i hfs
        rw [if_pos hfs, ih h]
      · cases h
  | concat a b iha ihb =>
    simp only [language?, Option.bind_eq_bind, Option.bind_eq_some_iff] at h
    obtain ⟨left, hleft, right, hright, heq⟩ := h
    cases heq
    simp [spans?, iha hleft, ihb hright, comp_between]
  | alternation a b iha ihb =>
    simp only [language?, Option.bind_eq_bind, Option.bind_eq_some_iff] at h
    obtain ⟨left, hleft, right, hright, heq⟩ := h
    cases heq
    have hor : (fun i j => Between cs left i j ∨ Between cs right i j) =
        Between cs (left + right) := by
      funext i j
      exact propext Regexp.between_add.symm
    simp [spans?, iha hleft, ihb hright, hor]

end Meaning

/-- A library of regular expressions as it is used: the properties that it knows, and for the texts
that it compiles, in which subjects it finds a match. -/
structure Finder where
  properties : List Char → Option (Set Char)
  compile : List Char → Option (List Char → Bool)

/-- A library does what is documented: it knows the categories, and it finds a match if some part of
the subject is matched. -/
structure Finder.Documented (F : Finder) : Prop where
  categories : KnowsCategories F.properties
  finds : ∀ {cs e find subject rel}, read cs = some e → F.compile cs = some find →
    e.spans? F.properties subject = some rel → (find subject = true ↔ ∃ i j, rel i j)

end Engine

namespace Regexp
open Engine (Finder)

/-- What an engine is to compile. To match a whole text, the expression stands in a group between
two anchors. -/
def source (r : Regexp) : Extent → List Char
  | .whole => ['\\', 'A', '(', '?', ':'] ++ r.chars ++ [')', '\\', 'z']
  | .part => r.chars

end Regexp

/-- Whether a library finds a pattern in a text. A pattern that is no I-Regexp, or whose translation
the library does not compile, is found nowhere. -/
def Engine.Finder.isMatch (F : Engine.Finder) (extent : Regexp.Extent) (pattern text : String) :
    Bool :=
  match Regexp.ofPattern pattern with
  | .ok r => (F.compile (r.source extent)).any (fun find => find text.toList)
  | .error _ => false

namespace Regexp
open Engine (Finder)

/-- An expression in a group between the anchors of a text. -/
def anchored (e : Pattern) : Pattern :=
  .concat (.assertion .textStart)
    (.concat (.group (.plain []) e) (.concat (.assertion .textEnd) .empty))

theorem read_source_whole {r : Regexp} {cs : List Char} (h : r.Spells cs) :
    Engine.read (r.source .whole) = some (anchored (r.reached .empty).pattern) := by
  let start : Frame := Frame.empty.push (.assertion .textStart)
  have hend : ([')', '\\', 'z'] : List Char).head? ≠ some '?' := by simp
  calc Engine.read (r.source .whole)
      = State.read ⟨[], start, []⟩ (['(', '?', ':'] ++ (r.chars ++ [')', '\\', 'z'])) := by
        rw [source, List.append_assoc]
        exact State.read_scan rfl rfl
    _ = State.read ⟨[], .empty, [(.plain [], start)]⟩ (r.chars ++ [')', '\\', 'z']) :=
        State.read_scan rfl rfl
    _ = State.read ⟨[], r.reached .empty, [(.plain [], start)]⟩ [')', '\\', 'z'] :=
        read_chars h _ _ hend
    _ = State.read ⟨[], start.push (.group (.plain []) (r.reached .empty).pattern), []⟩
          ['\\', 'z'] := State.read_scan rfl rfl
    _ = State.read ⟨[], (start.push (.group (.plain []) (r.reached .empty).pattern)).push
          (.assertion .textEnd), []⟩ [] := State.read_scan rfl rfl
    _ = some (anchored (r.reached .empty).pattern) := by
        rw [State.read]
        rfl

/-- What is found between anchors is the whole text. -/
theorem spans?_anchored {properties : List Char → Option (Set Char)} {e : Pattern}
    {l : Language Char} (h : e.language? properties = some l) (cs : List Char) :
    ∃ rel, (anchored e).spans? properties cs = some rel ∧ ((∃ i j, rel i j) ↔ cs ∈ l) := by
  refine ⟨_, by simp only [anchored, Pattern.spans?, Pattern.spans?_of_language? cs h]; rfl, ?_⟩
  rw [← between_whole]
  constructor
  · rintro ⟨_, _, _, ⟨-, rfl⟩, _, hwhole, _, ⟨rfl, -⟩, -⟩
    exact hwhole
  · intro hwhole
    exact ⟨0, cs.length, 0, ⟨rfl, rfl⟩, cs.length, hwhole, cs.length, ⟨rfl, rfl⟩,
      between_one.mpr ⟨rfl, Nat.le_refl _⟩⟩

section Documented

variable {F : Finder} (hF : F.Documented) {r : Regexp} {cs : List Char} (h : r.Spells cs)
  {find : List Char → Bool}

include hF h

theorem find_whole_iff (hfind : F.compile (r.source .whole) = some find) (subject : List Char) :
    find subject = true ↔ subject ∈ r.language := by
  obtain ⟨e, hread, hlanguage, -⟩ := language?_text hF.categories h
  rw [read_text h, Option.some.injEq] at hread
  rw [← hread] at hlanguage
  obtain ⟨rel, hrel, hiff⟩ := spans?_anchored hlanguage subject
  rw [hF.finds (read_source_whole h) hfind hrel, hiff]

theorem find_part_iff (hfind : F.compile (r.source .part) = some find) (subject : List Char) :
    find subject = true ↔ ∃ part, part <:+: subject ∧ part ∈ r.language := by
  obtain ⟨e, hread, hlanguage, -⟩ := language?_text hF.categories h
  rw [text, String.toList_ofList] at hread
  rw [hF.finds hread hfind (Pattern.spans?_of_language? subject hlanguage), exists_between]

end Documented

end Regexp

namespace Engine

/-- The library that does just what is documented, and has no limits. -/
noncomputable def Finder.unlimited : Finder where
  properties := categories
  compile cs := (read cs).bind (fun e =>
    if e.isValid then
      some (fun subject => open Classical in
        decide (∃ rel ∈ e.spans? categories subject, ∃ i j, rel i j))
    else none)

theorem Finder.unlimited_documented : Finder.unlimited.Documented where
  categories p hp := by
    simp [unlimited, Engine.categories, Regexp.Property.ofName?_name p hp]
  finds hread hfind hrel := by
    simp only [unlimited, hread, Option.bind_some] at hfind hrel
    split at hfind
    · cases hfind
      simp [hrel]
    · cases hfind

end Engine

namespace Extension
open Engine (Finder)
open Regexp (ofPattern)

/-- Arguments that are a text and a pattern. -/
def texts (text pattern : String) : List TypedValue :=
  [.value (some (.string text)), .value (some (.string pattern))]

/-- The function that asks a library. -/
def finding (F : Finder) (extent : Regexp.Extent) : Extension :=
  let name := match extent with
    | .whole => "match"
    | .part => "search"
  regexpTest name (F.isMatch extent)

/-- Two functions that agree on the language of a pattern: one takes the texts that belong to it, and
the other those with a part that the first one takes. -/
def AgreeOn (whole part : Extension) (pattern : String) (l : Language Char) : Prop :=
  ∀ text : String,
    (whole.apply (texts text pattern) = .logical true ↔ text.toList ∈ l) ∧
    (part.apply (texts text pattern) = .logical true ↔ ∃ t : String,
      t.toList <:+: text.toList ∧ whole.apply (texts t pattern) = .logical true)

theorem apply_regexpTest (name : String) (test : String → String → Bool) (text pattern : String) :
    (regexpTest name test).apply (texts text pattern) = .logical (test pattern text) := rfl

theorem agreeOn_of_tests {whole part : String → String → Bool} {pattern : String}
    {l : Language Char} (hw : ∀ text : String, whole pattern text = true ↔ text.toList ∈ l)
    (hp : ∀ text : String, part pattern text = true ↔ ∃ t, t <:+: text.toList ∧ t ∈ l)
    (name name' : String) : AgreeOn (regexpTest name whole) (regexpTest name' part) pattern l := by
  intro text
  simp only [apply_regexpTest, TypedValue.logical.injEq, hw, hp, true_and]
  constructor
  · rintro ⟨t, ht, hl⟩
    exact ⟨String.ofList t, by simpa using ht, by simpa using hl⟩
  · rintro ⟨t, ht, hl⟩
    exact ⟨t.toList, ht, hl⟩

/-- What is no text, or no pattern, matches nothing. -/
theorem regexpTest_nonstring (name : String) (test : String → String → Bool)
    {first second : Option Json}
    (h : (∀ text, first ≠ some (.string text)) ∨ ∀ pattern, second ≠ some (.string pattern)) :
    (regexpTest name test).apply [.value first, .value second] = .logical false := by
  simp only [regexpTest, List.head?_cons, List.getElem?_cons_succ, List.getElem?_cons_zero,
    Option.bind_some, TypedValue.value?]
  split
  · rename_i text pattern
    rcases h with h | h
    · exact absurd rfl (h text)
    · exact absurd rfl (h pattern)
  · rfl

/-- The two functions that test texts agree on the language of a pattern, be it alternatives, empty
or full of signs that mean something to an engine. They do so by themselves, and with any library
that finds what is documented: anchors around a group ask for the whole text, and the expression
alone for a part. What is no pattern or no string matches nothing. -/
theorem fullMatch_search_language (pattern : String) :
    (∀ r, ofPattern pattern = .ok r →
      (r.isSupported .whole = true → r.isSupported .part = true →
        AgreeOn fullMatch search pattern r.language) ∧
      ∀ F : Finder, F.Documented → (F.compile (r.source .whole)).isSome →
        (F.compile (r.source .part)).isSome →
          AgreeOn (finding F .whole) (finding F .part) pattern r.language) ∧
    (∀ e, ofPattern pattern = .error e → ∀ text : String,
      fullMatch.apply (texts text pattern) = .logical false ∧
      search.apply (texts text pattern) = .logical false ∧
      ∀ (F : Finder) (extent : Regexp.Extent),
        (finding F extent).apply (texts text pattern) = .logical false) ∧
    ∀ first second : Option Json,
      (∀ text, first ≠ some (.string text)) ∨ (∀ pattern, second ≠ some (.string pattern)) →
        fullMatch.apply [.value first, .value second] = .logical false ∧
        search.apply [.value first, .value second] = .logical false ∧
        ∀ (F : Finder) (extent : Regexp.Extent),
          (finding F extent).apply [.value first, .value second] = .logical false := by
  refine ⟨fun r hr => ⟨fun hwhole hpart => ?_, fun F hF hwhole hpart => ?_⟩,
    fun e he text => ⟨?_, ?_, fun F extent => ?_⟩, fun first second h => ⟨?_, ?_, fun F extent => ?_⟩⟩
  · have hsound : r.isSound = true := by
      simp only [Regexp.isSupported, Bool.and_eq_true] at hwhole
      exact hwhole.1.1
    refine agreeOn_of_tests (fun text => ?_) (fun text => ?_) _ _
    · rw [Regexp.isFullMatch, hr]
      simp only [hwhole, Bool.true_and, Regexp.matchesAll_iff hsound]
    · rw [Regexp.isPartMatch, hr]
      simp only [hpart, Bool.true_and, Regexp.matchesPart_iff hsound]
  · obtain ⟨whole, hwhole⟩ := Option.isSome_iff_exists.mp hwhole
    obtain ⟨part, hpart⟩ := Option.isSome_iff_exists.mp hpart
    have hspells := Regexp.ofPattern_spells hr
    refine agreeOn_of_tests (fun text => ?_) (fun text => ?_) _ _
    · simp only [Finder.isMatch, hr, hwhole, Option.any_some]
      exact Regexp.find_whole_iff hF hspells hwhole text.toList
    · simp only [Finder.isMatch, hr, hpart, Option.any_some]
      exact Regexp.find_part_iff hF hspells hpart text.toList
  · rw [fullMatch, apply_regexpTest, Regexp.isFullMatch, he]
  · rw [search, apply_regexpTest, Regexp.isPartMatch, he]
  · rw [finding.eq_def, apply_regexpTest, Finder.isMatch, he]
  · exact regexpTest_nonstring _ _ h
  · exact regexpTest_nonstring _ _ h
  · exact regexpTest_nonstring _ _ h

/-- Alternatives of which one is empty, and a character that means something else to an engine. -/
theorem fullMatch_search_language_alternatives :
    let r : Regexp := .alt (.piece (.symbol (.plain 'a')) .once
      (.piece (.symbol (.plain '^')) .once .done)) (.last .done)
    ofPattern "a^|" = .ok r ∧ r.isSupported .whole = true ∧ r.isSupported .part = true ∧
      AgreeOn fullMatch search "a^|" r.language ∧ Finder.unlimited.Documented ∧
      AgreeOn (finding .unlimited .whole) (finding .unlimited .part) "a^|" r.language ∧
      fullMatch.apply [.value (some .null), .value (some (.string "a^|"))] = .logical false := by
  intro r
  have hread : ofPattern "a^|" = .ok r := by cbv
  have hwhole : r.isSupported .whole = true := by decide +kernel
  have hpart : r.isSupported .part = true := by decide +kernel
  obtain ⟨hok, -, hnonstring⟩ := fullMatch_search_language "a^|"
  obtain ⟨hagree, hfinder⟩ := hok r hread
  have hcompile (cs : List Char) {e : Pattern} (he : Engine.read cs = some e)
      (hv : e.isValid = true) : (Finder.unlimited.compile cs).isSome := by
    simp [Finder.unlimited, he, hv]
  refine ⟨hread, hwhole, hpart, hagree hwhole hpart, Finder.unlimited_documented,
    hfinder _ Finder.unlimited_documented ?_ ?_, (hnonstring _ _ (.inl (by simp))).1⟩
  · exact hcompile _ (Regexp.read_source_whole (Regexp.ofPattern_spells hread)) rfl
  · have htext := Regexp.read_text (Regexp.ofPattern_spells hread)
    rw [Regexp.text, String.toList_ofList] at htext
    exact hcompile _ htext rfl

end Extension
end JsonQuery
