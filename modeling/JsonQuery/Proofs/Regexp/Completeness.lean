import JsonQuery.Proofs.Regexp.Soundness

namespace JsonQuery
namespace Regexp

/-- A reader that takes a part and leaves the rest. -/
def Reads {α : Type} {bound : Nat} (x : Except Fault (Read α Char bound)) (value : α)
    (rest : List Char) : Prop :=
  ∃ below, x = .ok ⟨value, rest, below⟩

theorem Reads.bind {α β : Type} {m n : Nat} {x : Except Fault (Read α Char m)}
    {f : Read α Char m → Except Fault (Read β Char n)} {a : α} {b : β} {between rest : List Char}
    (h : Reads x a between) (hf : ∀ below, Reads (f ⟨a, between, below⟩) b rest) :
    Reads (x >>= f) b rest := by
  obtain ⟨below, rfl⟩ := h
  exact hf below

theorem reads_of {α : Type} {bound : Nat} {a : α} {rest : List Char} (below : rest.length < bound) :
    Reads (.ok (.of a rest below)) a rest := ⟨below, rfl⟩

theorem readProperty_reads {p : Property} (h : p ∈ Property.all) (rest : List Char) :
    Reads (readProperty ('\x7b' :: (p.name ++ ['\x7d'] ++ rest))) p rest := by
  rw [List.append_assoc, List.singleton_append]
  obtain ⟨htake, hdrop⟩ :=
    takeWhile_stop (Property.name_ne_brace p h) (by decide : ('\x7d' != '\x7d') = false) rest
  unfold readProperty
  simp only
  split
  · rename_i hnil
    rw [hdrop] at hnil
    cases hnil
  · rename_i hcons
    rw [hdrop] at hcons
    cases hcons
    rw [htake, Property.ofName?_name p h]
    exact reads_of _

theorem readEscape_reads {s : Symbol} {c : Char} (h : s.SpellsEscaped ['\\', c]) (inClass : Bool)
    (rest : List Char) : Reads (readEscape inClass (c :: rest)) s rest := by
  cases s with
  | lineFeed | carriageReturn | tab =>
    cases h
    exact reads_of _
  | plain d =>
    obtain ⟨hd, hc⟩ := h
    cases hc
    simp only [escapable, List.mem_cons, List.not_mem_nil, or_false] at hd
    rcases hd with rfl | rfl | rfl | rfl | rfl | rfl | rfl | rfl | rfl | rfl | rfl | rfl | rfl |
      rfl <;> exact reads_of _

/-- The text of a symbol is a normal character, or a backslash and a character that is no `p`. -/
theorem Symbol.spells_cases {normal : Char → Prop} {s : Symbol} {cs : List Char}
    (h : s.Spells normal cs) : (∃ c, s = .plain c ∧ normal c ∧ cs = [c]) ∨
      ∃ c, cs = ['\\', c] ∧ c ≠ 'p' ∧ c ≠ 'P' ∧ s.SpellsEscaped ['\\', c] := by
  refine h.imp_right (fun h => ?_)
  cases s with
  | plain c =>
    obtain ⟨hc, rfl⟩ := h
    refine ⟨c, rfl, ?_, ?_, hc, rfl⟩
    all_goals
      rintro rfl
      revert hc
      decide
  | lineFeed | carriageReturn | tab =>
    cases h
    exact ⟨_, rfl, by decide, by decide, rfl⟩

theorem Symbol.head?_ne {s : Symbol} {cs : List Char} (h : s.Spells IsClassNormal cs)
    (rest : List Char) : (cs ++ rest).head? ≠ some ']' := by
  rcases Symbol.spells_cases h with ⟨c, -, hc, rfl⟩ | ⟨c, rfl, -⟩
  · rintro ⟨⟩
    exact hc (by decide)
  · simp

theorem readClassSymbol_reads {s : Symbol} {cs : List Char} (h : s.Spells IsClassNormal cs)
    (rest : List Char) : Reads (readClassSymbol (cs ++ rest)) s rest := by
  rcases Symbol.spells_cases h with ⟨c, rfl, hc, rfl⟩ | ⟨c, rfl, hp, hP, hescape⟩
  · simp only [IsClassNormal, List.mem_cons, List.not_mem_nil, or_false, not_or] at hc
    generalize hcs : [c] ++ rest = cs
    unfold readClassSymbol
    split
    · cases hcs
    · cases hcs
      exact absurd rfl hc.2.2.1
    · cases hcs
      rw [if_neg (by simp [hc])]
      exact reads_of _
  · change Reads (readClassSymbol ('\\' :: c :: rest)) _ _
    unfold readClassSymbol
    simp only [List.head?_cons, Option.some.injEq, hp, hP, or_self, if_false]
    exact (readEscape_reads hescape true rest).bind (fun _ => reads_of _)

/-- What stands behind an item does not make a range of it. -/
def EndsItem (rest : List Char) : Prop := ∀ tail, rest = '-' :: tail → tail.head? = some ']'

theorem readClassRange_reads {item : ClassItem} {cs : List Char} (h : item.Spells cs)
    (hsingle : ∀ complement p, item ≠ .property complement p) {rest : List Char}
    (hr : EndsItem rest) : Reads (readClassRange (cs ++ rest)) item rest := by
  unfold readClassRange
  cases item with
  | single s =>
    refine (readClassSymbol_reads h rest).bind (fun _ => ?_)
    dsimp only
    split
    · rw [if_pos (hr _ rfl)]
      exact reads_of _
    · exact reads_of _
  | range low high =>
    obtain ⟨left, right, rfl, hlow, hhigh⟩ := h
    have hend : (right ++ rest).head? ≠ some ']' := Symbol.head?_ne hhigh rest
    rw [List.append_assoc]
    refine (readClassSymbol_reads hlow ('-' :: (right ++ rest))).bind (fun _ => ?_)
    simp only [List.cons_append]
    rw [if_neg hend]
    exact (readClassSymbol_reads hhigh rest).bind (fun _ => reads_of _)
  | property complement p => exact absurd rfl (hsingle complement p)

/-- An item does not start like the end of a class, or like a hyphen; and if it is no property, it
does not start like one. -/
theorem ClassItem.spells_head {item : ClassItem} {cs : List Char} (h : item.Spells cs) :
    ∃ c tail, cs = c :: tail ∧ c ≠ ']' ∧ c ≠ '-' ∧
      ((∀ complement p, item ≠ .property complement p) → c = '\\' →
        ∃ d more, tail = d :: more ∧ d ≠ 'p' ∧ d ≠ 'P') := by
  have hsymbol {s : Symbol} {cs : List Char} (h : s.Spells IsClassNormal cs) (more : List Char) :
      ∃ c tail, cs ++ more = c :: tail ∧ c ≠ ']' ∧ c ≠ '-' ∧
        (c = '\\' → ∃ d more, tail = d :: more ∧ d ≠ 'p' ∧ d ≠ 'P') := by
    rcases Symbol.spells_cases h with ⟨c, -, hc, rfl⟩ | ⟨d, rfl, hp, hP, -⟩
    · simp only [IsClassNormal, List.mem_cons, List.not_mem_nil, or_false, not_or] at hc
      exact ⟨c, more, rfl, hc.2.2.2, hc.1, fun heq => absurd heq hc.2.2.1⟩
    · exact ⟨'\\', d :: more, rfl, by decide, by decide, fun _ => ⟨d, more, rfl, hp, hP⟩⟩
  cases item with
  | single s =>
    obtain ⟨c, tail, hcs, hend, hhyphen, hescape⟩ := hsymbol h []
    exact ⟨c, tail, by simpa using hcs, hend, hhyphen, fun _ => hescape⟩
  | range low high =>
    obtain ⟨left, right, rfl, hlow, -⟩ := h
    obtain ⟨c, tail, hcs, hend, hhyphen, hescape⟩ := hsymbol hlow ('-' :: right)
    exact ⟨c, tail, hcs, hend, hhyphen, fun _ => hescape⟩
  | property complement p =>
    obtain ⟨-, rfl⟩ := h
    exact ⟨'\\', _, rfl, by decide, by decide, fun hsingle => absurd rfl (hsingle complement p)⟩

/-- Items that are followed by the end of a class do not make a range of what stands before them. -/
theorem ClassItem.endsItem {items last : List ClassItem} {inner right : List Char}
    (hitems : SpellsAll items inner) (hlast : SpellsLast last right) (rest : List Char) :
    EndsItem (inner ++ (right ++ ']' :: rest)) := by
  intro tail htail
  cases items with
  | nil =>
    cases hitems
    rcases hlast with ⟨-, rfl⟩ | ⟨-, rfl⟩
    · cases htail
    · cases htail
      rfl
  | cons item items =>
    obtain ⟨left, others, rfl, hitem, -⟩ := hitems
    obtain ⟨c, more, rfl, -, hc, -⟩ := ClassItem.spells_head hitem
    cases htail
    exact absurd rfl hc

section Items

variable {done items : List ClassItem} {tail between rest : List Char}

theorem readItems_property {complement : Bool} {p : Property} (h : Reads (readProperty tail) p between)
    (hitems : Reads (readItems (done ++ [.property complement p]) between) items rest) :
    Reads (readItems done ('\\' :: (if complement then 'P' else 'p') :: tail)) items rest := by
  cases complement with
  | true | false =>
    rw [readItems.eq_def]
    refine h.bind (fun _ => ?_)
    exact hitems.bind (fun _ => reads_of _)

theorem readItems_range {item : ClassItem} {c : Char} (hend : c ≠ ']') (hhyphen : c ≠ '-')
    (hescape : c = '\\' → tail.head? ≠ some 'p' ∧ tail.head? ≠ some 'P')
    (h : Reads (readClassRange (c :: tail)) item between)
    (hitems : Reads (readItems (done ++ [item]) between) items rest) :
    Reads (readItems done (c :: tail)) items rest := by
  generalize hcs : c :: tail = cs at h
  rw [readItems.eq_def]
  split
  · cases hcs
  · cases hcs
    exact absurd rfl hend
  · cases hcs
    exact absurd rfl hhyphen
  · cases hcs
    exact absurd rfl hhyphen
  · cases hcs
    exact absurd rfl (hescape rfl).1
  · cases hcs
    exact absurd rfl (hescape rfl).2
  · refine h.bind (fun _ => ?_)
    exact hitems.bind (fun _ => reads_of _)

end Items

theorem readItems_reads {middle last : List ClassItem} {inner right : List Char}
    (hmiddle : ClassItem.SpellsAll middle inner) (hlast : ClassItem.SpellsLast last right)
    (done : List ClassItem) (hne : done = [] → middle ≠ []) (rest : List Char) :
    Reads (readItems done (inner ++ (right ++ ']' :: rest))) (done ++ middle ++ last) rest := by
  induction middle generalizing done inner with
  | nil =>
    have hdone : done.isEmpty = false := by simpa using hne
    cases hmiddle
    rcases hlast with ⟨rfl, rfl⟩ | ⟨rfl, rfl⟩
    all_goals
      simp only [List.nil_append, List.cons_append]
      unfold readItems
      simp only [hdone, List.append_nil, Bool.false_eq_true, if_false]
      exact reads_of _
  | cons item middle ih =>
    obtain ⟨left, inner, rfl, hitem, hmiddle⟩ := hmiddle
    have hnext := ih hmiddle (done ++ [item]) (by simp)
    rw [List.append_assoc done, List.singleton_append] at hnext
    rw [List.append_assoc]
    have hrange (hsingle : ∀ complement p, item ≠ .property complement p) :
        Reads (readItems done (left ++ (inner ++ (right ++ ']' :: rest))))
          (done ++ item :: middle ++ last) rest := by
      have hread := readClassRange_reads hitem hsingle (ClassItem.endsItem hmiddle hlast rest)
      obtain ⟨c, more, rfl, hc, hhyphen, hescape⟩ := ClassItem.spells_head hitem
      refine readItems_range hc hhyphen (fun h => ?_) hread hnext
      obtain ⟨d, others, rfl, hp, hP⟩ := hescape hsingle h
      simp [hp, hP]
    cases item with
    | property complement p =>
      obtain ⟨hp, rfl⟩ := hitem
      have hread := readProperty_reads hp (inner ++ (right ++ ']' :: rest))
      simp only [List.cons_append, List.nil_append]
      exact readItems_property hread hnext
    | single s => exact hrange (by simp)
    | range low high => exact hrange (by simp)

theorem readClassBody_reads {items : List ClassItem} {body : List Char}
    (h : ClassItem.SpellsBody items body) (negated : Bool) (rest : List Char) :
    Reads (readClassBody negated (body ++ ']' :: rest)) (.bracket negated items) rest := by
  obtain ⟨first, middle, last, left, inner, right, rfl, rfl, hfirst, hmiddle, hlast⟩ := h
  rw [List.append_assoc, List.append_assoc]
  rcases hfirst with ⟨rfl, rfl⟩ | hfirst
  · have hread := readItems_reads hmiddle hlast [ClassItem.hyphen] (by simp) rest
    simp only [List.cons_append, List.nil_append] at hread ⊢
    unfold readClassBody
    refine hread.bind (fun _ => ?_)
    exact reads_of _
  · have hitems : ClassItem.SpellsAll (first :: middle) (left ++ inner) :=
      ⟨left, inner, rfl, hfirst, hmiddle⟩
    have hread := readItems_reads hitems hlast [] (by simp) rest
    have hhead : (left ++ (inner ++ (right ++ ']' :: rest))).head? ≠ some '-' := by
      obtain ⟨c, more, rfl, -, hc, -⟩ := ClassItem.spells_head hfirst
      simpa using hc
    rw [List.nil_append, List.append_assoc] at hread
    generalize left ++ (inner ++ (right ++ ']' :: rest)) = cs at hread hhead
    unfold readClassBody
    split
    · exact absurd rfl hhead
    · refine hread.bind (fun _ => ?_)
      exact reads_of _

theorem readClass_reads {negated : Bool} {items : List ClassItem} {body : List Char}
    (h : ClassItem.SpellsBody items body) (hmark : negated = false → body.head? ≠ some '^')
    (rest : List Char) :
    Reads (readClass ((if negated then ['^'] else []) ++ (body ++ ']' :: rest)))
      (.bracket negated items) rest := by
  have hread := readClassBody_reads h negated rest
  cases negated with
  | true =>
    change Reads (readClass ('^' :: (body ++ ']' :: rest))) _ _
    unfold readClass
    refine hread.bind (fun _ => ?_)
    exact reads_of _
  | false =>
    have hhead : (body ++ ']' :: rest).head? ≠ some '^' := by
      cases body with
      | nil => simp
      | cons c body => exact hmark rfl
    change Reads (readClass (body ++ ']' :: rest)) _ _
    generalize body ++ ']' :: rest = cs at hread hhead
    unfold readClass
    split
    · exact absurd rfl hhead
    · exact hread

theorem readBounds_exactly {n : List Char} (hn : Numeral.AreDigits n) (rest : List Char) :
    Reads (readBounds (n ++ '\x7d' :: rest)) (.exactly n) rest := by
  obtain ⟨htake, hdrop⟩ := takeWhile_stop hn.2 (by decide : '\x7d'.isDigit = false) rest
  unfold readBounds
  simp only [htake, hn.isEmpty_eq, Bool.false_eq_true, if_false]
  split
  · rename_i heq
    cases hdrop.symm.trans heq
    exact reads_of _
  · rename_i heq
    cases hdrop.symm.trans heq
  · rename_i hne _
    exact absurd hdrop (hne _)

theorem readBounds_comma {n m : List Char} (hn : Numeral.AreDigits n)
    (hm : ∀ c ∈ m, c.isDigit = true) (rest : List Char) :
    Reads (readBounds (n ++ ',' :: (m ++ '\x7d' :: rest)))
      (if m.isEmpty then .atLeast n else .between n m) rest := by
  obtain ⟨htake, hdrop⟩ :=
    takeWhile_stop hn.2 (by decide : ','.isDigit = false) (m ++ '\x7d' :: rest)
  obtain ⟨htake', hdrop'⟩ := takeWhile_stop hm (by decide : '\x7d'.isDigit = false) rest
  unfold readBounds
  simp only [htake, hn.isEmpty_eq, Bool.false_eq_true, if_false]
  split
  · rename_i heq
    cases hdrop.symm.trans heq
  · rename_i heq
    cases hdrop.symm.trans heq
    split
    · rename_i heq'
      cases hdrop'.symm.trans heq'
      rw [htake']
      exact reads_of _
    · rename_i hne
      exact absurd hdrop' (hne _)
  · rename_i hne
    exact absurd hdrop (hne _)

/-- What stands behind an atom is no quantifier. -/
def EndsAtom (rest : List Char) : Prop :=
  ∀ c ∈ rest.head?, c ∉ ['*', '+', '?', '\x7b']

theorem readQuantifier_braces {q : Quantifier} {cs rest : List Char}
    (h : Reads (readBounds cs) q rest) : Reads (readQuantifier ('\x7b' :: cs)) q rest := by
  unfold readQuantifier
  refine h.bind (fun _ => ?_)
  exact reads_of _

theorem readQuantifier_reads {q : Quantifier} {cs : List Char} (h : q.Spells cs)
    {rest : List Char} (hr : EndsAtom rest) : Reads (readQuantifier (cs ++ rest)) q rest := by
  cases q with
  | once =>
    cases h
    rw [List.nil_append]
    unfold readQuantifier
    split
    all_goals first
      | exact reads_of _
      | exact absurd (hr _ rfl) (by decide)
  | star | plus | optional =>
    cases h
    exact reads_of _
  | exactly n =>
    obtain ⟨hn, rfl⟩ := h
    have htext : '\x7b' :: n ++ ['\x7d'] ++ rest = '\x7b' :: (n ++ '\x7d' :: rest) := by simp
    rw [htext]
    exact readQuantifier_braces (readBounds_exactly hn rest)
  | atLeast n =>
    obtain ⟨hn, rfl⟩ := h
    have htext : '\x7b' :: n ++ [',', '\x7d'] ++ rest = '\x7b' :: (n ++ ',' :: '\x7d' :: rest) := by
      simp
    rw [htext]
    exact readQuantifier_braces (@readBounds_comma n [] hn (by simp) rest)
  | between n m =>
    obtain ⟨hn, hm, rfl⟩ := h
    have htext : '\x7b' :: n ++ ',' :: m ++ ['\x7d'] ++ rest =
        '\x7b' :: (n ++ ',' :: (m ++ '\x7d' :: rest)) := by simp
    have hread := readBounds_comma hn hm.2 rest
    rw [hm.isEmpty_eq] at hread
    rw [htext]
    exact readQuantifier_braces hread

/-- What an atom starts with. It begins neither a quantifier nor the end of a branch. -/
def BeginsAtom (c : Char) : Prop := c ∉ ['*', '+', '?', '\x7b', '|', ')']

instance (c : Char) : Decidable (BeginsAtom c) := inferInstanceAs (Decidable (c ∉ _))

end Regexp

theorem Atom.spells_head {a : Atom} {cs : List Char} (h : a.Spells cs) :
    ∃ c rest, cs = c :: rest ∧ Regexp.BeginsAtom c := by
  cases a with
  | symbol s =>
    rcases Regexp.Symbol.spells_cases h with ⟨c, -, hc, rfl⟩ | ⟨c, rfl, -⟩
    · refine ⟨c, [], rfl, fun hmem => hc ?_⟩
      simp only [List.mem_cons, List.not_mem_nil, or_false] at hmem ⊢
      tauto
    · exact ⟨'\\', [c], rfl, by decide⟩
  | dot =>
    exact ⟨'.', [], h, by decide⟩
  | property complement p =>
    exact ⟨'\\', _, h.2, by decide⟩
  | bracket negated items =>
    obtain ⟨body, -, h⟩ := h
    cases negated with
    | true => exact ⟨'[', _, h, by decide⟩
    | false => exact ⟨'[', _, h.1, by decide⟩
  | group r =>
    obtain ⟨inner, h, -⟩ := h
    exact ⟨'(', _, h, by decide⟩

namespace Regexp

/-- What stands behind a branch: nothing, another branch or the end of a group. -/
def EndsBranch (rest : List Char) : Prop := ∀ c ∈ rest.head?, c = '|' ∨ c = ')'

/-- What stands behind an expression: nothing, or the end of a group. -/
def EndsChoice (rest : List Char) : Prop := ∀ c ∈ rest.head?, c = ')'

theorem EndsChoice.endsBranch {rest : List Char} (h : EndsChoice rest) : EndsBranch rest :=
  fun c hc => .inr (h c hc)

end Regexp

theorem Branch.endsAtom {b : Branch} {cs rest : List Char} (h : b.Spells cs)
    (hr : Regexp.EndsBranch rest) : Regexp.EndsAtom (cs ++ rest) := by
  cases b with
  | done =>
    cases h
    intro c hc
    rcases hr c hc with rfl | rfl <;> decide
  | piece a q b =>
    obtain ⟨atom, quantifier, others, rfl, ha, -⟩ := h
    obtain ⟨c, text, rfl, hc⟩ := Atom.spells_head ha
    rintro d ⟨⟩
    intro hmem
    apply hc
    simp only [List.mem_cons, List.not_mem_nil, or_false] at hmem ⊢
    tauto

namespace Regexp

theorem readAtom_symbol {s : Symbol} {d : Char} {cs rest : List Char} (hp : d ≠ 'p') (hP : d ≠ 'P')
    (h : Reads (readEscape false (d :: cs)) s rest) :
    Reads (readAtom '\\' (d :: cs)) (.symbol s) rest := by
  generalize hds : d :: cs = ds at h
  rw [readAtom.eq_def, if_neg (by decide), if_neg (by decide), if_neg (by decide), if_pos rfl]
  split
  · cases hds
    exact absurd rfl hp
  · cases hds
    exact absurd rfl hP
  · refine h.bind (fun _ => ?_)
    exact reads_of _

theorem readAtom_property {complement : Bool} {p : Property} {cs rest : List Char}
    (h : Reads (readProperty cs) p rest) :
    Reads (readAtom '\\' ((if complement then 'P' else 'p') :: cs)) (.property complement p)
      rest := by
  cases complement with
  | true | false =>
    rw [readAtom.eq_def]
    refine h.bind (fun _ => ?_)
    exact reads_of _

end Regexp

-- What is spelled is read as far as it goes. The induction is on the expression.
mutual

theorem Regexp.readChoice_reads : ∀ {r : Regexp} {cs : List Char}, r.Spells cs →
    ∀ {rest : List Char}, Regexp.EndsChoice rest →
      Regexp.Reads (Regexp.readChoice (cs ++ rest)) r rest
  | .last b, cs, h, rest, hr => by
    have hbranch := Branch.readBranch_reads h hr.endsBranch
    rw [Regexp.readChoice]
    refine hbranch.bind (fun _ => ?_)
    dsimp only
    split
    · exact absurd (hr _ rfl) (by decide)
    · exact Regexp.reads_of _
  | .alt b r, cs, ⟨left, right, hcs, hb, hothers⟩, rest, hr => by
    have hbranch := Branch.readBranch_reads hb
      (by simp [Regexp.EndsBranch] : Regexp.EndsBranch ('|' :: (right ++ rest)))
    have hchoice := Regexp.readChoice_reads hothers hr
    rw [hcs, List.append_assoc, List.cons_append, Regexp.readChoice]
    refine hbranch.bind (fun _ => ?_)
    refine hchoice.bind (fun _ => ?_)
    exact Regexp.reads_of _

theorem Branch.readBranch_reads : ∀ {b : Branch} {cs : List Char}, b.Spells cs →
    ∀ {rest : List Char}, Regexp.EndsBranch rest →
      Regexp.Reads (Regexp.readBranch (cs ++ rest)) b rest
  | .done, cs, h, rest, hr => by
    cases h
    rw [List.nil_append]
    cases rest with
    | nil =>
      rw [Regexp.readBranch]
      exact Regexp.reads_of _
    | cons c rest =>
      rw [Regexp.readBranch, if_pos (hr c rfl)]
      exact Regexp.reads_of _
  | .piece a q b, cs, ⟨atom, quantifier, others, hcs, ha, hq, hb⟩, rest, hr => by
    have hothers := Branch.readBranch_reads hb hr
    have hquantifier := Regexp.readQuantifier_reads hq (Branch.endsAtom hb hr)
    obtain ⟨c, text, rfl, hc⟩ := Atom.spells_head ha
    have hatom := Atom.readAtom_reads ha (quantifier ++ (others ++ rest))
    rw [hcs, List.append_assoc, List.append_assoc, List.cons_append, Regexp.readBranch]
    simp only [Regexp.BeginsAtom, List.mem_cons, List.not_mem_nil, or_false, not_or] at hc
    rw [if_neg (by simp [hc])]
    refine hatom.bind (fun _ => ?_)
    refine hquantifier.bind (fun _ => ?_)
    refine hothers.bind (fun _ => ?_)
    exact Regexp.reads_of _

theorem Atom.readAtom_reads : ∀ {a : Atom} {c : Char} {cs : List Char}, a.Spells (c :: cs) →
    ∀ rest : List Char, Regexp.Reads (Regexp.readAtom c (cs ++ rest)) a rest
  | .symbol s, c, cs, h, rest => by
    rcases Regexp.Symbol.spells_cases h with ⟨d, rfl, hc, hcs⟩ | ⟨d, hcs, hp, hP, hescape⟩
    · cases hcs
      rw [Regexp.readAtom.eq_def]
      simp only [Regexp.IsNormal, List.mem_cons, List.not_mem_nil, or_false, not_or] at hc
      rw [if_neg hc.1, if_neg (by simp [hc]), if_neg (by simp [hc]), if_neg (by simp [hc]),
        if_neg (by simp [hc])]
      exact Regexp.reads_of _
    · cases hcs
      exact Regexp.readAtom_symbol hp hP (Regexp.readEscape_reads hescape false rest)
  | .dot, c, cs, h, rest => by
    cases h
    rw [Regexp.readAtom.eq_def]
    exact Regexp.reads_of _
  | .property complement p, c, cs, h, rest => by
    obtain ⟨hp, hcs⟩ := h
    have hread := Regexp.readProperty_reads hp rest
    cases hcs
    exact Regexp.readAtom_property hread
  | .bracket negated items, c, cs, ⟨body, hbody, h⟩, rest => by
    obtain ⟨rfl, hcs, hmark⟩ : c = '[' ∧ cs = (if negated then ['^'] else []) ++ body ++ [']'] ∧
        (negated = false → body.head? ≠ some '^') := by
      cases negated <;> simp_all
    rw [Regexp.readAtom.eq_def, if_neg (by decide), if_neg (by decide), if_pos rfl, hcs,
      List.append_assoc, List.append_assoc, List.singleton_append]
    exact Regexp.readClass_reads hbody hmark rest
  | .group r, c, cs, ⟨inner, hcs, hr⟩, rest => by
    have hinner := Regexp.readChoice_reads hr
      (by simp [Regexp.EndsChoice] : Regexp.EndsChoice (')' :: rest))
    obtain ⟨rfl, rfl⟩ : c = '(' ∧ cs = inner ++ [')'] := by simpa using hcs
    rw [List.append_assoc, List.singleton_append, Regexp.readAtom.eq_def, if_pos rfl]
    refine hinner.bind (fun _ => ?_)
    exact Regexp.reads_of _

end

namespace Regexp

theorem readAll_complete {r : Regexp} {cs : List Char} (h : r.Spells cs) : readAll cs = .ok r := by
  have hreads := readChoice_reads h (by simp [EndsChoice] : EndsChoice [])
  rw [List.append_nil] at hreads
  obtain ⟨below, hread⟩ := hreads
  simp [readAll, hread, bind, Except.bind, pure, Except.pure]

/-- A pattern is read as the expression that it spells, if it spells one. -/
theorem ofPattern_eq_ok_iff {pattern : String} {r : Regexp} :
    ofPattern pattern = .ok r ↔ r.Spells pattern.toList := by
  refine ⟨ofPattern_spells, fun h => ?_⟩
  rw [ofPattern, readAll_complete h]
  rfl

/-- The grammar is unambiguous. -/
theorem Spells.unique {r s : Regexp} {cs : List Char} (hr : r.Spells cs) (hs : s.Spells cs) :
    r = s := Except.ok.inj ((readAll_complete hr).symm.trans (readAll_complete hs))

end Regexp
end JsonQuery
