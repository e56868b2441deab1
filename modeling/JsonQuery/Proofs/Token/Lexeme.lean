import Mathlib
import JsonQuery.Proofs.Json.Numeral
import JsonQuery.Proofs.Text.StringLiteral
import JsonQuery.Token.Scan

namespace JsonQuery
namespace Token

/-- Characters that a test tells apart are different. -/
theorem ne_of_test {p : Char → Bool} {c d : Char} (hc : p c = true) (hd : p d = false) :
    c ≠ d := by
  intro heq
  subst heq
  rw [hc] at hd
  cases hd

theorem isBlank_of_test {p : Char → Bool} {c : Char} (hc : p c = true)
    (hp : (p ' ' || p '\t' || p '\n' || p '\r') = false) : isBlank c = false := by
  simp only [Bool.or_eq_false_iff] at hp
  obtain ⟨⟨⟨hspace, htab⟩, hline⟩, hreturn⟩ := hp
  simp [isBlank, ne_of_test hc hspace, ne_of_test hc htab, ne_of_test hc hline,
    ne_of_test hc hreturn]

/-- What starts a number starts no other token. -/
def startsNumber (c : Char) : Bool := c == '-' || c.isDigit

/-- The characters that symbols and strings start with. -/
def symbolFirst : List Char :=
  ['$', '@', '.', '[', ']', ',', ':', '?', '(', ')', '*', '=', '!', '<', '>', '&', '|', '\'', '"']

/-- What a test tells from these starts a number or a word. -/
theorem scanAny_of_test {p : Char → Bool} {c : Char} (hc : p c = true)
    (hp : symbolFirst.all (fun d => !p d) = true) (cs : List Char) :
    scanAny c cs = if c = '-' ∨ c.isDigit then scanNumber c cs
      else if isWordFirst c then scanWord c cs
      else .error (.unexpectedCharacter c, 0) := by
  have hne : ∀ d ∈ symbolFirst, c ≠ d := fun d hd =>
    ne_of_test hc (by simpa using List.all_eq_true.mp hp d hd)
  simp only [symbolFirst, List.forall_mem_cons] at hne
  simp only [scanAny, hne, if_false, or_self]

theorem scanAny_number {c : Char} (h : startsNumber c = true) (cs : List Char) :
    scanAny c cs = scanNumber c cs := by
  have hfirst : c = '-' ∨ c.isDigit = true := by simpa [startsNumber] using h
  rw [scanAny_of_test h (by decide), if_pos hfirst]

theorem startsNumber_of_wellFormed {n : Numeral} (h : n.WellFormed) :
    ∃ c tail, n.chars = c :: tail ∧ startsNumber c = true := by
  obtain ⟨d, ds, hw⟩ := List.exists_cons_of_ne_nil h.whole.1
  have hd : d.isDigit = true := h.whole.2 d (by simp [hw])
  rw [Numeral.chars_eq, hw]
  cases n.negative with
  | true => exact ⟨'-', _, rfl, rfl⟩
  | false => exact ⟨d, _, rfl, by simp [startsNumber, hd]⟩

theorem isWordChar_of_functionChar {c : Char} (h : (c.isLower || c.isDigit || c == '_') = true) :
    isWordChar c = true := by
  simp only [Bool.or_eq_true, beq_iff_eq] at h
  simp only [isWordChar, Char.isAlphanum, Char.isAlpha, Bool.or_eq_true, beq_iff_eq]
  tauto

theorem isDigit_of_isLower {c : Char} (h : c.isLower = true) : c.isDigit = false := by
  simp only [Char.isLower, Bool.and_eq_true, decide_eq_true_eq, ge_iff_le,
    UInt32.le_iff_toNat_le] at h
  simp only [Char.isDigit, Bool.and_eq_false_imp, decide_eq_true_eq, decide_eq_false_iff_not,
    ge_iff_le, UInt32.le_iff_toNat_le]
  have hlower : 'a'.val.toNat = 97 := rfl
  have hdigit : '9'.val.toNat = 57 := rfl
  omega

theorem scanAny_lower {c : Char} (h : c.isLower = true) (cs : List Char) :
    scanAny c cs = scanWord c cs := by
  have hfirst : isWordFirst c = true := by simp [isWordFirst, Char.isAlpha, h]
  have hnumber : ¬(c = '-' ∨ c.isDigit = true) := by
    simp [ne_of_test h (show '-'.isLower = false from rfl), isDigit_of_isLower h]
  rw [scanAny_of_test (p := Char.isLower) h (by decide), if_neg hnumber, if_pos hfirst]

namespace Kind

/-- The texts of a token: its symbol, or the payload itself, or any literal of the string. -/
def Lexeme : Kind → List Char → Prop
  | .string s, cs => StringLiteral.Spells cs s.toList
  | .number n, cs => n.WellFormed ∧ cs = n.chars
  | .name s, cs => cs = s.toList ∧ ∃ c tail, cs = c :: tail ∧ isNameFirst c = true ∧
      ∀ d ∈ tail, isNameChar d = true
  | .function s, cs => cs = s.toList ∧ isFunctionName cs = true
  | k, cs => ∃ symbol, k.symbol? = some symbol ∧ cs = symbol.toList

/-- Behind dots stands a member, and anywhere else what is no name. -/
def StandsIn : Kind → Mode → Prop
  | .wildcard, _ => True
  | .openBracket, m => m ≠ .afterDot
  | .name _, m => m ≠ .any
  | _, m => m = .any

/-- Whether a token ends in front of a text, which may not continue it. A function is told from a
literal by the parenthesis behind it. -/
def EndsBefore : Kind → List Char → Prop
  | .dot, rest => rest.head? ≠ some '.'
  | .not, rest | .comparison .less, rest | .comparison .greater, rest => rest.head? ≠ some '='
  | .number n, rest => n.EndsBefore rest
  | .name _, rest => ∀ c, rest.head? = some c → isNameChar c = false
  | .function _, rest => rest.head? = some '('
  | .bool _, rest | .null, rest => ∀ c, rest.head? = some c → isWordChar c = false ∧ c ≠ '('
  | _, _ => True

end Kind

/-- A scan that finds only tokens of the text it scans. -/
def Scanned.Sound (mode : Mode) (c : Char) (cs : List Char) (x : Scanned) : Prop :=
  ∀ k n, x = .ok (k, n) → ∃ tail rest, cs = tail ++ rest ∧ tail.length = n ∧ k.StandsIn mode ∧
    k.Lexeme (c :: tail) ∧ k.EndsBefore rest

namespace Scanned.Sound

variable {mode : Mode} {c : Char} {cs : List Char}

theorem ite {p : Prop} [Decidable p] {x y : Scanned} (hx : p → Sound mode c cs x)
    (hy : ¬ p → Sound mode c cs y) : Sound mode c cs (if p then x else y) := by
  split
  · rename_i h
    exact hx h
  · rename_i h
    exact hy h

theorem error (e : Fault × Nat) : Sound mode c cs (.error e) := by
  intro k n h
  cases h

/-- A token of one character. -/
theorem single {k : Kind} (hm : k.StandsIn mode) (hk : k.Lexeme [c]) (he : k.EndsBefore cs) :
    Sound mode c cs (.ok (k, 0)) := by
  rintro _ _ ⟨⟩
  exact ⟨[], cs, rfl, rfl, hm, hk, he⟩

theorem pair {second : Char} {long : Kind} {short : Scanned} (hm : long.StandsIn mode)
    (hk : long.Lexeme [c, second]) (he : ∀ rest, long.EndsBefore rest)
    (hs : cs.head? ≠ some second → Sound mode c cs short) :
    Sound mode c cs (scanPair second cs long short) := by
  refine ite (fun hhead => ?_) hs
  obtain ⟨tail, rfl⟩ := List.head?_eq_some_iff.mp hhead
  rintro _ _ ⟨⟩
  exact ⟨[second], tail, rfl, rfl, hm, hk, he tail⟩

theorem string (hc : c = '\'' ∨ c = '"') : Sound .any c cs (scanString c cs) := by
  intro k n h
  unfold scanString at h
  split at h
  · rename_i value stop hscan
    obtain ⟨body, rest, rfl, rfl, hbody⟩ := StringLiteral.scanTail_sound hscan
    cases h
    refine ⟨body ++ [c], rest, by simp, by simp; omega, rfl, ?_, trivial⟩
    exact ⟨c, body, hc, rfl, by rwa [String.toList_ofList]⟩
  · cases h

theorem number : Sound .any c cs (scanNumber c cs) := by
  intro k n h
  unfold scanNumber at h
  split at h
  · rename_i numeral hscan
    obtain ⟨hwell, rest, heq, hends⟩ := Numeral.scan_sound hscan
    obtain ⟨d, tail, hchars, -⟩ := startsNumber_of_wellFormed hwell
    rw [hchars] at heq
    cases h
    cases heq
    exact ⟨tail, rest, rfl, by simp [hchars], rfl, ⟨hwell, hchars.symm⟩, hends⟩
  · cases h

theorem name (hc : isNameFirst c = true) (hm : mode ≠ .any) :
    Sound mode c cs (scanName c cs) := by
  intro k n h
  unfold scanName at h
  cases h
  refine ⟨cs.takeWhile isNameChar, cs.dropWhile isNameChar,
    List.takeWhile_append_dropWhile.symm, rfl, hm, ⟨?_, c, _, rfl, hc, ?_⟩, ?_⟩
  · rw [String.toList_ofList]
  · exact fun d hd => List.mem_takeWhile_imp hd
  · intro d hd
    have := List.head?_dropWhile_not isNameChar cs
    simpa [hd] using this

theorem word : Sound .any c cs (scanWord c cs) := by
  have hsplit : cs = cs.takeWhile isWordChar ++ cs.dropWhile isWordChar :=
    List.takeWhile_append_dropWhile.symm
  have hdrop : cs.drop (cs.takeWhile isWordChar).length = cs.dropWhile isWordChar :=
    calc cs.drop (cs.takeWhile isWordChar).length
        = (cs.takeWhile isWordChar ++ cs.dropWhile isWordChar).drop
            (cs.takeWhile isWordChar).length := by rw [← hsplit]
      _ = cs.dropWhile isWordChar := List.drop_left
  have hends : (cs.dropWhile isWordChar).head? ≠ some '(' → ∀ d,
      (cs.dropWhile isWordChar).head? = some d → isWordChar d = false ∧ d ≠ '(' := by
    intro hparen d hd
    have := List.head?_dropWhile_not isWordChar cs
    rw [hd] at this hparen
    exact ⟨by simpa using this, fun heq => hparen (by rw [heq])⟩
  have hliteral {k : Kind} {symbol : String} (hparen : (cs.dropWhile isWordChar).head? ≠ some '(')
      (hm : k.StandsIn .any) (hk : k.symbol? = some symbol) (hl : k.Lexeme symbol.toList)
      (he : ∀ rest, (∀ d, rest.head? = some d → isWordChar d = false ∧ d ≠ '(') →
        k.EndsBefore rest)
      (hword : String.ofList (c :: cs.takeWhile isWordChar) = symbol) :
      Sound .any c cs (.ok (k, (cs.takeWhile isWordChar).length)) := by
    rintro _ _ ⟨⟩
    refine ⟨_, _, hsplit, rfl, hm, ?_, he _ (hends hparen)⟩
    rwa [← hword, String.toList_ofList] at hl
  unfold scanWord
  simp only [hdrop]
  refine ite (fun hparen => ite (fun hname => ?_) (fun _ => error _)) (fun hparen => ?_)
  · rintro _ _ ⟨⟩
    exact ⟨_, _, hsplit, rfl, rfl, ⟨String.toList_ofList.symm, hname⟩, hparen⟩
  · refine ite (hliteral hparen rfl rfl ⟨_, rfl, rfl⟩ (fun _ => id)) (fun _ => ?_)
    refine ite (hliteral hparen rfl rfl ⟨_, rfl, rfl⟩ (fun _ => id)) (fun _ => ?_)
    exact ite (hliteral hparen rfl rfl ⟨_, rfl, rfl⟩ (fun _ => id)) (fun _ => error _)

end Scanned.Sound

theorem scanAny_sound (c : Char) (cs : List Char) : Scanned.Sound .any c cs (scanAny c cs) := by
  unfold scanAny
  -- In the order of the tests: the anchors, dots, symbols of one character, those that need a second
  -- one or may have it, and what is longer.
  iterate 2 refine .ite (by rintro rfl; exact .single rfl ⟨_, rfl, rfl⟩ trivial) (fun _ => ?_)
  refine .ite ?_ (fun _ => ?_)
  · rintro rfl
    exact .pair rfl ⟨_, rfl, rfl⟩ (fun _ => trivial) (fun h => .single rfl ⟨_, rfl, rfl⟩ h)
  iterate 8
    refine .ite (by rintro rfl; exact .single (by simp [Kind.StandsIn]) ⟨_, rfl, rfl⟩ trivial)
      (fun _ => ?_)
  refine .ite ?_ (fun _ => ?_)
  · rintro rfl
    exact .pair rfl ⟨_, rfl, rfl⟩ (fun _ => trivial) (fun _ => .error _)
  iterate 3
    refine .ite (by
      rintro rfl
      exact .pair rfl ⟨_, rfl, rfl⟩ (fun _ => trivial) (fun h => .single rfl ⟨_, rfl, rfl⟩ h))
      (fun _ => ?_)
  iterate 2
    refine .ite (by
      rintro rfl
      exact .pair rfl ⟨_, rfl, rfl⟩ (fun _ => trivial) (fun _ => .error _)) (fun _ => ?_)
  refine .ite .string (fun _ => ?_)
  refine .ite (fun _ => .number) (fun _ => ?_)
  exact .ite (fun _ => .word) (fun _ => .error _)

theorem scanOne_sound (mode : Mode) (c : Char) (cs : List Char) :
    Scanned.Sound mode c cs (scanOne mode c cs) := by
  have hstar {mode : Mode} : c = '*' → Scanned.Sound mode c cs (.ok (.wildcard, 0)) := by
    rintro rfl
    exact .single trivial ⟨_, rfl, rfl⟩ trivial
  cases mode with
  | any => exact scanAny_sound c cs
  | afterDot =>
    exact .ite hstar (fun _ => .ite (fun h => .name h (by simp)) (fun _ => .error _))
  | afterDoubleDot =>
    refine .ite hstar (fun _ => .ite ?_ (fun _ => ?_))
    · rintro rfl
      exact .single (by simp [Kind.StandsIn]) ⟨_, rfl, rfl⟩ trivial
    · exact .ite (fun h => .name h (by simp)) (fun _ => .error _)

/-- Whatever starts a name is no symbol. -/
theorem isNameFirst_ne {c : Char} (h : isNameFirst c = true) : c ≠ '*' ∧ c ≠ '[' :=
  ⟨ne_of_test h rfl, ne_of_test h rfl⟩

theorem scanName_complete {c : Char} {tail : List Char} {s : String}
    (hs : c :: tail = s.toList) (ht : ∀ d ∈ tail, isNameChar d = true) {rest : List Char}
    (hr : ∀ d, rest.head? = some d → isNameChar d = false) :
    scanName c (tail ++ rest) = .ok (.name s, tail.length) := by
  have htake := (takeWhile_front ht hr).1
  unfold scanName
  simp only [htake, hs, String.ofList_toList]

theorem scanWord_complete {c : Char} {tail rest : List Char} {k : Kind}
    (ht : tail.all isWordChar = true) (hk : scanWord c tail = .ok (k, tail.length))
    (hr : ∀ d, rest.head? = some d → isWordChar d = false ∧ d ≠ '(') :
    scanWord c (tail ++ rest) = .ok (k, tail.length) := by
  have hword (d : Char) (hd : d ∈ tail) : isWordChar d = true := List.all_eq_true.mp ht d hd
  have htake := (takeWhile_front hword (fun d hd => (hr d hd).1)).1
  have htail := List.takeWhile_eq_self_iff.mpr hword
  have hparen : rest.head? ≠ some '(' := fun h => (hr '(' h).2 rfl
  unfold scanWord at hk ⊢
  simp only [htail, List.drop_length, List.head?_nil, reduceCtorEq, if_false] at hk
  simp only [htake, List.drop_left, if_neg hparen]
  exact hk

theorem scanFunction_complete {c : Char} {tail rest : List Char} {s : String}
    (hs : c :: tail = s.toList) (hname : isFunctionName (c :: tail) = true)
    (hr : rest.head? = some '(') :
    scanAny c (tail ++ rest) = .ok (.function s, tail.length) := by
  obtain ⟨hlower, htail⟩ : c.isLower = true ∧ ∀ d ∈ tail, isWordChar d = true := by
    simp only [isFunctionName, Bool.and_eq_true, List.all_eq_true] at hname
    exact ⟨hname.1, fun d hd => isWordChar_of_functionChar (hname.2 d hd)⟩
  have hparen (d : Char) (hd : rest.head? = some d) : isWordChar d = false := by
    cases hr.symm.trans hd
    rfl
  have htake := (takeWhile_front htail hparen).1
  rw [scanAny_lower hlower]
  unfold scanWord
  simp only [htake, List.drop_left, hr, if_true, hname]
  rw [hs, String.ofList_toList]

theorem scanString_complete {c : Char} {tail rest : List Char} {s : String}
    (h : StringLiteral.Spells (c :: tail) s.toList) :
    scanAny c (tail ++ rest) = .ok (.string s, tail.length) := by
  obtain ⟨quote, body, hq, heq, hbody⟩ := h
  rw [List.cons_append, List.cons.injEq] at heq
  obtain ⟨rfl, rfl⟩ := heq
  have hquote : scanAny c (body ++ [c] ++ rest) = scanString c (body ++ c :: rest) := by
    rw [List.append_assoc]
    rcases hq with rfl | rfl <;> rfl
  rw [hquote, scanString, StringLiteral.scanTail_complete hbody hq]
  simp only [String.ofList_toList, List.length_append, List.length_singleton]
  congr 2
  omega

theorem scanNumber_complete {c : Char} {tail rest : List Char} {n : Numeral}
    (hn : n.WellFormed) (hchars : c :: tail = n.chars) (hr : n.EndsBefore rest) :
    scanAny c (tail ++ rest) = .ok (.number n, tail.length) := by
  obtain ⟨d, tail', hchars', hd⟩ := startsNumber_of_wellFormed hn
  cases hchars.trans hchars'
  have hscan := Numeral.scan_chars hn hr
  rw [← hchars, List.cons_append] at hscan
  rw [scanAny_number hd, scanNumber, hscan]
  simp only [← hchars, List.length_cons, Nat.add_sub_cancel]

theorem scanAny_complete {c : Char} {tail rest : List Char} {k : Kind} (hm : k.StandsIn .any)
    (hk : k.Lexeme (c :: tail)) (hr : k.EndsBefore rest) :
    scanAny c (tail ++ rest) = .ok (k, tail.length) := by
  cases k with
  | string s => exact scanString_complete hk
  | number n => exact scanNumber_complete hk.1 hk.2 hr
  | function s => exact scanFunction_complete hk.1 hk.2 hr
  | name s => exact absurd rfl hm
  | endOfQuery =>
    obtain ⟨symbol, hs, -⟩ := hk
    cases hs
  | dot =>
    obtain ⟨symbol, ⟨⟩, heq⟩ := hk
    cases heq
    exact if_neg hr
  | not =>
    obtain ⟨symbol, ⟨⟩, heq⟩ := hk
    cases heq
    exact if_neg hr
  | comparison op =>
    obtain ⟨symbol, ⟨⟩, heq⟩ := hk
    cases op with
    | less | greater => cases heq; exact if_neg hr
    | equal | notEqual | lessEqual | greaterEqual => cases heq; rfl
  | logical op =>
    obtain ⟨symbol, ⟨⟩, heq⟩ := hk
    cases op <;> cases heq <;> rfl
  | bool b =>
    obtain ⟨symbol, hs, heq⟩ := hk
    cases b
    all_goals
      cases hs
      cases heq
      exact scanWord_complete rfl rfl hr
  | null =>
    obtain ⟨symbol, ⟨⟩, heq⟩ := hk
    cases heq
    exact scanWord_complete rfl rfl hr
  | _ =>
    obtain ⟨symbol, ⟨⟩, heq⟩ := hk
    cases heq
    rfl

/-- A token is found wherever it may stand, in front of everything that does not continue it. -/
theorem scanOne_complete {mode : Mode} {c : Char} {tail rest : List Char} {k : Kind}
    (hm : k.StandsIn mode) (hk : k.Lexeme (c :: tail)) (hr : k.EndsBefore rest) :
    scanOne mode c (tail ++ rest) = .ok (k, tail.length) := by
  by_cases hmode : mode = .any
  · subst hmode
    exact scanAny_complete hm hk hr
  · cases k with
    | name s =>
      obtain ⟨hs, d, tail', heq, hfirst, hchars⟩ := hk
      cases heq
      obtain ⟨hstar, hbracket⟩ := isNameFirst_ne hfirst
      have hname := scanName_complete hs hchars hr
      cases mode with
      | any => exact absurd rfl hmode
      | afterDot => simp only [scanOne, if_neg hstar, if_pos hfirst, hname]
      | afterDoubleDot =>
        simp only [scanOne, if_neg hstar, if_neg hbracket, if_pos hfirst, hname]
    | wildcard =>
      obtain ⟨symbol, ⟨⟩, heq⟩ := hk
      cases heq
      cases mode with
      | any => exact absurd rfl hmode
      | afterDot | afterDoubleDot => rfl
    | openBracket =>
      obtain ⟨symbol, ⟨⟩, heq⟩ := hk
      cases heq
      cases mode with
      | any => exact absurd rfl hmode
      | afterDot => exact absurd rfl hm
      | afterDoubleDot => rfl
    | _ => exact absurd hm hmode

namespace Kind

/-- No token is empty, and none starts with a blank. -/
theorem Lexeme.head {k : Kind} {cs : List Char} (h : k.Lexeme cs) :
    ∃ c tail, cs = c :: tail ∧ isBlank c = false := by
  cases k with
  | string s =>
    obtain ⟨quote, body, hq, rfl, -⟩ := h
    exact ⟨quote, _, rfl, by rcases hq with rfl | rfl <;> rfl⟩
  | number n =>
    obtain ⟨c, tail, hchars, hc⟩ := startsNumber_of_wellFormed h.1
    exact ⟨c, tail, h.2.trans hchars, isBlank_of_test hc rfl⟩
  | name s =>
    obtain ⟨-, c, tail, rfl, hc, -⟩ := h
    exact ⟨c, tail, rfl, isBlank_of_test hc rfl⟩
  | function s =>
    cases cs with
    | nil => cases h.2
    | cons c tail =>
      have hc : c.isLower = true := (Bool.and_eq_true_iff.mp h.2).1
      exact ⟨c, tail, rfl, isBlank_of_test hc rfl⟩
  | endOfQuery =>
    obtain ⟨symbol, hs, -⟩ := h
    cases hs
  | comparison op | logical op =>
    obtain ⟨symbol, ⟨⟩, rfl⟩ := h
    cases op <;> exact ⟨_, _, rfl, rfl⟩
  | bool b =>
    obtain ⟨symbol, hs, rfl⟩ := h
    cases b <;> cases hs <;> exact ⟨_, _, rfl, rfl⟩
  | _ =>
    obtain ⟨symbol, ⟨⟩, rfl⟩ := h
    exact ⟨_, _, rfl, rfl⟩

/-- The tokens that no blank may follow. -/
def joins : Kind → Bool
  | .dot | .doubleDot | .function _ => true
  | _ => false

theorem EndsBefore.congr {k : Kind} {rest rest' : List Char} (h : k.EndsBefore rest)
    (heq : rest'.head? = rest.head?) : k.EndsBefore rest' := by
  cases k with
  | number n =>
    obtain ⟨hdigit, hmark, hpoint⟩ := h
    exact ⟨fun c hc => hdigit c (heq ▸ hc), fun hn c hc => hmark hn c (heq ▸ hc),
      fun hn hf hc => hpoint hn hf (heq ▸ hc)⟩
  | dot | not | name s | function s | bool b | null => simpa only [EndsBefore, heq] using h
  | comparison op =>
    cases op with
    | less | greater => simpa only [EndsBefore, heq] using h
    | _ => trivial
  | _ => trivial

/-- Characters that continue none but the tokens that join what is behind them. -/
def Parts (c : Char) : Prop := isNameChar c = false ∧ c ≠ '=' ∧ c ≠ '(' ∧ c ≠ '.'

theorem parts_of_isBlank {c : Char} (h : isBlank c = true) : Parts c := by
  simp only [isBlank, Bool.or_eq_true, beq_iff_eq] at h
  rcases h with ((rfl | rfl) | rfl) | rfl <;> simp [Parts, isNameChar, isNameFirst]

theorem endsBefore_of_parts {k : Kind} (hj : k.joins = false) {rest : List Char}
    (h : ∀ c, rest.head? = some c → Parts c) : k.EndsBefore rest := by
  have hne {d : Char} (hd : isNameChar d = true ∨ d = '=' ∨ d = '(' ∨ d = '.') :
      rest.head? ≠ some d := by
    intro heq
    obtain ⟨hname, hequal, hparen, hdot⟩ := h d heq
    rcases hd with hd | hd | hd | hd
    · rw [hname] at hd
      cases hd
    · exact hequal hd
    · exact hparen hd
    · exact hdot hd
  have hdigit (c : Char) (hc : rest.head? = some c) : c.isDigit = false :=
    (Bool.or_eq_false_iff.mp (h c hc).1).2
  have hword (c : Char) (hc : rest.head? = some c) : isWordChar c = false := by
    have hname := (h c hc).1
    simp only [isNameChar, isNameFirst, Bool.or_eq_false_iff] at hname
    simp [isWordChar, Char.isAlphanum, hname.1.1.1, hname.1.1.2, hname.2]
  cases k with
  | number n =>
    refine ⟨hdigit, fun _ c hc => ⟨?_, ?_⟩, fun _ _ => hne (by simp)⟩
    · rintro rfl
      exact hne (.inl rfl) hc
    · rintro rfl
      exact hne (.inl rfl) hc
  | name s => exact fun c hc => (h c hc).1
  | bool b | null => exact fun c hc => ⟨hword c hc, (h c hc).2.2.1⟩
  | not => exact hne (by simp)
  | comparison op =>
    cases op with
    | less | greater => exact hne (by simp)
    | _ => trivial
  | dot | doubleDot | function s => cases hj
  | _ => trivial

theorem after_of_not_joins {k : Kind} (hj : k.joins = false) : Mode.after k = .any := by
  cases k <;> first | rfl | cases hj

/-- In front of a given text stands at most one text of a token. -/
theorem Lexeme.unique {k : Kind} {cs ds rest rest' : List Char} (h : k.Lexeme cs)
    (h' : k.Lexeme ds) (heq : cs ++ rest = ds ++ rest') : cs = ds := by
  cases k with
  | string s => exact StringLiteral.Spells.unique h h' heq
  | number n => exact h.2.trans h'.2.symm
  | name s | function s => exact h.1.trans h'.1.symm
  | _ =>
    obtain ⟨symbol, hs, rfl⟩ := h
    obtain ⟨symbol', hs', rfl⟩ := h'
    rw [Option.some.inj (hs.symm.trans hs')]

end Kind
end Token
end JsonQuery
