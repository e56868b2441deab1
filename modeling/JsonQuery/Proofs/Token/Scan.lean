import JsonQuery.Proofs.Text.Quoted
import JsonQuery.Proofs.Token.Layout

namespace JsonQuery
namespace Token

/-- The kinds of the tokens of a text, wherever the text stands. -/
def Lexes (mode : Mode) (cs : List Char) (ks : List Kind) : Prop :=
  ∀ o, ∃ s, scanFrom mode o cs = .ok s ∧ kinds s.tokens = ks

/-- The front of a text has tokens of its own: the text has tokens if the rest of it has, and begins
with these. -/
def LexesFront (cs : List Char) (ks : List Kind) (rest : List Char) : Prop :=
  ∀ all, Lexes .any (cs ++ rest) all ↔ ∃ more, all = ks ++ more ∧ Lexes .any rest more

/-- A text that has the same tokens before every other text. -/
def LexesBefore (cs : List Char) (ks : List Kind) : Prop := ∀ rest, LexesFront cs ks rest

/-- A text whose first character continues no number, no word and no operator. -/
def Separates (rest : List Char) : Prop :=
  ∀ c, rest.head? = some c → c ∈ [' ', ']', ',', ')', ':']

/-- A text that has the same tokens before the end and before every text that separates it. -/
def LexesApart (cs : List Char) (ks : List Kind) : Prop :=
  ∀ rest, Separates rest → LexesFront cs ks rest

theorem Lexes.nil : Lexes .any [] [] := fun o => ⟨⟨[], o⟩, by rw [scanFrom], rfl⟩

/-- Which kinds of tokens a text has does not depend on where it stands. -/
theorem lexes_of_scanFrom {mode : Mode} {o : Nat} {cs : List Char} {s : TokenStream}
    (h : scanFrom mode o cs = .ok s) : Lexes mode cs (kinds s.tokens) := by
  induction mode, o, cs using scanFrom.induct generalizing s with
  | case1 o =>
    rw [scanFrom] at h
    cases h
    exact Lexes.nil
  | case2 o | case3 o =>
    rw [scanFrom] at h
    cases h
  | case4 mode o c rest hb ih =>
    rw [scanFrom, if_pos hb] at h
    intro o'
    rw [scanFrom, if_pos hb]
    exact ih h _
  | case5 mode o c rest hb fault i hone =>
    rw [scanFrom, if_neg hb, hone] at h
    cases h
  | case6 mode o c rest hb k n hone ih =>
    rw [scanFrom, if_neg hb, hone] at h
    obtain ⟨s', hs', rfl⟩ := map_eq_ok.mp h
    intro o'
    obtain ⟨s'', hs'', hkinds⟩ := ih hs' (o' + size (c :: rest.take n))
    rw [scanFrom, if_neg hb, hone]
    exact ⟨_, map_eq_ok.mpr ⟨s'', hs'', rfl⟩, congrArg (k :: ·) hkinds⟩

/-- One step of the scanner: a token at the front of a text, and the tokens behind it. -/
theorem lexes_token {mode : Mode} {c : Char} {tail rest : List Char} {k : Kind}
    (hb : mode = .any → isBlank c = false)
    (h : scanOne mode c (tail ++ rest) = .ok (k, tail.length)) (all : List Kind) :
    Lexes mode (c :: tail ++ rest) all ↔ ∃ more, all = k :: more ∧ Lexes (.after k) rest more := by
  have hblank : ¬ (mode = .any ∧ isBlank c = true) := by
    rintro ⟨hm, hc⟩
    rw [hb hm] at hc
    cases hc
  have hstep (o : Nat) : scanFrom mode o (c :: tail ++ rest) =
      (scanFrom (.after k) (o + size (c :: (tail ++ rest).take tail.length)) rest).map
        (fun s => ⟨⟨k, o⟩ :: s.tokens, s.stop⟩) := by
    rw [List.cons_append, scanFrom, if_neg hblank, h]
    simp only [List.drop_left]
  constructor
  · intro hall
    obtain ⟨s, hs, hkinds⟩ := hall 0
    rw [hstep] at hs
    obtain ⟨s', hs', rfl⟩ := map_eq_ok.mp hs
    exact ⟨kinds s'.tokens, hkinds.symm, lexes_of_scanFrom hs'⟩
  · rintro ⟨more, rfl, hr⟩ o
    obtain ⟨s, hs, hkinds⟩ := hr (o + size (c :: (tail ++ rest).take tail.length))
    rw [hstep]
    exact ⟨_, map_eq_ok.mpr ⟨s, hs, rfl⟩, congrArg (k :: ·) hkinds⟩

theorem lexesFront_token {c : Char} {tail rest : List Char} {k : Kind} (hb : isBlank c = false)
    (hm : Mode.after k = .any) (h : scanAny c (tail ++ rest) = .ok (k, tail.length)) :
    LexesFront (c :: tail) [k] rest := by
  have hstep := @lexes_token .any _ _ _ _ (fun _ => hb) h
  rwa [hm] at hstep

theorem LexesFront.append {cs cs' rest : List Char} {ks ks' : List Kind}
    (h : LexesFront cs ks (cs' ++ rest)) (h' : LexesFront cs' ks' rest) :
    LexesFront (cs ++ cs') (ks ++ ks') rest := by
  intro all
  rw [List.append_assoc, h]
  constructor
  · rintro ⟨between, rfl, hbetween⟩
    obtain ⟨more, rfl, hr⟩ := (h' between).mp hbetween
    exact ⟨more, (List.append_assoc ..).symm, hr⟩
  · rintro ⟨more, rfl, hr⟩
    exact ⟨ks' ++ more, List.append_assoc .., (h' _).mpr ⟨more, rfl, hr⟩⟩

theorem LexesBefore.apart {cs : List Char} {ks : List Kind} (h : LexesBefore cs ks) :
    LexesApart cs ks := fun rest _ => h rest

theorem LexesBefore.nil : LexesBefore [] [] := by simp [LexesBefore, LexesFront]

theorem LexesBefore.append {cs cs' : List Char} {ks ks' : List Kind} (h : LexesBefore cs ks)
    (h' : LexesBefore cs' ks') : LexesBefore (cs ++ cs') (ks ++ ks') :=
  fun rest => (h _).append (h' rest)

theorem LexesBefore.append_apart {cs cs' : List Char} {ks ks' : List Kind}
    (h : LexesBefore cs ks) (h' : LexesApart cs' ks') : LexesApart (cs ++ cs') (ks ++ ks') :=
  fun rest hs => (h _).append (h' rest hs)

/-- The tokens of a whole text. -/
theorem LexesBefore.lexes {cs : List Char} {ks : List Kind} (h : LexesBefore cs ks) :
    Lexes .any cs ks := by
  have hall := (h [] ks).mpr ⟨[], (List.append_nil ks).symm, Lexes.nil⟩
  rwa [List.append_nil] at hall

/-- What separates a text from the next makes the two safe before anything. -/
theorem LexesApart.append {cs cs' : List Char} {ks ks' : List Kind} (h : LexesApart cs ks)
    (hs : Separates cs') (hne : cs' ≠ []) (h' : LexesBefore cs' ks') :
    LexesBefore (cs ++ cs') (ks ++ ks') := by
  obtain ⟨c, tail, rfl⟩ := List.exists_cons_of_ne_nil hne
  exact fun rest => (h _ (fun x hx => hs x (by simpa using hx))).append (h' rest)

theorem Separates.append {cs rest : List Char} (h : Separates cs) (hr : Separates rest) :
    Separates (cs ++ rest) := by
  cases cs with
  | nil => exact hr
  | cons c tail => exact fun x hx => h x (by simpa using hx)

theorem LexesApart.append_apart {cs cs' : List Char} {ks ks' : List Kind} (h : LexesApart cs ks)
    (hs : Separates cs') (h' : LexesApart cs' ks') :
    LexesApart (cs ++ cs') (ks ++ ks') :=
  fun rest hr => (h _ (hs.append hr)).append (h' rest hr)

theorem Separates.cons {c : Char} (h : c ∈ [' ', ']', ',', ')', ':']) (cs : List Char) :
    Separates (c :: cs) := by
  intro x hx
  cases hx
  exact h

theorem Separates.nil : Separates [] := by
  intro x hx
  cases hx

theorem Separates.forall {p : Char → Prop} {rest : List Char} (h : Separates rest)
    (hp : ∀ c ∈ [' ', ']', ',', ')', ':'], p c) : ∀ c, rest.head? = some c → p c :=
  fun c hc => hp c (h c hc)

/-- A token whose first character decides it. -/
theorem lexesBefore_of_scan {c : Char} {tail : List Char} {k : Kind} (hb : isBlank c = false)
    (hm : Mode.after k = .any)
    (h : ∀ rest, scanAny c (tail ++ rest) = .ok (k, tail.length)) :
    LexesBefore (c :: tail) [k] := fun rest => lexesFront_token hb hm (h rest)

/-- The symbols of one character that no character behind them continues. -/
inductive Symbol : Char → Kind → Prop
  | root : Symbol '$' .root
  | current : Symbol '@' .current
  | openBracket : Symbol '[' .openBracket
  | closeBracket : Symbol ']' .closeBracket
  | comma : Symbol ',' .comma
  | colon : Symbol ':' .colon
  | question : Symbol '?' .question
  | openParen : Symbol '(' .openParen
  | closeParen : Symbol ')' .closeParen
  | wildcard : Symbol '*' .wildcard

theorem Symbol.lexesBefore {c : Char} {k : Kind} (h : Symbol c k) : LexesBefore [c] [k] := by
  cases h <;> exact lexesBefore_of_scan rfl rfl (fun _ => rfl)

theorem lexesBefore_blank : LexesBefore [' '] [] := by
  intro rest all
  have hstep (o : Nat) : scanFrom .any o (' ' :: rest) = scanFrom .any (o + ' '.utf8Size) rest := by
    rw [scanFrom, if_pos ⟨rfl, rfl⟩]
  constructor
  · intro hall
    obtain ⟨s, hs, rfl⟩ := hall 0
    rw [List.singleton_append, hstep] at hs
    exact ⟨_, rfl, lexes_of_scanFrom hs⟩
  · rintro ⟨more, rfl, hr⟩ o
    rw [List.singleton_append, hstep]
    exact hr _

/-- Two dots and a bracket, which no blank may part. -/
theorem lexesBefore_descendants :
    LexesBefore ['.', '.', '['] [.doubleDot, .openBracket] := by
  intro rest all
  have hdots := @lexes_token .any '.' ['.'] ('[' :: rest) _ (fun _ => rfl) rfl all
  have hbracket := @lexes_token .afterDoubleDot '[' [] rest _ (fun hm => by cases hm) rfl
  change Lexes .any ('.' :: ['.'] ++ '[' :: rest) all ↔ _
  rw [hdots]
  constructor
  · rintro ⟨between, rfl, hbetween⟩
    obtain ⟨more, rfl, hr⟩ := (hbracket between).mp hbetween
    exact ⟨more, rfl, hr⟩
  · rintro ⟨more, rfl, hr⟩
    exact ⟨_, rfl, (hbracket _).mpr ⟨more, rfl, hr⟩⟩

/-- A token in front of what does not continue it. -/
theorem lexesFront_lexeme {k : Kind} {cs rest : List Char} (hk : k.Lexeme cs)
    (hm : k.StandsIn .any) (ha : Mode.after k = .any) (hr : k.EndsBefore rest) :
    LexesFront cs [k] rest := by
  obtain ⟨c, tail, rfl, hb⟩ := hk.head
  exact lexesFront_token hb ha (scanAny_complete hm hk hr)

theorem Separates.endsBefore {rest : List Char} (h : Separates rest) {k : Kind}
    (hj : k.joins = false) : k.EndsBefore rest := by
  refine Kind.endsBefore_of_parts hj (h.forall ?_)
  simp [Kind.Parts, isNameChar, isNameFirst]

theorem lexesApart_lexeme {k : Kind} {cs : List Char} (hk : k.Lexeme cs) (hm : k.StandsIn .any)
    (hj : k.joins = false) : LexesApart cs [k] :=
  fun _ hs => lexesFront_lexeme hk hm (Kind.after_of_not_joins hj) (hs.endsBefore hj)

/-- An operator, which the blank behind it ends. -/
theorem lexesBefore_operator {k : Kind} {symbol : List Char} (hk : k.Lexeme symbol)
    (hm : k.StandsIn .any) (hj : k.joins = false) : LexesBefore (' ' :: symbol ++ [' ']) [k] :=
  lexesBefore_blank.append ((lexesApart_lexeme hk hm hj).append
    (Separates.cons (by simp) []) (by simp) lexesBefore_blank)

theorem lexesBefore_comparison (op : ComparisonOp) :
    LexesBefore (' ' :: op.symbol.toList ++ [' ']) [.comparison op] :=
  lexesBefore_operator ⟨_, rfl, rfl⟩ rfl rfl

theorem lexesBefore_logical (op : LogicalOp) :
    LexesBefore (' ' :: op.symbol.toList ++ [' ']) [.logical op] :=
  lexesBefore_operator ⟨_, rfl, rfl⟩ rfl rfl

/-- A negation in front of a text that does not make it `!=`. -/
theorem lexesFront_not {cs : List Char} (hc : cs.head? ≠ some '=') : LexesFront ['!'] [.not] cs :=
  lexesFront_lexeme ⟨_, rfl, rfl⟩ rfl rfl hc

theorem lexesApart_not {cs : List Char} {ks : List Kind} (h : LexesApart cs ks)
    (hc : ∃ c tail, cs = c :: tail ∧ c ≠ '=') : LexesApart ('!' :: cs) (.not :: ks) := by
  obtain ⟨c, tail, rfl, hne⟩ := hc
  exact fun rest hs => (lexesFront_not (by simpa using hne)).append (h rest hs)

theorem lexesBefore_string (s : String) : LexesBefore (Quoted.chars s) [.string s] := by
  have hchars : Quoted.chars s = '\'' :: (s.toList.flatMap Quoted.escape ++ ['\'']) := rfl
  have hquote (cs : List Char) : scanAny '\'' cs = scanString '\'' cs := rfl
  rw [hchars]
  refine lexesBefore_of_scan rfl rfl (fun rest => ?_)
  rw [hquote, scanString, List.append_assoc, List.singleton_append, Quoted.scanTail_chars]
  simp only [String.ofList_toList, List.length_append, List.length_singleton]
  congr 2
  omega

theorem lexesApart_number {n : Numeral} (h : n.WellFormed) : LexesApart n.chars [.number n] :=
  lexesApart_lexeme ⟨h, rfl⟩ rfl rfl

theorem lexesApart_bool (b : Bool) : LexesApart (Json.bool b).chars [.bool b] := by
  cases b <;> exact lexesApart_lexeme ⟨_, rfl, rfl⟩ rfl rfl

theorem lexesApart_null : LexesApart Json.null.chars [.null] :=
  lexesApart_lexeme ⟨_, rfl, rfl⟩ rfl rfl

/-- The name of a function and the parenthesis behind it. -/
theorem lexesBefore_function {name : String} (h : isFunctionName name.toList = true) :
    LexesBefore (name.toList ++ ['(']) [.function name, .openParen] := by
  intro rest
  have hname : LexesFront name.toList [.function name] ('(' :: rest) :=
    lexesFront_lexeme ⟨rfl, h⟩ rfl rfl rfl
  exact hname.append (Symbol.openParen.lexesBefore rest)

/-- The name of every function among tokens is one that calls may use. -/
def NamesFunctions (ks : List Kind) : Prop :=
  ∀ name, .function name ∈ ks → isFunctionName name.toList = true

theorem scanFrom_namesFunctions {mode : Mode} {o : Nat} {cs : List Char} {s : TokenStream}
    (h : scanFrom mode o cs = .ok s) : NamesFunctions (kinds s.tokens) := by
  obtain ⟨ps, hps, rfl⟩ := scanFrom_laid h
  intro name hmem
  simp only [kinds, List.map_map, List.mem_map, Function.comp_apply] at hmem
  obtain ⟨p, hp, hkind⟩ := hmem
  have hlexeme := hps.lexeme p hp
  rw [hkind] at hlexeme
  rw [← hlexeme.1]
  exact hlexeme.2

end Token
end JsonQuery
