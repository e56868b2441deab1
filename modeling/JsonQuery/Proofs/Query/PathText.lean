import JsonQuery.Proofs.Evaluation.NormalizedPath
import JsonQuery.Proofs.Query.Errors

namespace JsonQuery
open Token (Kind Piece Laid size tokenize)

/-- A literal as it is written spells its string. -/
theorem Quoted.spells_chars (s : String) : StringLiteral.Spells (chars s) s.toList := by
  obtain ⟨body, rest, heq, hstop, hbody⟩ :=
    StringLiteral.scanTail_sound (scanTail_chars s.toList [] 0)
  have hlength : (s.toList.flatMap escape).length = body.length := by omega
  obtain ⟨rfl, -⟩ := List.append_inj heq hlength
  exact ⟨'\'', _, .inl rfl, rfl, hbody⟩

namespace Step

/-- Whether a query may take a step. -/
def Fits : Step → Prop
  | .name _ => True
  | .index k => (k : Int) ≤ maxIndex

instance : DecidablePred Fits
  | .name _ => inferInstanceAs (Decidable True)
  | .index k => inferInstanceAs (Decidable ((k : Int) ≤ maxIndex))

/-- What stands between the brackets of a step. -/
def chars : Step → List Char
  | .name s => Quoted.chars s
  | .index k => Nat.toDigits 10 k

theorem stepChars_eq (step : Step) : Location.stepChars step = ['['] ++ step.chars ++ [']'] := by
  cases step <;> rfl

theorem lexeme (step : Step) : step.kind.Lexeme step.chars := by
  cases step with
  | name s => exact Quoted.spells_chars s
  | index k => exact ⟨Numeral.ofInt_wellFormed k, by simp [chars, Numeral.ofInt_chars, intChars]⟩

theorem kind_injective {step step' : Step} (h : step.kind = step'.kind) : step = step' := by
  cases step with
  | name s =>
    cases step' with
    | name s' => exact congrArg name (Kind.string.inj h)
    | index k' => cases h
  | index k =>
    cases step' with
    | name s' => cases h
    | index k' =>
      have hint := congrArg Numeral.integer (Kind.number.inj h)
      rw [Numeral.ofInt_integer, Numeral.ofInt_integer] at hint
      exact congrArg index (Int.ofNat.inj hint)

/-- No character of a step continues the token before it. -/
theorem stands (step : Step) : step.kind.StandsIn .any ∧ step.kind.joins = false := by
  cases step <;> exact ⟨rfl, rfl⟩

end Step

namespace Location

/-- The tokens of steps that stand behind `o` bytes, with what they are spelled by. -/
def pieces (o : Nat) : Location → List Piece
  | [] => []
  | step :: l => ⟨⟨.openBracket, o⟩, ['[']⟩ :: ⟨⟨step.kind, o + 1⟩, step.chars⟩ ::
      ⟨⟨.closeBracket, o + 1 + size step.chars⟩, [']']⟩ :: pieces (o + 2 + size step.chars) l

theorem tokens_cons (o : Nat) (step : Step) (l : Location) :
    (pieces o (step :: l)).map Piece.token = ⟨.openBracket, o⟩ :: ⟨step.kind, o + 1⟩ ::
      ⟨.closeBracket, o + 1 + size step.chars⟩ ::
        (pieces (o + 2 + size step.chars) l).map Piece.token := rfl

theorem laid_pieces (l : Location) (o : Nat) : Laid .any o (l.flatMap stepChars) (pieces o l) := by
  induction l generalizing o with
  | nil => exact .done o
  | cons step l ih =>
    obtain ⟨hstands, hjoins⟩ := step.stands
    have hends : step.kind.EndsBefore ([']'] ++ l.flatMap stepChars) := by
      refine Token.Kind.endsBefore_of_parts hjoins ?_
      rintro _ ⟨⟩
      simp [Kind.Parts, Token.isNameChar, Token.isNameFirst]
    have hrest : Laid .any (o + 1 + size step.chars + size [']']) (l.flatMap stepChars)
        (pieces (o + 2 + size step.chars) l) := by
      have hsize : size [']'] = 1 := rfl
      have hstop : o + 1 + size step.chars + size [']'] = o + 2 + size step.chars := by omega
      rw [hstop]
      exact ih _
    have hclose : Laid .any (o + 1 + size step.chars) ([']'] ++ l.flatMap stepChars)
        (⟨⟨.closeBracket, o + 1 + size step.chars⟩, [']']⟩ ::
          pieces (o + 2 + size step.chars) l) := .token rfl ⟨_, rfl, rfl⟩ trivial hrest
    rw [← Token.Kind.after_of_not_joins hjoins] at hclose
    rw [List.flatMap_cons, Step.stepChars_eq, List.append_assoc, List.append_assoc]
    have hopen : Kind.openBracket.StandsIn .any := by simp [Kind.StandsIn]
    have hstep := Laid.token hstands step.lexeme hends hclose
    exact .token hopen ⟨_, rfl, rfl⟩ trivial hstep

theorem tokenize_text (l : Location) : tokenize l.text =
    .ok ⟨⟨.root, 0⟩ :: (pieces 1 l).map Piece.token, l.text.utf8ByteSize⟩ := by
  have hlaid : Laid .any 0 (['$'] ++ l.flatMap stepChars) (⟨⟨.root, 0⟩, ['$']⟩ :: pieces 1 l) :=
    .token rfl ⟨_, rfl, rfl⟩ trivial (laid_pieces l 1)
  have hchars : l.text.toList = ['$'] ++ l.flatMap stepChars := String.toList_ofList
  rw [tokenize, hchars, hlaid.scanFrom, Nat.zero_add, ← hchars, Token.size_toList]
  rfl

theorem eq_of_pieces {l l' : Location} {o : Nat}
    (h : (pieces o l).map Piece.token = (pieces o l').map Piece.token) : l = l' := by
  induction l generalizing l' o with
  | nil =>
    cases l' with
    | nil => rfl
    | cons step' l' => cases h
  | cons step l ih =>
    cases l' with
    | nil => cases h
    | cons step' l' =>
      simp only [pieces, List.map_cons, List.cons.injEq, Token.mk.injEq] at h
      obtain ⟨-, ⟨hkind, -⟩, -, hrest⟩ := h
      obtain rfl := Step.kind_injective hkind
      exact congrArg (step :: ·) (ih hrest)

theorem text_injective {l l' : Location} (h : l.text = l'.text) : l = l' := by
  have htokens := tokenize_text l
  rw [h, tokenize_text l'] at htokens
  exact (eq_of_pieces (List.cons.inj (TokenStream.mk.inj (Except.ok.inj htokens)).1).2).symm

/-- The first index that is too large. -/
theorem exists_tooLarge {l : Location} (h : ¬ ∀ step ∈ l, step.Fits) :
    ∃ (front : Location) (k : Nat) (back : Location), l = front ++ .index k :: back ∧
      (∀ step ∈ front, step.Fits) ∧ maxIndex < k := by
  induction l with
  | nil => simp at h
  | cons step l ih =>
    by_cases hstep : step.Fits
    · have hl : ¬ ∀ step ∈ l, step.Fits := fun hl => h (List.forall_mem_cons.mpr ⟨hstep, hl⟩)
      obtain ⟨front, k, back, rfl, hfront, hlt⟩ := ih hl
      exact ⟨step :: front, k, back, rfl, List.forall_mem_cons.mpr ⟨hstep, hfront⟩, hlt⟩
    · cases step with
      | name s => exact absurd trivial hstep
      | index k => exact ⟨[], k, l, rfl, by simp, Int.not_le.mp hstep⟩

end Location

namespace Grammar

variable (g : Grammar) (nested : Option (Reader Expr))

theorem selectors_step {step : Step} (h : step.Fits) (o o' : Nat) (rest : List Token) :
    (g.selectors nested (⟨step.kind, o⟩ :: ⟨.closeBracket, o'⟩ :: rest)).Reads
      [step.selector] rest := by
  rw [selectors]
  cases step with
  | name s => exact ⟨by grind, rfl⟩
  | index k =>
    have hmax : (0 : Int) ≤ maxIndex := by decide
    have hrange : InIndexRange (k : Int) := ⟨by omega, h⟩
    have hindex : index o (.ofInt k) = .ok (k : Int) :=
      index_ok.mpr ⟨Numeral.ofInt_spellsIndex k, hrange⟩
    refine ⟨by grind, ?_⟩
    simp only [Step.kind, selector, hindex]
    rfl

theorem selectors_tooLarge {k : Nat} (h : maxIndex < k) (o o' : Nat) (rest : List Token) :
    g.selectors nested (⟨Step.kind (.index k), o⟩ :: ⟨.closeBracket, o'⟩ :: rest) =
      .error ⟨.indexOutOfRange (.ofInt k), o⟩ := by
  have hindex : index o (.ofInt k) = .error ⟨.indexOutOfRange (.ofInt k), o⟩ := by
    have hinteger : (Numeral.ofInt k).isInteger = true := rfl
    have hrange : ¬ (-maxIndex ≤ (k : Int) ∧ (k : Int) ≤ maxIndex) := by omega
    simp [index, hinteger, Numeral.ofInt_isMinusZero, Numeral.ofInt_integer, hrange]
  rw [selectors]
  simp only [Step.kind, selector, hindex]
  rfl

/-- Steps are read up to the first index that is too large. -/
theorem segments_tooLarge {front : Location} {k : Nat} (hf : ∀ step ∈ front, step.Fits)
    (hk : maxIndex < k) (back : Location) (o : Nat) :
    g.segments nested ((Location.pieces o (front ++ .index k :: back)).map Piece.token) =
      .error ⟨.indexOutOfRange (.ofInt k), o + size (front.flatMap Location.stepChars) + 1⟩ := by
  induction front generalizing o with
  | nil =>
    rw [List.nil_append, Location.tokens_cons, segments, selectors_tooLarge g nested hk]
    rfl
  | cons step front ih =>
    obtain ⟨hstep, hfront⟩ := List.forall_mem_cons.mp hf
    have hsize : o + size ((step :: front).flatMap Location.stepChars) =
        o + 2 + size step.chars + size (front.flatMap Location.stepChars) := by
      have hopen : size ['['] = 1 := rfl
      have hclose : size [']'] = 1 := rfl
      rw [List.flatMap_cons, Step.stepChars_eq, Token.size_append, Token.size_append,
        Token.size_append]
      omega
    have hrest := ih hfront (o + 2 + size step.chars)
    obtain ⟨below, hread⟩ := selectors_step g nested hstep (o + 1) (o + 1 + size step.chars)
      ((Location.pieces (o + 2 + size step.chars) (front ++ .index k :: back)).map Piece.token)
    rw [List.cons_append, Location.tokens_cons, segments, hread, hsize]
    simp only [bind, Except.bind, hrest]

end Grammar

namespace Location

variable (env : Environment)

theorem trimmed_text (l : Location) : Trimmed l.text.toList := by
  have hchars : l.text.toList = (Query.ofLocation l).chars := by
    rw [Query.ofLocation_chars]
    exact String.toList_ofList
  rw [hchars]
  exact (Query.ofLocation l).trimmed_chars

theorem compile_of_fits {l : Location} (h : ∀ step ∈ l, step.Fits) :
    env.compile l.text = .ok (.ofLocation l) := by
  obtain ⟨ks, hspells, hnames⟩ := Query.ofLocation_spells l
  have htyped := Query.ofLocation_wellTyped (fun k hk => h (.index k) hk) env.registry
  have hdepth : (Query.ofLocation l).depth ≤ env.maxDepth := by
    rw [Query.ofLocation_depth]
    exact Nat.zero_le _
  rw [← Query.ofLocation_text]
  exact Environment.compile_of_spells hspells hnames htyped hdepth

theorem compile_of_tooLarge {front : Location} {k : Nat} (hf : ∀ step ∈ front, step.Fits)
    (hk : maxIndex < k) (back : Location) : env.compile (text (front ++ .index k :: back)) =
      .error ⟨.indexOutOfRange (.ofInt k), (text front).utf8ByteSize + 1⟩ := by
  have hsize : (text front).utf8ByteSize = 1 + size (front.flatMap stepChars) := by
    have hchars : (text front).toList = ['$'] ++ front.flatMap stepChars := String.toList_ofList
    rw [← Token.size_toList, hchars, Token.size_append]
    rfl
  rw [Environment.compile_of_tokens (trimmed_text _) (tokenize_text _), Grammar.query,
    Grammar.segments_tooLarge _ _ hf hk, hsize]
  rfl

/-- The texts of locations are a code for them, which compiles if all indices may stand in queries,
and then to a query with a singular segment for each step. Else the first index that may not is
reported. -/
theorem compile_text (l : Location) :
    ((∃ q, env.compile l.text = .ok q) ↔ ∀ step ∈ l, step.Fits) ∧
    (∀ q, env.compile l.text = .ok q →
      q.segments = l.map (fun step => .child [step.selector]) ∧ q.isSingular = true ∧
        q.text = l.text) ∧
    (∀ e, env.compile l.text = .error e → ∃ (front : Location) (k : Nat) (back : Location),
      l = front ++ .index k :: back ∧ (∀ step ∈ front, step.Fits) ∧ maxIndex < k ∧
        e = ⟨.indexOutOfRange (.ofInt k), (text front).utf8ByteSize + 1⟩) ∧
    ∀ l' : Location, l'.text = l.text → l' = l := by
  have hinjective : ∀ l' : Location, l'.text = l.text → l' = l := fun l' => text_injective
  by_cases hfits : ∀ step ∈ l, step.Fits
  · have hcompile := compile_of_fits env hfits
    refine ⟨⟨fun _ => hfits, fun _ => ⟨_, hcompile⟩⟩, fun q hq => ?_, fun e he => ?_, hinjective⟩
    · rw [hcompile] at hq
      cases hq
      exact ⟨rfl, Query.ofLocation_isSingular l, Query.ofLocation_text l⟩
    · rw [hcompile] at he
      cases he
  · obtain ⟨front, k, back, rfl, hfront, hk⟩ := exists_tooLarge hfits
    have hcompile := compile_of_tooLarge env hfront hk back
    refine ⟨⟨?_, fun h => absurd h hfits⟩, fun q hq => ?_, fun e he => ?_, hinjective⟩
    · rintro ⟨q, hq⟩
      rw [hcompile] at hq
      cases hq
    · rw [hcompile] at hq
      cases hq
    · rw [hcompile] at he
      cases he
      exact ⟨front, k, back, rfl, hfront, hk, rfl⟩

/-- Behind a name of two bytes, the first index that no query may have. -/
theorem compile_text_tooLarge :
    let l : Location := [.name "é", .index (2 ^ 53), .index (2 ^ 60)]
    l.text = "$['é'][9007199254740992][1152921504606846976]" ∧ ¬ (∀ step ∈ l, step.Fits) ∧
      ¬ ∃ q, Environment.default.compile l.text = .ok q := by
  intro l
  have hnot : ¬ ∀ step ∈ l, step.Fits := by decide
  exact ⟨by cbv, hnot, mt (compile_text .default l).1.mp hnot⟩

end Location
end JsonQuery
