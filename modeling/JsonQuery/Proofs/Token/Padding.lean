import JsonQuery.Proofs.Token.Layout

namespace JsonQuery
namespace Token

/-- A text, and what it becomes by blanks around its tokens, of which the first stands behind `o`
bytes or more. Directly behind a token that joins, where `free` is false, there is no new blank. -/
inductive Padded : Bool → Nat → List Token → List Char → List Char → Prop where
  | done (free : Bool) (o : Nat) : Padded free o [] [] []
  | insert {o : Nat} {ts : List Token} {c : Char} {cs cs' : List Char} (hc : isBlank c = true)
      (h : Padded true o ts cs cs') : Padded true o ts cs (c :: cs')
  | blank {free : Bool} {o : Nat} {ts : List Token} {c : Char} {cs cs' : List Char}
      (hc : isBlank c = true) (h : Padded true (o + c.utf8Size) ts cs cs') :
      Padded free o ts (c :: cs) (c :: cs')
  | token {free : Bool} {o : Nat} {k : Kind} {ts : List Token} {span cs cs' : List Char}
      (hk : k.Lexeme span) (h : Padded (!k.joins) (o + size span) ts cs cs') :
      Padded free o (⟨k, o⟩ :: ts) (span ++ cs) (span ++ cs')

/-- What stands first is as it was, or a new blank. -/
theorem Padded.head {free : Bool} {o : Nat} {ts : List Token} {cs cs' : List Char}
    (h : Padded free o ts cs cs') :
    cs'.head? = cs.head? ∨ free = true ∧ ∃ c tail, cs' = c :: tail ∧ isBlank c = true := by
  cases h with
  | done free o => exact .inl rfl
  | insert hc h => exact .inr ⟨rfl, _, _, rfl, hc⟩
  | blank hc h => exact .inl rfl
  | token hk h =>
    obtain ⟨c, tail, rfl, -⟩ := hk.head
    exact .inl rfl

theorem Padded.endsBefore {o : Nat} {ts : List Token} {k : Kind} {cs cs' : List Char}
    (h : Padded (!k.joins) o ts cs cs') (he : k.EndsBefore cs) : k.EndsBefore cs' := by
  rcases h.head with heq | ⟨hfree, c, tail, rfl, hc⟩
  · exact he.congr heq
  · refine Kind.endsBefore_of_parts (by simpa using hfree) ?_
    rintro _ ⟨⟩
    exact Kind.parts_of_isBlank hc

/-- Blanks around tokens leave the tokens as they are. -/
theorem Padded.laid {free : Bool} {o : Nat} {ts : List Token} {cs cs' : List Char}
    (h : Padded free o ts cs cs') {mode : Mode} (hfree : free = true → mode = .any)
    {ps : List Piece} (hps : Laid mode o cs ps) (hts : ps.map Piece.token = ts) (o' : Nat) :
    ∃ ps', Laid mode o' cs' ps' ∧
      kinds (ps'.map Piece.token) = kinds (ps.map Piece.token) := by
  -- A new blank is skipped, and moves what is behind it; `o'` follows the second text.
  induction h generalizing mode ps o' with
  | done free o =>
    obtain ⟨rfl, rfl⟩ := hps.nil_inv
    exact ⟨[], .done o', rfl⟩
  | insert hc h ih =>
    obtain rfl := hfree rfl
    obtain ⟨ps', hps', hkinds⟩ := ih (fun _ => rfl) hps hts _
    exact ⟨ps', .blank hc hps', hkinds⟩
  | blank hc h ih =>
    obtain ⟨rfl, hrest⟩ := hps.blank_inv hc
    obtain ⟨ps', hps', hkinds⟩ := ih (fun _ => rfl) hrest hts _
    exact ⟨ps', .blank hc hps', hkinds⟩
  | @token free o k ts span cs cs' hk h ih =>
    obtain ⟨more, rfl, hm, he, hrest⟩ := hps.token_inv hk hts
    have hmode (hfree : (!k.joins) = true) : Mode.after k = .any :=
      Kind.after_of_not_joins (by simpa using hfree)
    obtain ⟨ps', hps', hkinds⟩ := ih hmode hrest (List.cons.inj hts).2 _
    exact ⟨_, .token hm hk (h.endsBefore he) hps', congrArg (k :: ·) hkinds⟩

theorem Padded.tokenize {text text' : String} {s : TokenStream} (h : tokenize text = .ok s)
    (hp : Padded true 0 s.tokens text.toList text'.toList) :
    ∃ s', Token.tokenize text' = .ok s' ∧ kinds s'.tokens = kinds s.tokens := by
  obtain ⟨ps, hps, rfl⟩ := tokenize_laid h
  obtain ⟨ps', hps', hkinds⟩ := hp.laid (fun _ => rfl) hps rfl 0
  exact ⟨_, hps'.scanFrom, hkinds⟩

end Token
end JsonQuery
