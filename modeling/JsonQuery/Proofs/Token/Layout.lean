import JsonQuery.Proofs.Token.Lexeme

namespace JsonQuery
namespace Token

@[simp] theorem size_nil : size [] = 0 := rfl

@[simp] theorem size_cons (c : Char) (cs : List Char) : size (c :: cs) = c.utf8Size + size cs := by
  have hshift (n : Nat) : cs.foldl (fun n c => n + c.utf8Size) n = n + size cs := by
    unfold size
    induction cs generalizing n with
    | nil => rfl
    | cons d ds ih => rw [List.foldl_cons, ih, List.foldl_cons, ih (0 + _)]; omega
  rw [size, List.foldl_cons, hshift, Nat.zero_add]

@[simp] theorem size_append (cs ds : List Char) : size (cs ++ ds) = size cs + size ds := by
  induction cs with
  | nil => simp
  | cons c cs ih => simp [ih, Nat.add_assoc]

theorem size_toList (text : String) : size text.toList = text.utf8ByteSize := by
  have hlen (cs : List Char) : size cs = String.utf8Len cs := by
    induction cs with
    | nil => rfl
    | cons c cs ih => rw [size_cons, ih, String.utf8Len_cons, Nat.add_comm]
  rw [hlen, ← String.utf8ByteSize_ofList, String.ofList_toList]

/-- The bytes in front of a character end on a boundary of characters. -/
theorem isValid_size {text : String} {front back : List Char} (h : text.toList = front ++ back) :
    (String.Pos.Raw.mk (size front)).IsValid text := by
  refine String.Pos.Raw.isValid_iff_exists_append.mpr
    ⟨String.ofList front, String.ofList back, ?_, ?_⟩
  · rw [← String.ofList_append, ← h, String.ofList_toList]
  · rw [← String.toList_ofList (l := front), size_toList, String.toList_ofList]
    rfl

/-- A token, and the characters that spell it. -/
structure Piece where
  token : Token
  span : List Char

/-- The number of bytes in front of what stands behind a token. -/
def Piece.stop (p : Piece) : Nat := p.token.offset + size p.span

/-- How tokens lie in a text that stands behind `o` bytes. Behind dots there is no blank. -/
inductive Laid : Mode → Nat → List Char → List Piece → Prop where
  | done (o : Nat) : Laid .any o [] []
  | blank {o : Nat} {c : Char} {cs : List Char} {ps : List Piece} (hc : isBlank c = true)
      (h : Laid .any (o + c.utf8Size) cs ps) : Laid .any o (c :: cs) ps
  | token {mode : Mode} {k : Kind} {o : Nat} {span rest : List Char} {ps : List Piece}
      (hm : k.StandsIn mode) (hk : k.Lexeme span) (he : k.EndsBefore rest)
      (h : Laid (.after k) (o + size span) rest ps) :
      Laid mode o (span ++ rest) (⟨⟨k, o⟩, span⟩ :: ps)

theorem Laid.nil_inv {mode : Mode} {o : Nat} {ps : List Piece} (h : Laid mode o [] ps) :
    mode = .any ∧ ps = [] := by
  generalize hcs : [] = cs at h
  cases h with
  | done o => exact ⟨rfl, rfl⟩
  | blank hc h => cases hcs
  | token hm hk he h =>
    obtain ⟨c, tail, rfl, -⟩ := hk.head
    cases hcs

theorem Laid.blank_inv {mode : Mode} {o : Nat} {c : Char} {cs : List Char} {ps : List Piece}
    (h : Laid mode o (c :: cs) ps) (hc : isBlank c = true) :
    mode = .any ∧ Laid .any (o + c.utf8Size) cs ps := by
  generalize hcs : c :: cs = all at h
  cases h with
  | done o => cases hcs
  | blank hc' h =>
    cases hcs
    exact ⟨rfl, h⟩
  | token hm hk he h =>
    obtain ⟨d, tail, rfl, hd⟩ := hk.head
    cases hcs
    rw [hc] at hd
    cases hd

/-- A text that starts with no blank starts with a token, and one behind dots as well. -/
theorem Laid.exists_token {mode : Mode} {o : Nat} {cs : List Char} {ps : List Piece}
    (h : Laid mode o cs ps) (hc : mode = .any → ∃ c tail, cs = c :: tail ∧ isBlank c = false) :
    ∃ k span rest more, cs = span ++ rest ∧ ps = ⟨⟨k, o⟩, span⟩ :: more ∧ k.StandsIn mode ∧
      k.Lexeme span ∧ k.EndsBefore rest ∧ Laid (.after k) (o + size span) rest more := by
  cases h with
  | done o =>
    obtain ⟨c, tail, heq, -⟩ := hc rfl
    cases heq
  | blank hblank h =>
    obtain ⟨c, tail, heq, hb⟩ := hc rfl
    cases heq
    rw [hb] at hblank
    cases hblank
  | token hm hk he h => exact ⟨_, _, _, _, rfl, rfl, hm, hk, he, h⟩

theorem Laid.token_inv {mode : Mode} {o : Nat} {k : Kind} {span cs : List Char} {ps : List Piece}
    {ts : List Token} (h : Laid mode o (span ++ cs) ps) (hk : k.Lexeme span)
    (hts : ps.map Piece.token = ⟨k, o⟩ :: ts) :
    ∃ more, ps = ⟨⟨k, o⟩, span⟩ :: more ∧ k.StandsIn mode ∧ k.EndsBefore cs ∧
      Laid (.after k) (o + size span) cs more := by
  have hfront : ∃ c tail, span ++ cs = c :: tail ∧ isBlank c = false := by
    obtain ⟨c, tail, rfl, hc⟩ := hk.head
    exact ⟨c, tail ++ cs, rfl, hc⟩
  obtain ⟨k', span', rest, more, heq, rfl, hm, hk', he, h⟩ := h.exists_token (fun _ => hfront)
  cases hts
  obtain rfl := hk.unique hk' heq
  obtain rfl := List.append_cancel_left heq
  exact ⟨more, rfl, hm, he, h⟩

/-- Whatever is scanned lies in the text that it is scanned from. -/
theorem scanFrom_laid {mode : Mode} {o : Nat} {cs : List Char} {s : TokenStream}
    (h : scanFrom mode o cs = .ok s) :
    ∃ ps, Laid mode o cs ps ∧ s = ⟨ps.map Piece.token, o + size cs⟩ := by
  induction mode, o, cs using scanFrom.induct generalizing s with
  | case1 o =>
    rw [scanFrom] at h
    cases h
    exact ⟨[], .done o, rfl⟩
  | case2 o | case3 o =>
    rw [scanFrom] at h
    cases h
  | case4 mode o c rest hb ih =>
    rw [scanFrom, if_pos hb] at h
    obtain ⟨ps, hps, rfl⟩ := ih h
    rw [hb.1]
    exact ⟨ps, .blank hb.2 hps, by simp [Nat.add_assoc]⟩
  | case5 mode o c rest hb fault i hone =>
    rw [scanFrom, if_neg hb, hone] at h
    cases h
  | case6 mode o c rest hb k n hone ih =>
    rw [scanFrom, if_neg hb, hone] at h
    obtain ⟨s', hs', rfl⟩ := map_eq_ok.mp h
    obtain ⟨ps, hps, rfl⟩ := ih hs'
    obtain ⟨tail, back, rfl, rfl, hm, hk, he⟩ := scanOne_sound mode c rest k n hone
    simp only [List.take_left, List.drop_left] at hps ⊢
    exact ⟨_, .token hm hk he hps, by simp [Nat.add_assoc]⟩

/-- Tokens that lie in a text are those that are scanned. -/
theorem Laid.scanFrom {mode : Mode} {o : Nat} {cs : List Char} {ps : List Piece}
    (h : Laid mode o cs ps) : scanFrom mode o cs = .ok ⟨ps.map Piece.token, o + size cs⟩ := by
  induction h with
  | done o => rw [Token.scanFrom]; rfl
  | blank hc h ih =>
    rw [Token.scanFrom, if_pos ⟨rfl, hc⟩, ih, size_cons, Nat.add_assoc]
  | @token mode k o span rest ps hm hk he h ih =>
    obtain ⟨c, tail, rfl, hc⟩ := hk.head
    have hblank : ¬ (mode = .any ∧ isBlank c = true) := by simp [hc]
    rw [List.cons_append, Token.scanFrom, if_neg hblank, scanOne_complete hm hk he]
    simp only [List.take_left, List.drop_left, ih]
    simp [Except.map, Nat.add_assoc]

theorem tokenize_laid {text : String} {s : TokenStream} (h : tokenize text = .ok s) :
    ∃ ps, Laid .any 0 text.toList ps ∧ s = ⟨ps.map Piece.token, text.utf8ByteSize⟩ := by
  obtain ⟨ps, hps, rfl⟩ := scanFrom_laid h
  exact ⟨ps, hps, by rw [Nat.zero_add, size_toList]⟩

/-- Spans that stand one behind another, each where its token does, in a text behind `o` bytes.
Around them are only blanks. -/
def Covers (o : Nat) (cs : List Char) : List Piece → Prop
  | [] => ∀ c ∈ cs, isBlank c = true
  | p :: ps => ∃ gap rest, cs = gap ++ p.span ++ rest ∧ (∀ c ∈ gap, isBlank c = true) ∧
      p.token.offset = o + size gap ∧ Covers p.stop rest ps

theorem Covers.blank {o : Nat} {c : Char} {cs : List Char} {ps : List Piece}
    (hc : isBlank c = true) (h : Covers (o + c.utf8Size) cs ps) : Covers o (c :: cs) ps := by
  cases ps with
  | nil => exact List.forall_mem_cons.mpr ⟨hc, h⟩
  | cons p ps =>
    obtain ⟨gap, rest, rfl, hgap, ho, h⟩ := h
    exact ⟨c :: gap, rest, rfl, List.forall_mem_cons.mpr ⟨hc, hgap⟩, by simp [ho, Nat.add_assoc], h⟩

theorem Laid.covers {mode : Mode} {o : Nat} {cs : List Char} {ps : List Piece}
    (h : Laid mode o cs ps) : Covers o cs ps := by
  induction h with
  | done o => simp [Covers]
  | blank hc h ih => exact ih.blank hc
  | token hm hk he h ih => exact ⟨[], _, rfl, by simp, rfl, ih⟩

theorem Laid.lexeme {mode : Mode} {o : Nat} {cs : List Char} {ps : List Piece}
    (h : Laid mode o cs ps) : ∀ p ∈ ps, p.token.kind.Lexeme p.span := by
  induction h with
  | done o => simp
  | blank hc h ih => exact ih
  | token hm hk he h ih => exact List.forall_mem_cons.mpr ⟨hk, ih⟩

/-- The end of the query is the mark of no character. -/
theorem Kind.Lexeme.ne_endOfQuery {k : Kind} {cs : List Char} (h : k.Lexeme cs) :
    k ≠ .endOfQuery := by
  rintro rfl
  obtain ⟨symbol, hs, -⟩ := h
  cases hs

/-- A text that starts with a parenthesis has it as its first token. -/
theorem Kind.Lexeme.openParen {k : Kind} {span rest tail : List Char} (hk : k.Lexeme span)
    (hm : k.StandsIn .any) (he : k.EndsBefore rest) (heq : span ++ rest = '(' :: tail) :
    k = .openParen := by
  obtain ⟨c, more, rfl, -⟩ := hk.head
  obtain ⟨rfl, -⟩ := List.cons.inj heq
  have hscan := scanAny_complete hm hk he
  exact (congrArg Prod.fst (Except.ok.inj hscan)).symm

/-- No blank follows dots or the name of a function. -/
theorem Laid.next {mode : Mode} {o : Nat} {cs : List Char} {ps : List Piece}
    (h : Laid mode o cs ps) {front back : List Piece} {p : Piece} (hps : ps = front ++ p :: back) :
    (p.token.kind = .dot ∨ p.token.kind = .doubleDot →
      ∃ q more, back = q :: more ∧ q.token.offset = p.stop) ∧
    ∀ name, p.token.kind = .function name →
      ∃ q more, back = q :: more ∧ q.token.offset = p.stop ∧ q.token.kind = .openParen := by
  induction h generalizing front with
  | done o => simp at hps
  | blank hc h ih => exact ih hps
  | @token mode k o span rest ps hm hk he h ih =>
    cases front with
    | cons p' front => exact ih (List.cons.inj hps).2
    | nil =>
      obtain ⟨rfl, rfl⟩ := List.cons.inj hps
      refine ⟨fun hdots => ?_, fun name hname => ?_⟩
      · have hmode : Mode.after k ≠ .any := by rcases hdots with rfl | rfl <;> simp [Mode.after]
        obtain ⟨k', span', rest', more, -, rfl, -⟩ := h.exists_token (fun hany => absurd hany hmode)
        exact ⟨_, more, rfl, rfl⟩
      · cases hname
        obtain ⟨tail, rfl⟩ := List.head?_eq_some_iff.mp he
        obtain ⟨k', span', rest', more, heq, rfl, hm', hk', he', -⟩ :=
          h.exists_token (fun _ => ⟨'(', tail, rfl, rfl⟩)
        exact ⟨_, more, rfl, rfl, hk'.openParen hm' he' heq.symm⟩

/-- Where covered tokens stand: in front of whole characters, and each behind those before it. -/
theorem Covers.split {o : Nat} {cs : List Char} {ps : List Piece} (h : Covers o cs ps) :
    ∀ p ∈ ps, ∃ front back, cs = front ++ p.span ++ back ∧ p.token.offset = o + size front := by
  induction ps generalizing o cs with
  | nil => simp
  | cons p ps ih =>
    obtain ⟨gap, rest, rfl, -, ho, h⟩ := h
    refine List.forall_mem_cons.mpr ⟨⟨gap, rest, rfl, ho⟩, fun q hq => ?_⟩
    obtain ⟨front, back, rfl, hq⟩ := ih h q hq
    refine ⟨gap ++ p.span ++ front, back, by simp, ?_⟩
    rw [hq, Piece.stop, ho, size_append, size_append]
    omega

theorem Kind.Lexeme.size_pos {k : Kind} {cs : List Char} (h : k.Lexeme cs) : 0 < size cs := by
  obtain ⟨c, tail, rfl, -⟩ := h.head
  have := c.utf8Size_pos
  rw [size_cons]
  omega

theorem Covers.increasing {o : Nat} {cs : List Char} {ps : List Piece} (h : Covers o cs ps)
    (hl : ∀ p ∈ ps, p.token.kind.Lexeme p.span) :
    (ps.map (fun p => p.token.offset) ++ [o + size cs]).Pairwise (· < ·) := by
  induction ps generalizing o cs with
  | nil => simp
  | cons p ps ih =>
    obtain ⟨gap, rest, rfl, -, ho, h⟩ := h
    obtain ⟨hp, hl⟩ := List.forall_mem_cons.mp hl
    have hpos := hp.size_pos
    have hend : o + size (gap ++ p.span ++ rest) = p.stop + size rest := by
      rw [Piece.stop, ho, size_append, size_append]
      omega
    rw [hend, List.map_cons, List.cons_append, List.pairwise_cons]
    refine ⟨fun n hn => ?_, ih h hl⟩
    rcases List.mem_append.mp hn with hn | hn
    · obtain ⟨q, hq, rfl⟩ := List.mem_map.mp hn
      obtain ⟨front, back, -, hq⟩ := h.split q hq
      rw [hq, Piece.stop]
      omega
    · rw [List.mem_singleton.mp hn, Piece.stop]
      omega

/-- Tokens start in front of whole characters, and the mark of the end is behind all of them. -/
theorem tokenize_isValid {text : String} {s : TokenStream} (h : tokenize text = .ok s) :
    ∀ t ∈ s.toList, (String.Pos.Raw.mk t.offset).IsValid text := by
  obtain ⟨ps, hps, rfl⟩ := tokenize_laid h
  simp only [TokenStream.toList, List.mem_append, List.mem_map, List.mem_singleton]
  rintro t (⟨p, hp, rfl⟩ | rfl)
  · obtain ⟨front, back, hsplit, ho⟩ := hps.covers.split p hp
    rw [ho, Nat.zero_add]
    exact isValid_size (hsplit.trans (List.append_assoc ..))
  · rw [← size_toList]
    exact isValid_size (List.append_nil _).symm

theorem tokenize_ne_endOfQuery {text : String} {s : TokenStream} (h : tokenize text = .ok s) :
    ∀ t ∈ s.tokens, t.kind ≠ .endOfQuery := by
  obtain ⟨ps, hps, rfl⟩ := tokenize_laid h
  intro t ht
  obtain ⟨p, hp, rfl⟩ := List.mem_map.mp ht
  exact (hps.lexeme p hp).ne_endOfQuery

/-- A text without tokens is left in front of one of its characters, or at its end. -/
theorem scanFrom_error {mode : Mode} {o : Nat} {cs : List Char} {e : Error}
    (h : scanFrom mode o cs = .error e) :
    ∃ front back, cs = front ++ back ∧ e.offset = o + size front := by
  induction mode, o, cs using scanFrom.induct with
  | case1 o =>
    rw [scanFrom] at h
    cases h
  | case2 o | case3 o =>
    rw [scanFrom] at h
    cases h
    exact ⟨[], [], rfl, rfl⟩
  | case4 mode o c rest hb ih =>
    rw [scanFrom, if_pos hb] at h
    obtain ⟨front, back, rfl, ho⟩ := ih h
    exact ⟨c :: front, back, rfl, by rw [ho, size_cons, Nat.add_assoc]⟩
  | case5 mode o c rest hb fault i hone =>
    rw [scanFrom, if_neg hb, hone] at h
    cases h
    exact ⟨_, _, (List.take_append_drop i _).symm, rfl⟩
  | case6 mode o c rest hb k n hone ih =>
    rw [scanFrom, if_neg hb, hone] at h
    obtain ⟨front, back, hsplit, ho⟩ := ih (map_eq_error.mp h)
    refine ⟨c :: rest.take n ++ front, back, ?_, by rw [ho, size_append, Nat.add_assoc]⟩
    rw [List.append_assoc, ← hsplit, List.cons_append, List.take_append_drop]

theorem tokenize_error_isValid {text : String} {e : Error} (h : tokenize text = .error e) :
    (String.Pos.Raw.mk e.offset).IsValid text := by
  obtain ⟨front, back, hsplit, ho⟩ := scanFrom_error h
  rw [ho, Nat.zero_add]
  exact isValid_size hsplit

/-- Tokens keep all of a text but its blanks. Each owns the characters that spell it, from its
offset on: the symbol of a kind that has one, the payload of a name, a number or a function, a
literal of a string. What follows dots or the name of a function stands right behind them. -/
theorem tokenize_spans {text : String} {s : TokenStream} (h : tokenize text = .ok s) :
    (s.toList.map Token.offset).Pairwise (· < ·) ∧
    (∀ t ∈ s.toList, (String.Pos.Raw.mk t.offset).IsValid text) ∧
    ∃ ps, s.toList = ps.map Piece.token ++ [⟨.endOfQuery, text.utf8ByteSize⟩] ∧
      Covers 0 text.toList ps ∧
      (∀ p ∈ ps, p.token.kind ≠ .endOfQuery ∧ p.token.kind.Lexeme p.span) ∧
      ∀ front p back, ps = front ++ p :: back →
        (p.token.kind = .dot ∨ p.token.kind = .doubleDot →
          ∃ q more, back = q :: more ∧ q.token.offset = p.stop) ∧
        ∀ name, p.token.kind = .function name →
          ∃ q more, back = q :: more ∧ q.token.offset = p.stop ∧ q.token.kind = .openParen := by
  refine ⟨?_, tokenize_isValid h, ?_⟩
  all_goals obtain ⟨ps, hps, rfl⟩ := tokenize_laid h
  · have hincreasing := hps.covers.increasing hps.lexeme
    rw [Nat.zero_add, size_toList] at hincreasing
    simpa [TokenStream.toList, Function.comp_def] using hincreasing
  · exact ⟨ps, rfl, hps.covers, fun p hp => ⟨(hps.lexeme p hp).ne_endOfQuery, hps.lexeme p hp⟩,
      fun front p back hsplit => hps.next hsplit⟩

theorem tokenize_spans_sample :
    tokenize "$.é [?f('\\u00e9')]" = .ok ⟨[⟨.root, 0⟩, ⟨.dot, 1⟩, ⟨.name "é", 2⟩,
      ⟨.openBracket, 5⟩, ⟨.question, 6⟩, ⟨.function "f", 7⟩, ⟨.openParen, 8⟩, ⟨.string "é", 9⟩,
      ⟨.closeParen, 17⟩, ⟨.closeBracket, 18⟩], 19⟩ ∧
    [0, 1, 2, 5, 6, 7, 8, 9, 17, 18, 19].Pairwise (· < ·) := by
  have htokens : tokenize "$.é [?f('\\u00e9')]" = .ok ⟨[⟨.root, 0⟩, ⟨.dot, 1⟩, ⟨.name "é", 2⟩,
      ⟨.openBracket, 5⟩, ⟨.question, 6⟩, ⟨.function "f", 7⟩, ⟨.openParen, 8⟩, ⟨.string "é", 9⟩,
      ⟨.closeParen, 17⟩, ⟨.closeBracket, 18⟩], 19⟩ := by cbv
  exact ⟨htokens, (tokenize_spans htokens).1⟩

end Token
end JsonQuery
