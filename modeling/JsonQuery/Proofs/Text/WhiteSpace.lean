import Mathlib.Data.List.Basic
import Mathlib.Data.List.TakeWhile
import JsonQuery.Proofs.Text.Read
import JsonQuery.Text.WhiteSpace

namespace JsonQuery

/-- A text of white space only. -/
def Gap (cs : List Char) : Prop := ∀ c ∈ cs, isWhiteSpace c = true

/-- A text without white space at its ends. -/
structure Bare (cs : List Char) : Prop where
  front : ∀ c, cs.head? = some c → isWhiteSpace c = false
  back : ∀ c, cs.getLast? = some c → isWhiteSpace c = false

theorem Gap.append {cs ds : List Char} (h : Gap cs) (h' : Gap ds) : Gap (cs ++ ds) :=
  fun c hc => (List.mem_append.mp hc).elim (h c) (h' c)

/-- A text of white space that starts with none is empty. -/
theorem Gap.eq_nil {cs : List Char} (h : Gap cs)
    (hf : ∀ c, cs.head? = some c → isWhiteSpace c = false) : cs = [] := by
  cases cs with
  | nil => rfl
  | cons c cs =>
    have hc := h c (by simp)
    rw [hf c rfl] at hc
    cases hc

theorem Gap.eq_nil_of_back {cs : List Char} (h : Gap cs)
    (hb : ∀ c, cs.getLast? = some c → isWhiteSpace c = false) : cs = [] := by
  have hreverse : Gap cs.reverse := fun c hc => h c (List.mem_reverse.mp hc)
  exact List.reverse_eq_nil_iff.mp
    (hreverse.eq_nil (fun c hc => hb c (by rwa [List.head?_reverse] at hc)))

theorem dropWhile_gap (cs : List Char) : ∃ front,
    cs = front ++ cs.dropWhile isWhiteSpace ∧ Gap front :=
  ⟨cs.takeWhile isWhiteSpace, List.takeWhile_append_dropWhile.symm,
    fun _ hc => List.mem_takeWhile_imp hc⟩

theorem head?_dropWhile {cs : List Char} {c : Char}
    (h : (cs.dropWhile isWhiteSpace).head? = some c) : isWhiteSpace c = false := by
  have := List.head?_dropWhile_not isWhiteSpace cs
  simpa [h] using this

theorem dropWhile_eq_trimmed_append (cs : List Char) : ∃ back,
    cs.dropWhile isWhiteSpace = trimmed cs ++ back ∧ Gap back := by
  obtain ⟨back, hback, hgap⟩ := dropWhile_gap (cs.dropWhile isWhiteSpace).reverse
  refine ⟨back.reverse, ?_, fun c hc => hgap c (List.mem_reverse.mp hc)⟩
  have hrest := congrArg List.reverse hback
  rwa [List.reverse_reverse, List.reverse_append] at hrest

/-- Trimming takes white space off the ends. -/
theorem trimmed_split (cs : List Char) :
    ∃ front back, cs = front ++ trimmed cs ++ back ∧ Gap front ∧ Gap back := by
  obtain ⟨front, hfront, hgap⟩ := dropWhile_gap cs
  obtain ⟨back, hback, hgap'⟩ := dropWhile_eq_trimmed_append cs
  exact ⟨front, back, by rwa [List.append_assoc, ← hback], hgap, hgap'⟩

theorem bare_trimmed (cs : List Char) : Bare (trimmed cs) := by
  constructor
  · intro c hc
    obtain ⟨back, hback, -⟩ := dropWhile_eq_trimmed_append cs
    have hhead : (cs.dropWhile isWhiteSpace).head? = some c := by
      rw [hback, List.head?_append, hc]
      rfl
    exact head?_dropWhile hhead
  · intro c hc
    rw [trimmed, List.getLast?_reverse] at hc
    exact head?_dropWhile hc

/-- What is bare is what trimming leaves of it among white space. -/
theorem trimmed_eq {front cs back : List Char} (hf : Gap front) (h : Bare cs)
    (hb : Gap back) : trimmed (front ++ cs ++ back) = cs := by
  by_cases hne : cs = []
  · subst hne
    have hall : Gap (front ++ back) := hf.append hb
    rw [List.append_nil, trimmed, List.dropWhile_eq_nil_iff.mpr hall]
    rfl
  · have hfront : (front ++ (cs ++ back)).dropWhile isWhiteSpace = cs ++ back := by
      refine (takeWhile_front hf (fun c hc => ?_)).2
      rw [List.head?_append_of_ne_nil _ hne] at hc
      exact h.front c hc
    have hback : (back.reverse ++ cs.reverse).dropWhile isWhiteSpace = cs.reverse := by
      refine (takeWhile_front (fun c hc => hb c (List.mem_reverse.mp hc)) (fun c hc => ?_)).2
      rw [List.head?_reverse] at hc
      exact h.back c hc
    rw [List.append_assoc, trimmed, hfront, List.reverse_append, hback, List.reverse_reverse]

end JsonQuery
