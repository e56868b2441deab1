import JsonQuery.Text.Read

namespace JsonQuery

theorem bind_ok {ε α β : Type} {x : Except ε α} {f : α → Except ε β} {b : β} :
    (x >>= f) = .ok b ↔ ∃ a, x = .ok a ∧ f a = .ok b := by
  cases x with
  | error e => simp [bind, Except.bind]
  | ok a => simp [bind, Except.bind]

theorem pure_ok {ε α : Type} {a b : α} : (pure a : Except ε α) = .ok b ↔ a = b := by
  simp [pure, Except.pure]

theorem map_eq_ok {ε α β : Type} {x : Except ε α} {f : α → β} {b : β} :
    x.map f = .ok b ↔ ∃ a, x = .ok a ∧ f a = b := by
  cases x <;> simp [Except.map]

theorem map_eq_error {ε α β : Type} {x : Except ε α} {f : α → β} {e : ε} :
    x.map f = .error e ↔ x = .error e := by
  cases x <;> simp [Except.map]

/-- The front of a list up to the first element that does not belong to it. -/
theorem takeWhile_front {α : Type} {p : α → Bool} {front rest : List α}
    (h : ∀ a ∈ front, p a = true) (hr : ∀ a, rest.head? = some a → p a = false) :
    (front ++ rest).takeWhile p = front ∧ (front ++ rest).dropWhile p = rest := by
  rw [List.takeWhile_append_of_pos h, List.dropWhile_append_of_pos h]
  cases rest with
  | nil => simp
  | cons a rest => simp [hr a rfl]

theorem takeWhile_stop {α : Type} {p : α → Bool} {front : List α} {stop : α}
    (h : ∀ a ∈ front, p a = true) (hstop : p stop = false) (rest : List α) :
    (front ++ stop :: rest).takeWhile p = front ∧
      (front ++ stop :: rest).dropWhile p = stop :: rest :=
  takeWhile_front h (by simpa using hstop)

/-- A text that goes on behind its longest front without a character holds that character next. -/
theorem eq_of_dropWhile_ne {stop c : Char} {cs rest : List Char}
    (h : cs.dropWhile (· != stop) = c :: rest) :
    c = stop ∧ cs = cs.takeWhile (· != stop) ++ stop :: rest := by
  have hstop : c = stop := by
    have := List.head?_dropWhile_not (· != stop) cs
    simpa [h] using this
  refine ⟨hstop, ?_⟩
  calc cs = cs.takeWhile (· != stop) ++ cs.dropWhile (· != stop) :=
        List.takeWhile_append_dropWhile.symm
    _ = cs.takeWhile (· != stop) ++ stop :: rest := by rw [h, hstop]

end JsonQuery
