namespace JsonQuery

theorem length_dropWhile_le {α : Type} (p : α → Bool) (xs : List α) :
    (xs.dropWhile p).length ≤ xs.length := (List.dropWhile_sublist p).length_le

grind_pattern length_dropWhile_le => xs.dropWhile p

/-- What a reader took off the front of a list, and the rest, which is shorter than the bound. -/
structure Read (α τ : Type) (bound : Nat) where
  value : α
  rest : List τ
  below : rest.length < bound

namespace Read

theorem length_rest_lt {α τ : Type} {bound : Nat} (r : Read α τ bound) :
    r.rest.length < bound := r.below

grind_pattern length_rest_lt => r.rest

abbrev of {α τ : Type} {bound : Nat} (value : α) (rest : List τ)
    (below : rest.length < bound := by grind -abstractProof) : Read α τ bound := ⟨value, rest, below⟩

end Read
end JsonQuery
