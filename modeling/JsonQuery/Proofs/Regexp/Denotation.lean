import JsonQuery.Proofs.Regexp.Grammar
import JsonQuery.Proofs.Regexp.Language
import JsonQuery.Proofs.Regexp.Reading

namespace JsonQuery
namespace Engine
open Regexp (oneOf repeated)

section Meaning

-- The characters with a property, by its name; `none` if there is no such property.
variable (properties : List Char → Option (Set Char))

namespace CharSet

def members? : CharSet → Option (Set Char)
  | .empty => some ∅
  | .single c => some {c}
  | .range low high => some {c | low ≤ c ∧ c ≤ high}
  | .property name => properties name
  | .union a b => do return (← a.members?) ∪ (← b.members?)
  | .operation .intersection a b => do return (← a.members?) ∩ (← b.members?)
  | .operation .difference a b => do return (← a.members?) \ (← b.members?)
  | .operation .symmetricDifference a b => do
    let left ← a.members?
    let right ← b.members?
    return left \ right ∪ right \ left
  | .complement a => a.members?.map compl

end CharSet

namespace Pattern

/-- The texts that an expression matches as a whole, where no flag has been set. What asserts
something about its surroundings, sets flags or gives a group a name is left out. -/
def language? : Pattern → Option (Language Char)
  | .empty => some 1
  | .literal c => some {[c]}
  | .dot => some (oneOf {'\n'}ᶜ)
  | .set s => (s.members? properties).map oneOf
  | .assertion _ | .flags _ => none
  | .repetition low high _ e => e.language?.map (repeated low high)
  | .group (.plain fs) e => if fs.isEmpty then e.language? else none
  | .group .numbered e => e.language?
  | .group (.named _) _ => none
  | .concat a b => do return (← a.language?) * (← b.language?)
  | .alternation a b => do return (← a.language?) + (← b.language?)

end Pattern
end Meaning

namespace CharSet

/-- The ends of ranges are in order. -/
def isValid : CharSet → Bool
  | .range low high => low ≤ high
  | .union a b | .operation _ a b => a.isValid && b.isValid
  | .complement a => a.isValid
  | .empty | .single _ | .property _ => true

end CharSet

namespace Pattern

/-- What an engine asks of an expression that it can read, limits on its size apart: bounds have 32
bits, and bounds and ranges are in order. -/
def isValid : Pattern → Bool
  | .repetition low high _ e =>
    low < 2 ^ 32 && high.all (fun m => m < 2 ^ 32 && low ≤ m) && e.isValid
  | .set s => s.isValid
  | .group _ e => e.isValid
  | .concat a b | .alternation a b => a.isValid && b.isValid
  | .empty | .literal _ | .dot | .assertion _ | .flags _ => true

end Pattern

/-- A table of properties has the general categories under their short names. -/
def KnowsCategories (properties : List Char → Option (Set Char)) : Prop :=
  ∀ p ∈ Regexp.Property.all, properties p.name = some p.members

/-- A library of regular expressions: the properties that it knows, the texts that are too large
for it or nested too deep, and what a text matches as a whole, if it is compiled. -/
structure Library where
  properties : List Char → Option (Set Char)
  exceeds : List Char → Prop
  compile : List Char → Option (Language Char)

/-- A library does what is documented: it knows the categories, it compiles what it should, and
what it compiles has the documented meaning. -/
structure Library.Documented (L : Library) : Prop where
  categories : KnowsCategories L.properties
  compiles : ∀ {cs e l}, read cs = some e → e.language? L.properties = some l → e.isValid = true →
    ¬ L.exceeds cs → L.compile cs = some l
  means : ∀ {cs e l}, read cs = some e → e.language? L.properties = some l →
    ∀ m ∈ L.compile cs, m = l

/-- The table that has the categories and no other properties. -/
def categories (name : List Char) : Option (Set Char) :=
  (Regexp.Property.ofName? name).map Regexp.Property.members

namespace Library

/-- A library that does just what is documented, and has no limits. -/
def unlimited : Library where
  properties := categories
  exceeds _ := False
  compile cs := (read cs).bind (fun e => if e.isValid then e.language? categories else none)

theorem unlimited_documented : unlimited.Documented where
  categories p hp := by
    simp [unlimited, Engine.categories, Regexp.Property.ofName?_name p hp]
  compiles hread hlanguage hvalid _ := by
    simpa [unlimited, hread, hvalid] using hlanguage
  means hread hlanguage m hm := by
    simp only [unlimited, hread, Option.bind_some] at hm hlanguage
    split at hm
    · rw [hlanguage] at hm
      exact (Option.some.inj hm).symm
    · cases hm

end Library

namespace Frame

section Meaning

variable (properties : List Char → Option (Set Char))

/-- The texts that parts match one behind the other, the last of them first in the list. -/
def partsLanguage? : List Pattern → Option (Language Char)
  | [] => some 1
  | p :: ps => do return (← partsLanguage? ps) * (← p.language? properties)

/-- The texts that some branch matches. -/
def branchesLanguage? : List Pattern → Option (Language Char)
  | [] => some 0
  | b :: bs => do return (← branchesLanguage? bs) + (← b.language? properties)

theorem language?_foldl_concat (ps : List Pattern) (e : Pattern) :
    (ps.foldl (fun e p => .concat p e) e).language? properties =
      (do return (← partsLanguage? properties ps) * (← e.language? properties)) := by
  induction ps generalizing e with
  | nil => cases h : e.language? properties <;> simp [partsLanguage?, h]
  | cons p ps ih =>
    rw [List.foldl_cons, ih]
    cases hps : partsLanguage? properties ps <;> cases hp : p.language? properties <;>
      cases he : e.language? properties <;>
      simp [partsLanguage?, Pattern.language?, hps, hp, he, mul_assoc]

theorem language?_foldl_alternation (bs : List Pattern) (e : Pattern) :
    (bs.foldl (fun e b => .alternation b e) e).language? properties =
      (do return (← branchesLanguage? properties bs) + (← e.language? properties)) := by
  induction bs generalizing e with
  | nil => cases h : e.language? properties <;> simp [branchesLanguage?, h]
  | cons b bs ih =>
    rw [List.foldl_cons, ih]
    cases hbs : branchesLanguage? properties bs <;> cases hb : b.language? properties <;>
      cases he : e.language? properties <;>
      simp [branchesLanguage?, Pattern.language?, hbs, hb, he, add_assoc]

theorem language?_sequence (ps : List Pattern) :
    (sequence ps).language? properties = partsLanguage? properties ps := by
  rw [sequence, language?_foldl_concat]
  cases h : partsLanguage? properties ps <;> simp [Pattern.language?]

/-- An expression is one of the branches, the parts in progress being the last. -/
theorem language?_pattern {f : Frame} {branches parts : Language Char}
    (hb : branchesLanguage? properties f.branches = some branches)
    (hp : partsLanguage? properties f.parts = some parts) :
    f.pattern.language? properties = some (branches + parts) := by
  rw [pattern, language?_foldl_alternation, language?_sequence, hb, hp]
  rfl

end Meaning

theorem isValid_foldl {join : Pattern → Pattern → Pattern}
    (hjoin : ∀ p e, (join p e).isValid = (p.isValid && e.isValid)) (ps : List Pattern)
    (e : Pattern) :
    (ps.foldl (fun e p => join p e) e).isValid = (ps.all Pattern.isValid && e.isValid) := by
  induction ps generalizing e with
  | nil => rfl
  | cons p ps ih =>
    rw [List.foldl_cons, ih, List.all_cons, hjoin]
    ac_rfl

theorem isValid_sequence (ps : List Pattern) : (sequence ps).isValid = ps.all Pattern.isValid := by
  rw [sequence, isValid_foldl (fun _ _ => Pattern.isValid.eq_def _), Pattern.isValid, Bool.and_true]

theorem isValid_pattern (f : Frame) :
    f.pattern.isValid = (f.branches.all Pattern.isValid && f.parts.all Pattern.isValid) := by
  rw [pattern, isValid_foldl (fun _ _ => Pattern.isValid.eq_def _), isValid_sequence]

end Frame
end Engine
end JsonQuery
