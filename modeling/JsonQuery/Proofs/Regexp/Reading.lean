import JsonQuery.Proofs.Regexp.Notation

namespace JsonQuery
namespace Engine

theorem upTo_length {stop : Char} {cs : List Char} {p : List Char × List Char}
    (h : upTo stop cs = some p) : p.2.length < cs.length := by
  have hle := length_dropWhile_le (· != stop) cs
  unfold upTo at h
  split at h
  · cases h
  · rename_i heq
    cases h
    rw [heq] at hle
    exact hle

theorem scanName_length {cs : List Char} {p : List Char × List Char}
    (h : scanName cs = some p) : p.2.length < cs.length := by
  unfold scanName at h
  split at h
  · cases h
  · split at h
    · exact Nat.lt_succ_of_lt (upTo_length h)
    · split at h <;> cases h
      exact Nat.lt_succ_self _

theorem scanHex_length {digits : Nat} {cs : List Char} {p : Char × List Char}
    (h : scanHex digits cs = some p) : p.2.length ≤ cs.length := by
  unfold scanHex at h
  split at h
  · obtain ⟨⟨ds, rest⟩, hbraces, h⟩ := Option.bind_eq_some_iff.mp h
    obtain ⟨c, -, rfl⟩ := Option.map_eq_some_iff.mp h
    have := upTo_length hbraces
    rw [List.length_drop] at this
    dsimp only at this ⊢
    omega
  · split at h
    · cases h
    · obtain ⟨c, -, rfl⟩ := Option.map_eq_some_iff.mp h
      simp

theorem scanEscape_length {cs : List Char} {p : Escape × List Char}
    (h : scanEscape cs = some p) : p.2.length < cs.length := by
  have hhex {digits : Nat} {rest : List Char} {p : Escape × List Char}
      (h : (scanHex digits rest).map (fun q => (Escape.literal q.1, q.2)) = some p) :
      p.2.length ≤ rest.length := by
    obtain ⟨q, hq, rfl⟩ := Option.map_eq_some_iff.mp h
    exact scanHex_length hq
  unfold scanEscape at h
  split at h
  · cases h
  · rename_i c rest
    refine Nat.lt_succ_of_le ?_
    split at h
    · obtain ⟨q, hq, rfl⟩ := Option.map_eq_some_iff.mp h
      exact Nat.le_of_lt (scanName_length hq)
    · split at h
      · exact hhex h
      · split at h
        · exact hhex h
        · split at h
          · exact hhex h
          · split at h
            · split at h <;> cases h <;> simp
            · split at h
              · cases h; simp
              · split at h <;> cases h
                simp

theorem scanGreed_length (low : Nat) (high : Option Nat) (cs : List Char) :
    (scanGreed low high cs).2.length ≤ cs.length := by
  unfold scanGreed
  split <;> simp

theorem scanBounds_length {cs : List Char} {p : (Nat × Option Nat) × List Char}
    (h : scanBounds cs = some p) : p.2.length < cs.length := by
  have hle := length_dropWhile_le Char.isDigit cs
  simp only [scanBounds] at h
  split at h
  · cases h
  · split at h
    · rename_i heq
      cases h
      rw [heq] at hle
      exact hle
    · rename_i rest heq
      have hle' := length_dropWhile_le Char.isDigit rest
      rw [heq] at hle
      split at h <;> cases h
      rename_i heq'
      rw [heq'] at hle'
      simp at hle hle' ⊢
      omega
    · cases h

theorem scanFlags_length {cs : List Char} {p : Lexeme × List Char}
    (h : scanFlags cs = some p) : p.2.length < cs.length := by
  have hle := length_dropWhile_le (fun c => flagChars.contains c) cs
  simp only [scanFlags] at h
  split at h
  · rename_i heq
    cases h
    rw [heq] at hle
    exact hle
  · rename_i heq
    split at h <;> cases h
    rw [heq] at hle
    exact hle
  · cases h

theorem scanGroup_length {cs : List Char} {p : Lexeme × List Char}
    (h : scanGroup cs = some p) : p.2.length ≤ cs.length := by
  unfold scanGroup at h
  split at h
  · obtain ⟨q, hq, rfl⟩ := Option.map_eq_some_iff.mp h
    have := upTo_length hq
    simp
    omega
  · split at h
    · cases h
    · obtain ⟨q, hq, rfl⟩ := Option.map_eq_some_iff.mp h
      have := upTo_length hq
      simp
      omega
  · exact Nat.le_succ_of_le (Nat.le_of_lt (scanFlags_length h))
  · cases h
    simp

theorem scanOpenClass_length (cs : List Char) : (scanOpenClass cs).2.length ≤ cs.length := by
  have hle (cs : List Char) := length_dropWhile_le (· == '-') cs
  simp only [scanOpenClass]
  split <;> split <;> simp <;> grind

theorem scan_length {cs : List Char} {p : Lexeme × List Char} (h : scan cs = some p) :
    p.2.length < cs.length := by
  unfold scan at h
  split at h
  · cases h
  · refine Nat.lt_succ_of_le ?_
    split at h
    · exact scanGroup_length h
    · cases h; simp
    · cases h; simp
    · cases h; exact scanOpenClass_length _
    · cases h; exact scanGreed_length _ _ _
    · cases h; exact scanGreed_length _ _ _
    · cases h; exact scanGreed_length _ _ _
    · obtain ⟨q, hq, rfl⟩ := Option.map_eq_some_iff.mp h
      exact Nat.le_trans (scanGreed_length _ _ _) (Nat.le_of_lt (scanBounds_length hq))
    · obtain ⟨q, hq, rfl⟩ := Option.map_eq_some_iff.mp h
      exact Nat.le_of_lt (scanEscape_length hq)
    all_goals cases h; simp

theorem scanAscii_length {cs : List Char} {p : CharSet × List Char}
    (h : scanAscii cs = some p) : p.2.length ≤ cs.length := by
  simp only [scanAscii] at h
  split at h
  · obtain ⟨a, -, rfl⟩ := Option.map_eq_some_iff.mp h
    split <;> simp only [List.length_drop] <;> omega
  · cases h

theorem scanItem_length {cs : List Char} {p : Escape × List Char}
    (h : scanItem cs = some p) : p.2.length < cs.length := by
  unfold scanItem at h
  split at h
  · cases h
  · split at h
    · exact Nat.lt_succ_of_lt (scanEscape_length h)
    · cases h
      simp

theorem scanRange_length {low : Escape} {cs : List Char} {p : Lexeme × List Char}
    (h : scanRange low cs = some p) : p.2.length ≤ cs.length := by
  unfold scanRange at h
  split at h
  · split at h
    · obtain ⟨s, -, rfl⟩ := Option.map_eq_some_iff.mp h
      exact Nat.le_refl _
    · split at h
      · rename_i hhigh
        cases h
        exact Nat.le_succ_of_le (Nat.le_of_lt (scanItem_length hhigh))
      · cases h
  · obtain ⟨s, -, rfl⟩ := Option.map_eq_some_iff.mp h
    exact Nat.le_refl _

theorem scanMember_length {cs : List Char} {p : Lexeme × List Char}
    (h : scanMember cs = some p) : p.2.length < cs.length := by
  obtain ⟨q, hq, h⟩ := Option.bind_eq_some_iff.mp h
  exact Nat.lt_of_le_of_lt (scanRange_length h) (scanItem_length hq)

theorem scanInClass_length {cs : List Char} {p : Lexeme × List Char}
    (h : scanInClass cs = some p) : p.2.length < cs.length := by
  unfold scanInClass at h
  split at h
  · cases h
  · cases h; simp
  · refine Nat.lt_succ_of_le ?_
    split at h
    · rename_i hascii
      cases h
      exact scanAscii_length hascii
    · cases h
      exact scanOpenClass_length _
  · cases h; simp only [List.length_cons]; omega
  · cases h; simp only [List.length_cons]; omega
  · cases h; simp only [List.length_cons]; omega
  · exact scanMember_length h

/-- A class that is not closed: what stands before the last operation, and the members behind. -/
structure OpenClass where
  negated : Bool
  left : Option (SetOp × CharSet)
  members : CharSet

namespace OpenClass

def add (c : OpenClass) (s : CharSet) : OpenClass := { c with members := .union c.members s }

/-- The members, combined with what stands before them. Operations are done from left to right. -/
def combined (c : OpenClass) : CharSet :=
  match c.left with
  | some (op, s) => .operation op s c.members
  | none => c.members

def set (c : OpenClass) : CharSet := c.combined.complementIf c.negated

end OpenClass

/-- A group that is read, or the whole text: the alternatives so far, and the parts of the one in
progress. The last come first. -/
structure Frame where
  branches : List Pattern
  parts : List Pattern

namespace Frame

def empty : Frame := ⟨[], []⟩

def push (f : Frame) (e : Pattern) : Frame := { f with parts := e :: f.parts }

def sequence (parts : List Pattern) : Pattern := parts.foldl (fun e p => .concat p e) .empty

def pattern (f : Frame) : Pattern :=
  f.branches.foldl (fun e b => .alternation b e) (sequence f.parts)

end Frame

/-- What has been read: the classes that are open, the frame in progress, and the frames around it
with the kinds of the groups that are open in them. The innermost comes first. -/
structure State where
  classes : List OpenClass
  frame : Frame
  outer : List (GroupKind × Frame)

namespace State

def start : State := ⟨[], .empty, []⟩

def push (s : State) (e : Pattern) : State := { s with frame := s.frame.push e }

def step (s : State) : Lexeme → Option State
  | .pattern e => some (s.push e)
  | .repetition low high greedy =>
    match s.frame.parts with
    | [] | .flags _ :: _ => none
    | e :: parts =>
      some { s with frame := ⟨s.frame.branches, .repetition low high greedy e :: parts⟩ }
  | .openGroup kind => some { s with frame := .empty, outer := (kind, s.frame) :: s.outer }
  | .closeGroup =>
    match s.outer with
    | [] => none
    | (kind, around) :: outer =>
      some { s with frame := around.push (.group kind s.frame.pattern), outer := outer }
  | .bar =>
    some { s with frame := ⟨Frame.sequence s.frame.parts :: s.frame.branches, []⟩ }
  | .openClass negated front =>
    some { s with classes := ⟨negated, none, .ofChars front⟩ :: s.classes }
  | .member m =>
    match s.classes with
    | [] => none
    | c :: cs => some { s with classes := c.add m :: cs }
  | .operation op =>
    match s.classes with
    | [] => none
    | c :: cs => some { s with classes := ⟨c.negated, some (op, c.combined), .empty⟩ :: cs }
  | .closeClass =>
    match s.classes with
    | [] => none
    | [c] => some { s with classes := [], frame := s.frame.push (.set c.set) }
    | c :: around :: cs => some { s with classes := around.add c.set :: cs }

/-- The next lexeme, which depends on whether a class is open. -/
def scan (s : State) (cs : List Char) : Option (Lexeme × List Char) :=
  if s.classes.isEmpty then Engine.scan cs else scanInClass cs

/-- The expression, if nothing is left open. -/
def finish (s : State) : Option Pattern :=
  if s.classes.isEmpty ∧ s.outer.isEmpty then some s.frame.pattern else none

theorem scan_length {s : State} {cs : List Char} {p : Lexeme × List Char}
    (h : s.scan cs = some p) : p.2.length < cs.length := by
  unfold scan at h
  split at h
  · exact Engine.scan_length h
  · exact scanInClass_length h

/-- Reads the rest of a text. -/
def read (s : State) (cs : List Char) : Option Pattern :=
  if cs.isEmpty then s.finish
  else
    match h : s.scan cs with
    | none => none
    | some (l, rest) =>
      have := scan_length h
      (s.step l).bind (fun s' => s'.read rest)
  termination_by cs.length
  decreasing_by exact this

end State

/-- The expression that a text spells in the notation of the engine. -/
def read (cs : List Char) : Option Pattern := State.start.read cs

end Engine
end JsonQuery
