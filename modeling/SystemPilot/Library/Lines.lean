import Mathlib.Tactic

/-!
# Lines

A stream whose lines each end with a separator: where it is split, and what a cut of it
holds.
-/

set_option autoImplicit false

namespace SystemPilot.Library.Lines

variable {Item : Type}

/-- The item in front of the first line. -/
def push (item : Item) : List (List Item) × List Item → List (List Item) × List Item
  | ([], tail) => ([], item :: tail)
  | (line :: lines, tail) => ((item :: line) :: lines, tail)

/-- The stream of the lines, each with its separator. -/
def joined (separator : Item) (lines : List (List Item)) : List Item :=
  lines.flatMap fun line => line ++ [separator]

theorem joined_cons {separator : Item} (line : List Item) (lines : List (List Item)) :
    joined separator (line :: lines) = line ++ separator :: joined separator lines := by
  rw [joined, List.flatMap_cons, List.append_assoc]
  rfl

variable [DecidableEq Item]

/-- The lines that end in the stream, and the one that does not. -/
def splitLines (separator : Item) : List Item → List (List Item) × List Item
  | [] => ([], [])
  | item :: rest =>
      if item = separator then ([] :: (splitLines separator rest).1, (splitLines separator rest).2)
      else push item (splitLines separator rest)

section Split

variable {separator : Item}

theorem splitLines_separator (rest : List Item) :
    splitLines separator (separator :: rest) =
      ([] :: (splitLines separator rest).1, (splitLines separator rest).2) := by
  rw [splitLines, if_pos rfl]

theorem splitLines_other {item : Item} (other : item ≠ separator) (rest : List Item) :
    splitLines separator (item :: rest) = push item (splitLines separator rest) := by
  rw [splitLines, if_neg other]

theorem splitLines_tail {tail : List Item} (absent : separator ∉ tail) :
    splitLines separator tail = ([], tail) := by
  induction tail with
  | nil => rfl
  | cons item rest inductionHypothesis =>
      have other := List.ne_of_not_mem_cons absent
      rw [splitLines_other (Ne.symm other),
        inductionHypothesis (List.not_mem_of_not_mem_cons absent), push]

theorem splitLines_line {line : List Item} (absent : separator ∉ line) (rest : List Item) :
    splitLines separator (line ++ separator :: rest) =
      (line :: (splitLines separator rest).1, (splitLines separator rest).2) := by
  induction line with
  | nil => exact splitLines_separator rest
  | cons item line inductionHypothesis =>
      have other := List.ne_of_not_mem_cons absent
      rw [List.cons_append, splitLines_other (Ne.symm other),
        inductionHypothesis (List.not_mem_of_not_mem_cons absent), push]

theorem splitLines_joined {lines : List (List Item)}
    (absent : ∀ line ∈ lines, separator ∉ line) (rest : List Item) :
    splitLines separator (joined separator lines ++ rest) =
      (lines ++ (splitLines separator rest).1, (splitLines separator rest).2) := by
  induction lines with
  | nil => rfl
  | cons line lines inductionHypothesis =>
      rw [joined_cons, List.append_assoc, List.cons_append,
        splitLines_line (absent line (by simp)),
        inductionHypothesis fun other member => absent other (by simp [member])]
      rfl

/-- A cut of the stream holds the lines before it and the start of the next. -/
theorem splitLines_cut {lines : List (List Item)} {received : List Item}
    (absent : ∀ line ∈ lines, separator ∉ line) (cut : received <+: joined separator lines) :
    ∃ complete later, lines = complete ++ later ∧ (splitLines separator received).1 = complete ∧
      ((splitLines separator received).2 = [] ∨
        ∃ line ∈ later.head?, (splitLines separator received).2 <+: line) := by
  induction lines generalizing received with
  | nil =>
      have empty : received = [] := List.prefix_nil.mp cut
      rw [empty]
      exact ⟨[], [], rfl, rfl, .inl rfl⟩
  | cons line lines inductionHypothesis =>
      have here := absent line (by simp)
      rw [joined_cons] at cut
      rcases List.prefix_or_prefix_of_prefix cut (List.prefix_append line _) with short | past
      · -- the cut falls in front of the first separator
        have alone := splitLines_tail fun member => here (short.subset member)
        rw [alone]
        exact ⟨[], line :: lines, rfl, rfl, .inr ⟨line, rfl, short⟩⟩
      · obtain ⟨behind, rfl⟩ := past
        rcases List.prefix_cons_iff.mp ((List.prefix_append_right_inj line).mp cut) with
          rfl | ⟨rest, rfl, shorter⟩
        · rw [List.append_nil, splitLines_tail here]
          exact ⟨[], line :: lines, rfl, rfl, .inr ⟨line, rfl, List.prefix_refl line⟩⟩
        · obtain ⟨complete, later, split, ended, tail⟩ :=
            inductionHypothesis (fun other member => absent other (by simp [member])) shorter
          rw [splitLines_line here, split, ended]
          exact ⟨line :: complete, later, rfl, rfl, tail⟩

/-- Lines that arrived whole are split off, whatever follows. -/
theorem complete_of_arrived {complete lines : List (List Item)} {received : List Item}
    (absent : ∀ line ∈ complete, separator ∉ line)
    (arrived : joined separator complete <+: received)
    (ended : (splitLines separator received).1 = lines) : complete <+: lines := by
  obtain ⟨rest, rfl⟩ := arrived
  rw [← ended, splitLines_joined absent]
  exact List.prefix_append _ _

end Split

end SystemPilot.Library.Lines
