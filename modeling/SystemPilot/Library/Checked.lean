import Mathlib.Tactic

/-!
# Checked operations

Operations on positions and slices of a program that stops at the first one that
fails, and the loop of a scanner that reads on from one position to a later one.
Positions are the unsigned integers of a 64-bit machine.
-/

set_option autoImplicit false

namespace SystemPilot.Library.Checked

inductive Fault where
  | slice
  | expect
  | overflow
  deriving DecidableEq, Repr

def positionBound : Nat := 2 ^ 64

/-! ## Operations -/

section Operations

variable {α : Type}

/-- `left + right`. -/
def add (left right : Nat) : Except Fault Nat :=
  if left + right < positionBound then .ok (left + right) else .error .overflow

/-- `left.checked_add(right)`. -/
def checkedAdd (left right : Nat) : Option Nat :=
  if left + right < positionBound then some (left + right) else none

/-- `left.saturating_add(right)`. -/
def saturatingAdd (left right : Nat) : Nat :=
  min (left + right) (positionBound - 1)

/-- `-value` of a 32-bit integer. -/
def negate (value : Int) : Except Fault Int :=
  if value = -2 ^ 31 then .error .overflow else .ok (-value)

/-- `items.get(start..stop)`. -/
def get (items : List α) (start stop : Nat) : Option (List α) :=
  if start ≤ stop ∧ stop ≤ items.length then some ((items.drop start).take (stop - start))
  else none

/-- `items[start..stop]`. -/
def slice (items : List α) (start stop : Nat) : Except Fault (List α) :=
  match get items start stop with
  | some part => .ok part
  | none => .error .slice

/-- `value.expect(..)`. -/
def expect (value : Option α) : Except Fault α :=
  match value with
  | some present => .ok present
  | none => .error .expect

theorem ok_bind {β : Type} (value : α) (next : α → Except Fault β) :
    (Except.ok value >>= next) = next value :=
  rfl

theorem add_ok {left right : Nat} (fits : left + right < positionBound) :
    add left right = .ok (left + right) :=
  if_pos fits

theorem checkedAdd_some {left right : Nat} (fits : left + right < positionBound) :
    checkedAdd left right = some (left + right) :=
  if_pos fits

theorem saturatingAdd_eq {left right : Nat} (fits : left + right < positionBound) :
    saturatingAdd left right = left + right :=
  min_eq_left (by omega)

theorem get_some {items : List α} {start stop : Nat} (ordered : start ≤ stop)
    (inside : stop ≤ items.length) :
    get items start stop = some ((items.drop start).take (stop - start)) :=
  if_pos ⟨ordered, inside⟩

theorem get_none {items : List α} {start stop : Nat} (outside : items.length < stop) :
    get items start stop = none :=
  if_neg fun bounds => by omega

theorem slice_ok {items : List α} {start stop : Nat} (ordered : start ≤ stop)
    (inside : stop ≤ items.length) :
    slice items start stop = .ok ((items.drop start).take (stop - start)) := by
  unfold slice
  rw [get_some ordered inside]

theorem length_slice {items : List α} {start stop : Nat} (inside : stop ≤ items.length) :
    ((items.drop start).take (stop - start)).length = stop - start := by
  rw [List.length_take, List.length_drop]
  omega

end Operations

/-! ## Scanners -/

/-- What one pass through a scanner's body does. -/
inductive Step (α : Type) where
  | stop (made : List α)
  | next (made : List α) (position : Nat)
  deriving DecidableEq, Repr

/-- A body that goes on only from a position well inside the input, and only to
one at least `stride` further. -/
structure Scanner (α : Type) where
  body : Nat → Except Fault (Step α)
  limit : Nat
  stride : Nat
  positive : 0 < stride
  advances : ∀ {position next : Nat} {made : List α},
    body position = .ok (.next made next) → position + stride ≤ limit ∧ position + stride ≤ next

namespace Scanner

variable {α : Type} (scanner : Scanner α)

/-- Everything made from a position on. -/
def run (position : Nat) : Except Fault (List α) :=
  match _pass : scanner.body position with
  | .error fault => .error fault
  | .ok (.stop made) => .ok made
  | .ok (.next made next) => (made ++ ·) <$> run next
termination_by scanner.limit - position
decreasing_by
  have positive := scanner.positive
  have advances := scanner.advances _pass
  omega

theorem run_stop {position : Nat} {made : List α}
    (pass : scanner.body position = .ok (.stop made)) : scanner.run position = .ok made := by
  rw [run]
  split
  · rename_i fault failed
    rw [pass] at failed
    contradiction
  · rename_i stopped
    rw [pass] at stopped
    injection stopped with stopped
    injection stopped with stopped
    rw [stopped]
  · rename_i went
    rw [pass] at went
    injection went with went
    contradiction

theorem run_error {position : Nat} {fault : Fault}
    (pass : scanner.body position = .error fault) : scanner.run position = .error fault := by
  rw [run]
  split
  · rename_i failed
    rw [pass] at failed
    injection failed with failed
    rw [failed]
  · rename_i stopped
    rw [pass] at stopped
    contradiction
  · rename_i went
    rw [pass] at went
    contradiction

theorem run_next {position next : Nat} {made : List α}
    (pass : scanner.body position = .ok (.next made next)) :
    scanner.run position = (made ++ ·) <$> scanner.run next := by
  rw [run]
  split
  · rename_i fault failed
    rw [pass] at failed
    contradiction
  · rename_i stopped
    rw [pass] at stopped
    injection stopped with stopped
    contradiction
  · rename_i went
    rw [pass] at went
    injection went with went
    injection went with same later
    rw [same, later]

/-- The body goes on at least so many times. -/
inductive Passes : Nat → Nat → Prop where
  | last {position : Nat} : Passes position 0
  | more {position next count : Nat} {made : List α}
      (pass : scanner.body position = .ok (.next made next)) (rest : Passes next count) :
      Passes position (count + 1)

/-- A run goes on at most once for each stride of the input. -/
theorem Passes.bounded {position count : Nat} (passes : scanner.Passes position count) :
    scanner.stride * count ≤ scanner.limit - position := by
  induction passes with
  | last => simp
  | more pass rest inductionHypothesis =>
      have advances := scanner.advances pass
      rw [Nat.mul_add, Nat.mul_one]
      omega

end Scanner

end SystemPilot.Library.Checked
