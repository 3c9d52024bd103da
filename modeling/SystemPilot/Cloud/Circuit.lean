import SystemPilot.Library.Machine

/-!
# The delivery circuit

The circuit of the two delivery workers, in the loop that asks it before each lease
and tells it the outcome of each job.  Times are nanoseconds of a clock that does not
run backwards: a turn says how far the clock went, not what it shows.
-/

set_option autoImplicit false

namespace SystemPilot.Cloud

open SystemPilot.Library.Machine

structure DeliveryCircuit where
  failures : Nat := 0
  openedAt : Option Nat := none
  deriving DecidableEq, Repr

namespace DeliveryCircuit

def failureLimit : Nat := 5

def cooldown : Nat := 30 * 10 ^ 9

/-- `is_open` at a time: the answer and the circuit it leaves. -/
def isOpen (circuit : DeliveryCircuit) (now : Nat) : Bool × DeliveryCircuit :=
  let circuit : DeliveryCircuit :=
    if circuit.openedAt.any fun opened => cooldown ≤ now - opened then
      { failures := 0, openedAt := none }
    else circuit
  (circuit.openedAt.isSome, circuit)

/-- `record` at a time; `failures` is a saturating `u8`. -/
def record (circuit : DeliveryCircuit) (now : Nat) (success : Bool) : DeliveryCircuit :=
  if success then { failures := 0, openedAt := none }
  else
    let failures := min (circuit.failures + 1) 255
    if failureLimit ≤ failures then { failures, openedAt := some now }
    else { circuit with failures }

end DeliveryCircuit

open DeliveryCircuit

/-- What `lease` gives a turn, and how its job ends. -/
inductive Lease where
  | job (success : Bool)
  | nothing
  | failed
  deriving DecidableEq, Repr

/-- One pass through the loop: how long the clock went on before the circuit is
asked, and from there until the outcome of a job is recorded. -/
structure Turn where
  waited : Nat
  lease : Lease
  took : Nat

structure Outcome where
  time : Nat
  success : Bool
  deriving DecidableEq, Repr

/-- The worker between two turns, with every outcome it recorded. -/
structure Worker where
  circuit : DeliveryCircuit := {}
  now : Nat
  outcomes : List Outcome := []

/-- When a turn asks the circuit. -/
def Worker.asks (worker : Worker) (turn : Turn) : Nat := worker.now + turn.waited

/-- The body of the loop. -/
def Worker.step (worker : Worker) (turn : Turn) : Worker :=
  let asked := worker.asks turn
  let (opened, circuit) := worker.circuit.isOpen asked
  if opened then { worker with circuit, now := asked }
  else
    match turn.lease with
    | .job success =>
        let recorded := asked + turn.took
        { circuit := circuit.record recorded success
          now := recorded
          outcomes := worker.outcomes ++ [{ time := recorded, success }] }
    | .nothing => { worker with circuit, now := asked }
    | .failed => { worker with circuit, now := asked }

/-! ## Streaks -/

/-- Failures in a row, and when the last outcome was recorded. -/
structure Streak where
  failures : Nat := 0
  last : Nat := 0

/-- A success ends a streak, and so does the cooldown behind a streak that reached
the limit. -/
def Streak.next (streak : Streak) (outcome : Outcome) : Streak where
  failures :=
    if outcome.success then 0
    else if failureLimit ≤ streak.failures ∧ streak.last + cooldown ≤ outcome.time then 1
    else streak.failures + 1
  last := outcome.time

/-- The failures since the last success or expired cooldown. -/
def streak (outcomes : List Outcome) : Streak := outcomes.foldl Streak.next {}

/-- The streak reached the limit, and its last failure is younger than the cooldown. -/
def Tripped (outcomes : List Outcome) (now : Nat) : Prop :=
  failureLimit ≤ (streak outcomes).failures ∧ now < (streak outcomes).last + cooldown

instance (outcomes : List Outcome) (now : Nat) : Decidable (Tripped outcomes now) :=
  inferInstanceAs (Decidable (_ ∧ _))

@[simp] theorem streak_concat (outcomes : List Outcome) (outcome : Outcome) :
    streak (outcomes ++ [outcome]) = (streak outcomes).next outcome := by
  rw [streak, List.foldl_append]
  rfl

/-! ## Outcomes of an untripped circuit -/

/-- Outcomes in the order of their times, each recorded while the circuit was not
tripped. -/
inductive Spaced : List Outcome → Prop where
  | nil : Spaced []
  | concat {outcomes : List Outcome} {outcome : Outcome} (spaced : Spaced outcomes)
      (later : (streak outcomes).last ≤ outcome.time)
      (untripped : ¬ Tripped outcomes outcome.time) : Spaced (outcomes ++ [outcome])

theorem Spaced.time_le {outcomes : List Outcome} (spaced : Spaced outcomes) :
    ∀ outcome ∈ outcomes, outcome.time ≤ (streak outcomes).last := by
  induction spaced with
  | nil => exact List.forall_mem_nil _
  | @concat outcomes outcome spaced later untripped ih =>
      intro other member
      rw [streak_concat]
      change other.time ≤ outcome.time
      rcases List.mem_append.mp member with old | new
      · exact (ih other old).trans later
      · rw [List.mem_singleton.mp new]

/-- The outcomes of a window. -/
def within (first last : Nat) (outcomes : List Outcome) : List Outcome :=
  outcomes.filter fun outcome => first ≤ outcome.time ∧ outcome.time ≤ last

theorem within_concat_in {first last : Nat} {outcome : Outcome} (outcomes : List Outcome)
    (inside : first ≤ outcome.time ∧ outcome.time ≤ last) :
    within first last (outcomes ++ [outcome]) = within first last outcomes ++ [outcome] := by
  rw [within, List.filter_append, List.filter_singleton, decide_eq_true inside]
  rfl

theorem within_concat_out {first last : Nat} {outcome : Outcome} (outcomes : List Outcome)
    (outside : ¬ (first ≤ outcome.time ∧ outcome.time ≤ last)) :
    within first last (outcomes ++ [outcome]) = within first last outcomes := by
  rw [within, List.filter_append, List.filter_singleton, decide_eq_false outside]
  exact List.append_nil _

/-- A window that opens behind the last outcome is empty. -/
theorem Spaced.within_eq_nil {outcomes : List Outcome} (spaced : Spaced outcomes)
    {first last : Nat} (before : (streak outcomes).last < first) :
    within first last outcomes = [] := by
  rw [within, List.filter_eq_nil_iff]
  intro outcome member inside
  have earlier := spaced.time_le outcome member
  have started := (of_decide_eq_true inside).1
  omega

/-- The outcomes of a short window without a success: no more than the limit, and
while the window lasts no more than the streak. -/
theorem Spaced.within_le {outcomes : List Outcome} (spaced : Spaced outcomes) {first last : Nat}
    (short : last < first + cooldown)
    (failing : ∀ outcome ∈ within first last outcomes, outcome.success = false) :
    (within first last outcomes).length ≤ failureLimit ∧
      ((streak outcomes).last ≤ last →
        (within first last outcomes).length ≤ (streak outcomes).failures) := by
  induction spaced with
  | nil => exact ⟨Nat.zero_le _, fun _ => Nat.zero_le _⟩
  | @concat outcomes outcome spaced later untripped ih =>
      by_cases inside : first ≤ outcome.time ∧ outcome.time ≤ last
      · rw [within_concat_in outcomes inside] at failing ⊢
        obtain ⟨limited, streaked⟩ := ih fun other member =>
          failing other (List.mem_append_left _ member)
        have failed : outcome.success = false := failing outcome (by simp)
        have streaked := streaked (by omega)
        rw [streak_concat, List.length_append, List.length_singleton]
        by_cases expired : failureLimit ≤ (streak outcomes).failures ∧
            (streak outcomes).last + cooldown ≤ outcome.time
        · -- the cooldown is longer than the window, which begins with this outcome
          have alone : within first last outcomes = [] := spaced.within_eq_nil (by omega)
          have next : ((streak outcomes).next outcome).failures = 1 := by
            rw [Streak.next, failed, if_neg Bool.false_ne_true, if_pos expired]
          rw [alone, next]
          exact ⟨by decide, fun _ => le_rfl⟩
        · have next : ((streak outcomes).next outcome).failures =
              (streak outcomes).failures + 1 := by
            rw [Streak.next, failed, if_neg Bool.false_ne_true, if_neg expired]
          have below : (streak outcomes).failures < failureLimit := by
            by_contra reached
            have reached := not_lt.mp reached
            exact untripped ⟨reached, not_le.mp fun cooled => expired ⟨reached, cooled⟩⟩
          rw [next]
          omega
      · rw [within_concat_out outcomes inside] at failing ⊢
        obtain ⟨limited, streaked⟩ := ih failing
        rw [streak_concat]
        refine ⟨limited, ?_⟩
        intro early
        change outcome.time ≤ last at early
        rw [spaced.within_eq_nil (show (streak outcomes).last < first by omega)]
        exact Nat.zero_le _

/-! ## The circuit follows the streak -/

/-- What the circuit holds of a streak: its length below the limit, the time of its
last failure from there on, and nothing once the cooldown is found to have expired. -/
inductive DeliveryCircuit.Follows (circuit : DeliveryCircuit) (streak : Streak) (now : Nat) : Prop
    where
  | counting (closed : circuit.openedAt = none) (counted : circuit.failures = streak.failures)
      (below : streak.failures < failureLimit)
  | opened (since : circuit.openedAt = some streak.last)
      (reached : failureLimit ≤ streak.failures)
  | expired (closed : circuit.openedAt = none) (reset : circuit.failures = 0)
      (reached : failureLimit ≤ streak.failures) (cooled : streak.last + cooldown ≤ now)

namespace DeliveryCircuit

variable {circuit : DeliveryCircuit} {now : Nat}

theorem isOpen_none (closed : circuit.openedAt = none) : circuit.isOpen now = (false, circuit) := by
  rw [isOpen, closed]
  simp [closed]

theorem isOpen_young {opened : Nat} (since : circuit.openedAt = some opened)
    (young : now < opened + cooldown) (after : opened ≤ now) :
    circuit.isOpen now = (true, circuit) := by
  have early : ¬ cooldown ≤ now - opened := by omega
  rw [isOpen, since]
  simp [early, since]

theorem isOpen_old {opened : Nat} (since : circuit.openedAt = some opened)
    (old : opened + cooldown ≤ now) : circuit.isOpen now = (false, {}) := by
  have late : cooldown ≤ now - opened := by omega
  rw [isOpen, since]
  simp [late]

end DeliveryCircuit

section Follows

variable {circuit : DeliveryCircuit} {outcomes : List Outcome} {now asked : Nat}

/-- `is_open` answers whether the streak tripped the circuit. -/
theorem isOpen_iff (follows : circuit.Follows (streak outcomes) now) (passed : now ≤ asked)
    (past : (streak outcomes).last ≤ now) :
    (circuit.isOpen asked).1 = true ↔ Tripped outcomes asked := by
  unfold Tripped
  cases follows with
  | counting closed counted below =>
      rw [isOpen_none closed]
      exact ⟨fun answer => absurd answer Bool.false_ne_true, fun tripped => by omega⟩
  | opened since reached =>
      by_cases young : asked < (streak outcomes).last + cooldown
      · rw [isOpen_young since young (past.trans passed)]
        exact ⟨fun _ => ⟨reached, young⟩, fun _ => rfl⟩
      · rw [isOpen_old since (not_lt.mp young)]
        exact ⟨fun answer => absurd answer Bool.false_ne_true, fun tripped => absurd tripped.2 young⟩
  | expired closed reset reached cooled =>
      rw [isOpen_none closed]
      exact ⟨fun answer => absurd answer Bool.false_ne_true, fun tripped => by omega⟩

theorem follows_isOpen (follows : circuit.Follows (streak outcomes) now) (passed : now ≤ asked)
    (past : (streak outcomes).last ≤ now) :
    (circuit.isOpen asked).2.Follows (streak outcomes) asked := by
  cases follows with
  | counting closed counted below =>
      rw [isOpen_none closed]
      exact .counting closed counted below
  | opened since reached =>
      by_cases young : asked < (streak outcomes).last + cooldown
      · rw [isOpen_young since young (past.trans passed)]
        exact .opened since reached
      · rw [isOpen_old since (not_lt.mp young)]
        exact .expired rfl rfl reached (not_lt.mp young)
  | expired closed reset reached cooled =>
      rw [isOpen_none closed]
      exact .expired closed reset reached (cooled.trans passed)

/-- A closed circuit that records an outcome follows the longer streak. -/
theorem follows_record (follows : circuit.Follows (streak outcomes) now)
    (closed : circuit.openedAt = none) {recorded : Nat} (passed : now ≤ recorded) (success : Bool) :
    (circuit.record recorded success).Follows
      (streak (outcomes ++ [{ time := recorded, success }])) recorded := by
  rw [streak_concat]
  cases success with
  | true => exact .counting rfl rfl (Nat.zero_lt_succ 4)
  | false =>
      cases follows with
      | counting _ counted below =>
          have next : ((streak outcomes).next ⟨recorded, false⟩).failures =
              circuit.failures + 1 := by
            rw [Streak.next, if_neg Bool.false_ne_true, if_neg (by omega), counted]
          have small : min (circuit.failures + 1) 255 = circuit.failures + 1 :=
            min_eq_left (by rw [failureLimit] at below; omega)
          rw [record, if_neg Bool.false_ne_true, small]
          by_cases reached : failureLimit ≤ circuit.failures + 1
          · rw [if_pos reached]
            exact .opened rfl (next ▸ reached)
          · rw [if_neg reached]
            exact .counting closed next.symm (next ▸ not_le.mp reached)
      | opened since => rw [closed] at since; cases since
      | expired _ reset reached cooled =>
          have next : ((streak outcomes).next ⟨recorded, false⟩).failures = 1 := by
            rw [Streak.next, if_neg Bool.false_ne_true, if_pos ⟨reached, cooled.trans passed⟩]
          rw [record, if_neg Bool.false_ne_true, reset]
          exact .counting closed next.symm (next ▸ by decide)

end Follows

/-! ## Runs of a worker -/

/-- The worker's circuit follows what it recorded. -/
structure Worker.Sound (worker : Worker) : Prop where
  spaced : Spaced worker.outcomes
  past : (streak worker.outcomes).last ≤ worker.now
  follows : worker.circuit.Follows (streak worker.outcomes) worker.now

/-- `is_open` answers a turn of a sound worker as its outcomes say. -/
theorem Worker.Sound.isOpen_iff {worker : Worker} (sound : worker.Sound) (turn : Turn) :
    (worker.circuit.isOpen (worker.asks turn)).1 = true ↔
      Tripped worker.outcomes (worker.asks turn) :=
  Cloud.isOpen_iff sound.follows (Nat.le_add_right _ _) sound.past

theorem Worker.Sound.step {worker : Worker} (sound : worker.Sound) (turn : Turn) :
    (worker.step turn).Sound := by
  have passed : worker.now ≤ worker.asks turn := Nat.le_add_right _ _
  have answer := sound.isOpen_iff turn
  have follows := follows_isOpen sound.follows passed sound.past
  have closed : (worker.circuit.isOpen (worker.asks turn)).1 = false →
      (worker.circuit.isOpen (worker.asks turn)).2.openedAt = none := by
    simp [DeliveryCircuit.isOpen]
  rw [Worker.step]
  generalize worker.circuit.isOpen (worker.asks turn) = asked at answer follows closed ⊢
  obtain ⟨opened, circuit⟩ := asked
  have same : Worker.Sound { worker with circuit, now := worker.asks turn } :=
    ⟨sound.spaced, sound.past.trans passed, follows⟩
  cases opened with
  | true => exact same
  | false =>
      cases leased : turn.lease with
      | nothing => exact same
      | failed => exact same
      | job success =>
          have recorded : worker.asks turn ≤ worker.asks turn + turn.took := Nat.le_add_right _ _
          refine ⟨sound.spaced.concat ((sound.past.trans passed).trans recorded) ?_, ?_,
            follows_record follows (closed rfl) recorded success⟩
          · intro tripped
            exact Bool.false_ne_true (answer.mpr ⟨tripped.1, recorded.trans_lt tripped.2⟩)
          · change (streak (worker.outcomes ++ [{ time := worker.asks turn + turn.took, success }])).last ≤
              worker.asks turn + turn.took
            rw [streak_concat]
            exact le_rfl

theorem sound_start (now : Nat) : Worker.Sound { now } :=
  ⟨.nil, Nat.zero_le _, .counting rfl rfl (Nat.zero_lt_succ 4)⟩

/-- In every run of a worker, a window shorter than the cooldown without a success
holds at most five outcomes; and at every turn `is_open` answers whether there were
five failures since the last success or expired cooldown, the last of them younger than the
cooldown. -/
theorem circuit_limits_failures (start : Nat) (turns : List Turn) :
    (∀ first last, last < first + cooldown →
      (∀ outcome ∈ within first last (run Worker.step { now := start } turns).outcomes,
        outcome.success = false) →
      (within first last (run Worker.step { now := start } turns).outcomes).length ≤ 5) ∧
    EveryStep Worker.step (fun worker turn =>
      (worker.circuit.isOpen (worker.asks turn)).1 = true ↔
        Tripped worker.outcomes (worker.asks turn)) { now := start } turns := by
  constructor
  · intro first last short failing
    have sound := run_invariant_always Worker.step Worker.Sound
      (fun worker turn sound => sound.step turn) { now := start } turns (sound_start start)
    exact (sound.spaced.within_le short failing).1
  · exact everyStep_of_invariant Worker.step Worker.Sound (fun _ _ => True) _
      (fun worker turn sound _ => sound.step turn)
      (fun worker turn sound _ => sound.isOpen_iff turn) { now := start } turns
      (sound_start start) (fun _ _ => trivial)

end SystemPilot.Cloud
