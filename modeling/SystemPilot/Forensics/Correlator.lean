import Mathlib.Data.List.AList
import SystemPilot.Forensics.Classifier

/-!
# The correlator

`Correlator::ingest`: one bounded timeline for each process identity, evicted in
the order of insertion and removed when the group leader exits.  The hash map is
an association list with distinct keys, since its order is never observed.  The
lemmas say what one ingestion does to the timeline of the event's own identity
and to the others.
-/

set_option autoImplicit false

namespace SystemPilot.Forensics

structure CorrelatorConfig where
  maxProcesses : Nat := 16384
  maxEventsPerProcess : Nat := 16
  deriving DecidableEq, Repr

inductive IngestOutcome where
  | accepted
  | death (report : DeathReport)
  | ignored
  deriving DecidableEq, Repr

structure Timeline where
  events : List KernelEvent
  lossEpochAtCreation : Nat
  deriving DecidableEq, Repr

/-- The timelines by identity. -/
abbrev Timelines := AList (fun _ : ProcessIdentity => Timeline)

structure Correlator where
  config : CorrelatorConfig
  timelines : Timelines
  insertionOrder : List ProcessIdentity
  telemetryLossEpoch : Nat

/-- `Correlator::new`, with the assertion on the bounds. -/
def Correlator.new (config : CorrelatorConfig) : Option Correlator :=
  if 0 < config.maxProcesses ∧ 0 < config.maxEventsPerProcess then some ⟨config, ∅, [], 0⟩
  else none

/-- The loop of `ensure_capacity`: identities are popped until one of them still
has a timeline. -/
def evictOldest (timelines : Timelines) : List ProcessIdentity → Timelines × List ProcessIdentity
  | [] => (timelines, [])
  | evicted :: rest =>
      if evicted ∈ timelines then (timelines.erase evicted, rest) else evictOldest timelines rest

namespace Correlator

def ensureCapacity (correlator : Correlator) (identity : ProcessIdentity) : Correlator :=
  if identity ∈ correlator.timelines ∨
      correlator.timelines.keys.length < correlator.config.maxProcesses then
    correlator
  else
    let (timelines, insertionOrder) :=
      evictOldest correlator.timelines correlator.insertionOrder
    { correlator with timelines, insertionOrder }

/-- The timeline `entry(identity).or_insert_with(…)` gives. -/
def timeline (correlator : Correlator) (identity : ProcessIdentity) : Timeline :=
  (correlator.timelines.lookup identity).getD ⟨[], correlator.telemetryLossEpoch⟩

/-- The insertion order after `entry(identity).or_insert_with(…)`. -/
def orderWith (correlator : Correlator) (identity : ProcessIdentity) : List ProcessIdentity :=
  if identity ∈ correlator.timelines then correlator.insertionOrder
  else correlator.insertionOrder ++ [identity]

end Correlator

/-- What a full ring keeps of its events before the next is pushed. -/
def Timeline.kept (maxEvents : Nat) (timeline : Timeline) : List KernelEvent :=
  if timeline.events.length = maxEvents then timeline.events.tail else timeline.events

def Timeline.push (maxEvents : Nat) (event : KernelEvent) (timeline : Timeline) : Timeline :=
  { timeline with events := timeline.kept maxEvents ++ [event] }

namespace Correlator

/-- The part of `ingest` after the identity is known. -/
def record (correlator : Correlator) (identity : ProcessIdentity) (event : KernelEvent) :
    Correlator × IngestOutcome :=
  let room := correlator.ensureCapacity identity
  let timeline := (room.timeline identity).push room.config.maxEventsPerProcess event
  let stored := room.timelines.insert identity timeline
  let insertionOrder := room.orderWith identity
  if !event.isDeath then
    ({ room with timelines := stored, insertionOrder }, .accepted)
  else
    ({ room with timelines := stored.erase identity, insertionOrder },
      match classify identity timeline.events
          (timeline.lossEpochAtCreation != room.telemetryLossEpoch) with
      | some report => .death report
      | none => .ignored)

/-- `Correlator::ingest`; the epoch is a `u64` that wraps around. -/
def ingest (correlator : Correlator) (event : KernelEvent) : Correlator × IngestOutcome :=
  match event.identity with
  | none =>
      ({ correlator with
          telemetryLossEpoch :=
            if event.isLoss then (correlator.telemetryLossEpoch + 1) % 2 ^ 64
            else correlator.telemetryLossEpoch },
        .accepted)
  | some identity => correlator.record identity event

/-- The correlator as a machine over kernel events. -/
def step (correlator : Correlator) (event : KernelEvent) : Correlator :=
  (correlator.ingest event).1

end Correlator

/-! ## Making room -/

section Capacity

variable {identity : ProcessIdentity}

theorem evictOldest_lookup (timelines : Timelines) (order : List ProcessIdentity)
    (identity : ProcessIdentity) :
    (evictOldest timelines order).1.lookup identity = timelines.lookup identity ∨
      (evictOldest timelines order).1.lookup identity = none := by
  induction order with
  | nil => exact Or.inl rfl
  | cons evicted rest inductionHypothesis =>
      unfold evictOldest
      split
      · by_cases same : identity = evicted
        · exact Or.inr (by rw [same]; exact AList.lookup_erase _ _)
        · exact Or.inl (AList.lookup_erase_ne same)
      · exact inductionHypothesis

variable (correlator : Correlator)

@[simp] theorem ensureCapacity_config :
    (correlator.ensureCapacity identity).config = correlator.config := by
  unfold Correlator.ensureCapacity
  split <;> rfl

@[simp] theorem ensureCapacity_epoch :
    (correlator.ensureCapacity identity).telemetryLossEpoch = correlator.telemetryLossEpoch := by
  unfold Correlator.ensureCapacity
  split <;> rfl

theorem ensureCapacity_lookup (identity other : ProcessIdentity) :
    (correlator.ensureCapacity identity).timelines.lookup other =
        correlator.timelines.lookup other ∨
      (correlator.ensureCapacity identity).timelines.lookup other = none := by
  unfold Correlator.ensureCapacity
  split
  · exact Or.inl rfl
  · exact evictOldest_lookup correlator.timelines correlator.insertionOrder other

/-- Making room for an identity leaves its own timeline, or its absence. -/
theorem ensureCapacity_lookup_self :
    (correlator.ensureCapacity identity).timelines.lookup identity =
      correlator.timelines.lookup identity := by
  by_cases present : identity ∈ correlator.timelines
  · unfold Correlator.ensureCapacity
    rw [if_pos (Or.inl present)]
  · have absent := AList.lookup_eq_none.mpr present
    rcases ensureCapacity_lookup correlator identity identity with kept | removed
    · exact kept
    · rw [removed, absent]

theorem ensureCapacity_of_room
    (room : identity ∈ correlator.timelines ∨
      correlator.timelines.keys.length < correlator.config.maxProcesses) :
    correlator.ensureCapacity identity = correlator :=
  if_pos room

@[simp] theorem timeline_ensureCapacity :
    (correlator.ensureCapacity identity).timeline identity = correlator.timeline identity := by
  unfold Correlator.timeline
  rw [ensureCapacity_lookup_self, ensureCapacity_epoch]

end Capacity

/-! ## One ingestion -/

section Ingest

variable (correlator : Correlator) {identity : ProcessIdentity} {event : KernelEvent}

theorem ingest_of_identity (own : event.identity = some identity) :
    correlator.ingest event = correlator.record identity event := by
  unfold Correlator.ingest
  rw [own]

/-- A loss touches the epoch only. -/
theorem step_of_no_identity (about : event.identity = none) :
    correlator.step event =
      { correlator with
        telemetryLossEpoch :=
          if event.isLoss then (correlator.telemetryLossEpoch + 1) % 2 ^ 64
          else correlator.telemetryLossEpoch } := by
  unfold Correlator.step Correlator.ingest
  rw [about]

theorem outcome_of_no_identity (about : event.identity = none) :
    (correlator.ingest event).2 = .accepted := by
  unfold Correlator.ingest
  rw [about]

theorem outcome_of_alive (alive : event.isDeath = false) :
    (correlator.ingest event).2 = .accepted := by
  cases about : event.identity with
  | none => exact outcome_of_no_identity correlator about
  | some identity =>
      rw [ingest_of_identity correlator about]
      simp [Correlator.record, alive]

/-- The timeline of an identity once the event is pushed. -/
def Correlator.pushed (correlator : Correlator) (identity : ProcessIdentity)
    (event : KernelEvent) : Timeline :=
  (correlator.timeline identity).push correlator.config.maxEventsPerProcess event

/-- What the ring of an identity keeps when its next event arrives. -/
def Correlator.kept (correlator : Correlator) (identity : ProcessIdentity) : List KernelEvent :=
  (correlator.timeline identity).kept correlator.config.maxEventsPerProcess

/-- A loss was counted since the timeline was opened. -/
def Correlator.lostSince (correlator : Correlator) (identity : ProcessIdentity) : Bool :=
  (correlator.timeline identity).lossEpochAtCreation != correlator.telemetryLossEpoch

@[simp] theorem step_config : (correlator.step event).config = correlator.config := by
  cases about : event.identity with
  | none => rw [step_of_no_identity correlator about]
  | some identity =>
      rw [Correlator.step, ingest_of_identity correlator about]
      unfold Correlator.record
      dsimp only
      split <;> exact ensureCapacity_config correlator

theorem step_epoch :
    (correlator.step event).telemetryLossEpoch =
      if event.isLoss then (correlator.telemetryLossEpoch + 1) % 2 ^ 64
      else correlator.telemetryLossEpoch := by
  cases about : event.identity with
  | none => rw [step_of_no_identity correlator about]
  | some identity =>
      rw [event.not_isLoss_of_identity about, Correlator.step, ingest_of_identity correlator about]
      unfold Correlator.record
      dsimp only
      split <;> exact ensureCapacity_epoch correlator

theorem step_lookup_self (own : event.identity = some identity) :
    (correlator.step event).timelines.lookup identity =
      if event.isDeath then none else some (correlator.pushed identity event) := by
  rw [Correlator.step, ingest_of_identity correlator own]
  unfold Correlator.record Correlator.pushed
  dsimp only
  rw [timeline_ensureCapacity, ensureCapacity_config]
  cases death : event.isDeath with
  | true => simp
  | false => simp

theorem step_lookup_other (own : event.identity = some identity) {other : ProcessIdentity}
    (distinct : other ≠ identity) :
    (correlator.step event).timelines.lookup other =
      (correlator.ensureCapacity identity).timelines.lookup other := by
  rw [Correlator.step, ingest_of_identity correlator own]
  unfold Correlator.record
  dsimp only
  split
  · exact AList.lookup_insert_ne distinct
  · exact (AList.lookup_erase_ne distinct).trans (AList.lookup_insert_ne distinct)

/-- A step keeps, pushes to or drops a timeline. -/
theorem step_lookup_cases (event : KernelEvent) (identity : ProcessIdentity) :
    (correlator.step event).timelines.lookup identity = none ∨
      (event.identity ≠ some identity ∧
        (correlator.step event).timelines.lookup identity =
          correlator.timelines.lookup identity) ∨
      (event.identity = some identity ∧
        (correlator.step event).timelines.lookup identity =
          some (correlator.pushed identity event)) := by
  cases about : event.identity with
  | none =>
      refine Or.inr (Or.inl ⟨nofun, ?_⟩)
      rw [step_of_no_identity correlator about]
  | some owner =>
      by_cases same : identity = owner
      · subst same
        have after := step_lookup_self correlator about
        split at after
        · exact Or.inl after
        · exact Or.inr (Or.inr ⟨rfl, after⟩)
      · rw [step_lookup_other correlator about same]
        rcases ensureCapacity_lookup correlator owner identity with kept | removed
        · exact Or.inr (Or.inl ⟨fun equal => same (Option.some.inj equal).symm, kept⟩)
        · exact Or.inl removed

/-- A leader's exit is always reported, from the events its timeline keeps. -/
theorem outcome_of_leaderExit {exit : LeaderExit}
    (found : leaderExit identity event = some exit) :
    (correlator.ingest event).2 =
      .death (exitReport identity exit (correlator.kept identity)
        (correlator.lostSince identity)) := by
  obtain ⟨death, own⟩ := isDeath_of_leaderExit found
  rw [ingest_of_identity correlator own]
  unfold Correlator.record Timeline.push
  dsimp only
  rw [timeline_ensureCapacity, ensureCapacity_config, ensureCapacity_epoch, death,
    classify_concat_exit found]
  rfl

end Ingest

end SystemPilot.Forensics
