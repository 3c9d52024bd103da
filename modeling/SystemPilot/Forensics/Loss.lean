import SystemPilot.Forensics.Correlator
import SystemPilot.Library.Machine

/-!
# Losses and the reports they make incomplete

A loss carries no identity, so the correlator counts losses in an epoch that a
timeline remembers from its opening.  A loss that precedes the opening is
therefore not seen by the process, although it fell into its lifetime.
-/

set_option autoImplicit false

namespace SystemPilot.Forensics

open SystemPilot.Library

/-- A correlator with what it ingested, and for each identity how many events
had been ingested when its timeline was opened. -/
structure Observed where
  correlator : Correlator
  history : List KernelEvent
  openedAt : ProcessIdentity → Nat

/-- An event opens the timeline of its identity unless there is one. -/
def Observed.opensFor (state : Observed) (event : KernelEvent) (identity : ProcessIdentity) :
    Bool :=
  event.identity == some identity && decide (identity ∉ state.correlator.timelines)

def Observed.step (state : Observed) (event : KernelEvent) : Observed where
  correlator := state.correlator.step event
  history := state.history ++ [event]
  openedAt identity :=
    if state.opensFor event identity then state.history.length else state.openedAt identity

/-- The losses ingested since the timeline of an identity was opened. -/
def Observed.lossesSinceOpening (state : Observed) (identity : ProcessIdentity) : Nat :=
  (state.history.drop (state.openedAt identity)).countP KernelEvent.isLoss

/-- A loss of the run falls into the lifetime of a process that exits at `exitNs`. -/
def LossInLifetime (events : List KernelEvent) (identity : ProcessIdentity) (exitNs : Nat) :
    Prop :=
  ∃ loss ∈ events, loss.isLoss = true ∧ identity.startBoottimeNs ≤ loss.timestampNs ∧
    loss.timestampNs ≤ exitNs

/-- A process in whose lifetime a loss was ingested is reported with incomplete
evidence and at most medium confidence. -/
def LossRemembered (events : List KernelEvent) (state : Observed) (event : KernelEvent) : Prop :=
  ∀ identity exit, leaderExit identity event = some exit →
    LossInLifetime events identity exit.timestampNs →
    ∀ report, (state.correlator.ingest event).2 = .death report →
      report.evidenceIncomplete = true ∧ report.confidence.rank ≤ Confidence.medium.rank

/-- Such a process has a timeline, and losses were ingested since it was opened:
some, and not a multiple of the `2 ^ 64` the epoch counts. -/
def LossAfterOpening (events : List KernelEvent) (state : Observed) (event : KernelEvent) :
    Prop :=
  ∀ identity exit, leaderExit identity event = some exit →
    LossInLifetime events identity exit.timestampNs →
    identity ∈ state.correlator.timelines ∧ ¬2 ^ 64 ∣ state.lossesSinceOpening identity

/-- The epoch of a timeline lags behind by the losses since its opening. -/
structure Observed.Invariant (state : Observed) : Prop where
  epoch : state.correlator.telemetryLossEpoch < 2 ^ 64
  opened : ∀ identity timeline, state.correlator.timelines.lookup identity = some timeline →
    state.openedAt identity ≤ state.history.length ∧ timeline.lossEpochAtCreation < 2 ^ 64 ∧
      (timeline.lossEpochAtCreation + state.lossesSinceOpening identity) % 2 ^ 64 =
        state.correlator.telemetryLossEpoch

section Invariant

variable {state : Observed}

theorem invariant_new {config : CorrelatorConfig} {correlator : Correlator}
    (opened : Correlator.new config = some correlator) (openedAt : ProcessIdentity → Nat) :
    Observed.Invariant ⟨correlator, [], openedAt⟩ := by
  unfold Correlator.new at opened
  split at opened
  · cases opened
    exact ⟨Nat.two_pow_pos 64, fun identity timeline found => by cases found⟩
  · cases opened

/-- A timeline that stays open counts the losses as they come. -/
theorem lossesSinceOpening_step (event : KernelEvent) {identity : ProcessIdentity}
    (before : state.openedAt identity ≤ state.history.length)
    (stays : state.opensFor event identity = false) :
    (state.step event).lossesSinceOpening identity =
      state.lossesSinceOpening identity + if event.isLoss then 1 else 0 := by
  unfold Observed.lossesSinceOpening Observed.step
  simp only [stays, Bool.false_eq_true, if_false]
  rw [List.drop_append_of_le_length before, List.countP_append, List.countP_singleton]

/-- A timeline that is opened by an event of its own has seen no loss. -/
theorem lossesSinceOpening_open {event : KernelEvent} {identity : ProcessIdentity}
    (own : event.identity = some identity) (opens : state.opensFor event identity = true) :
    (state.step event).lossesSinceOpening identity = 0 := by
  unfold Observed.lossesSinceOpening Observed.step
  simp only [opens, if_true]
  rw [List.drop_left, List.countP_singleton, event.not_isLoss_of_identity own]
  rfl

theorem invariant_step (event : KernelEvent) (invariant : state.Invariant) :
    (state.step event).Invariant where
  epoch := by
    change (state.correlator.step event).telemetryLossEpoch < 2 ^ 64
    rw [step_epoch]
    split
    · exact Nat.mod_lt _ (by decide)
    · exact invariant.epoch
  opened := by
    intro identity timeline found
    change (state.correlator.step event).timelines.lookup identity = some timeline at found
    change _ ∧ _ ∧ _ = (state.correlator.step event).telemetryLossEpoch
    have grows : (state.step event).history.length = state.history.length + 1 := by
      simp [Observed.step]
    rcases step_lookup_cases state.correlator event identity with
      dropped | ⟨foreign, same⟩ | ⟨own, pushed⟩
    · rw [dropped] at found
      cases found
    · rw [same] at found
      obtain ⟨before, bound, counted⟩ := invariant.opened identity timeline found
      have stays : state.opensFor event identity = false := by
        simp [Observed.opensFor, foreign]
      have position : (state.step event).openedAt identity = state.openedAt identity := by
        simp [Observed.step, stays]
      rw [lossesSinceOpening_step event before stays, position, grows, step_epoch]
      refine ⟨by omega, bound, ?_⟩
      split
      · rw [← counted, ← Nat.add_assoc, Nat.mod_add_mod]
      · exact counted
    · rw [pushed] at found
      cases found
      have quiet := event.not_isLoss_of_identity own
      rw [step_epoch, quiet]
      change _ ∧ (state.correlator.timeline identity).lossEpochAtCreation < 2 ^ 64 ∧
        ((state.correlator.timeline identity).lossEpochAtCreation + _) % 2 ^ 64 = _
      cases held : state.correlator.timelines.lookup identity with
      | none =>
          have opens : state.opensFor event identity = true := by
            simp [Observed.opensFor, own, AList.lookup_eq_none.mp held]
          have position : (state.step event).openedAt identity = state.history.length := by
            simp [Observed.step, opens]
          have fresh : (state.correlator.timeline identity).lossEpochAtCreation =
              state.correlator.telemetryLossEpoch := by
            simp [Correlator.timeline, held]
          rw [lossesSinceOpening_open own opens, position, grows, fresh]
          exact ⟨by omega, invariant.epoch, Nat.mod_eq_of_lt invariant.epoch⟩
      | some timeline =>
          obtain ⟨before, bound, counted⟩ := invariant.opened identity timeline held
          have present : identity ∈ state.correlator.timelines :=
            AList.lookup_isSome.mp (by simp [held])
          have stays : state.opensFor event identity = false := by
            simp [Observed.opensFor, present]
          have position : (state.step event).openedAt identity = state.openedAt identity := by
            simp [Observed.step, stays]
          have same : (state.correlator.timeline identity).lossEpochAtCreation =
              timeline.lossEpochAtCreation := by
            simp [Correlator.timeline, held]
          rw [lossesSinceOpening_step event before stays, position, grows, same, quiet]
          exact ⟨by omega, bound, counted⟩

/-- A process is reported incomplete exactly when losses were counted since its
timeline was opened. -/
theorem lostSince_iff (invariant : state.Invariant) (identity : ProcessIdentity) :
    state.correlator.lostSince identity = true ↔
      identity ∈ state.correlator.timelines ∧ ¬2 ^ 64 ∣ state.lossesSinceOpening identity := by
  unfold Correlator.lostSince Correlator.timeline
  rw [bne_iff_ne]
  cases held : state.correlator.timelines.lookup identity with
  | none => simp [AList.lookup_eq_none.mp held]
  | some timeline =>
      obtain ⟨-, bound, counted⟩ := invariant.opened identity timeline held
      have present : identity ∈ state.correlator.timelines :=
        AList.lookup_isSome.mp (by simp [held])
      change timeline.lossEpochAtCreation ≠ _ ↔ _
      rw [← counted]
      simp only [present, true_and]
      omega

/-- The step lemma: a loss is remembered exactly when it follows the opening. -/
theorem lossRemembered_iff (events : List KernelEvent) (invariant : state.Invariant)
    (event : KernelEvent) :
    LossRemembered events state event ↔ LossAfterOpening events state event := by
  refine forall_congr' fun identity => forall_congr' fun exit => forall_congr' fun found =>
    forall_congr' fun _ => ?_
  rw [← lostSince_iff invariant]
  have outcome := outcome_of_leaderExit state.correlator found
  constructor
  · intro remembered
    exact (remembered _ outcome).1
  · intro lost report reported
    rw [outcome] at reported
    cases reported
    refine ⟨lost, ?_⟩
    rw [lost]
    exact Confidence.rank_min_medium _

end Invariant

/-- Over every run: a loss in the lifetime of a process always marks its report
exactly when the process has a timeline opened before a loss whenever it exits
after one. -/
theorem losses_remembered_iff (config : CorrelatorConfig) (correlator : Correlator)
    (opened : Correlator.new config = some correlator) (events : List KernelEvent) :
    Machine.EveryStep Observed.step (LossRemembered events) ⟨correlator, [], fun _ => 0⟩ events ↔
      Machine.EveryStep Observed.step (LossAfterOpening events) ⟨correlator, [], fun _ => 0⟩
        events :=
  Machine.everyStep_iff_of_invariant Observed.step Observed.Invariant (LossRemembered events)
    (LossAfterOpening events) (fun _ event invariant => invariant_step event invariant)
    (fun _ event invariant => lossRemembered_iff events invariant event)
    ⟨correlator, [], fun _ => 0⟩ events (invariant_new opened _)

theorem losses_remembered_iff_open :
    let events : List KernelEvent :=
      [.oomVictim 100 ⟨1200, 11⟩ 88 .memcg, .telemetryLoss 101 3,
        .processExit 102 ⟨1200, 11⟩ 1200 1 88 9 true]
    Machine.EveryStep Observed.step (LossRemembered events) ⟨⟨{}, ∅, [], 0⟩, [], fun _ => 0⟩
      events :=
  (losses_remembered_iff {} ⟨{}, ∅, [], 0⟩ rfl
    [.oomVictim 100 ⟨1200, 11⟩ 88 .memcg, .telemetryLoss 101 3,
      .processExit 102 ⟨1200, 11⟩ 1200 1 88 9 true]).mpr (by
      rw [Machine.everyStep_cons, Machine.everyStep_cons, Machine.everyStep_cons]
      refine ⟨?_, ?_, ?_, by simp [Machine.EveryStep, Machine.visited]⟩
      · intro identity exit found
        cases found
      · intro identity exit found
        cases found
      · intro identity exit found _
        obtain ⟨-, own⟩ := isDeath_of_leaderExit found
        cases own
        decide)

/-- The loss comes before the first event of the process, which is its exit. -/
theorem loss_before_first_event_is_forgotten :
    let events : List KernelEvent :=
      [.telemetryLoss 100 3, .processExit 101 ⟨1200, 11⟩ 1200 1 88 0 true]
    events.Pairwise (fun earlier later => earlier.timestampNs ≤ later.timestampNs) ∧
      (∃ report,
        ((Machine.run Correlator.step ⟨{}, ∅, [], 0⟩ [.telemetryLoss 100 3]).ingest
          (.processExit 101 ⟨1200, 11⟩ 1200 1 88 0 true)).2 = .death report ∧
          report.evidenceIncomplete = false ∧ report.confidence = .confirmed) ∧
      ¬Machine.EveryStep Observed.step (LossRemembered events) ⟨⟨{}, ∅, [], 0⟩, [], fun _ => 0⟩
        events := by
  intro events
  have found : leaderExit ⟨1200, 11⟩ (.processExit 101 ⟨1200, 11⟩ 1200 1 88 0 true) =
      some ⟨101, 88, 0⟩ := rfl
  have outcome := outcome_of_leaderExit
    (Machine.run Correlator.step ⟨{}, ∅, [], 0⟩ [.telemetryLoss 100 3]) found
  refine ⟨by decide, ⟨_, outcome, by decide, by decide⟩, ?_⟩
  intro every
  have last : LossRemembered events
      (Machine.run Observed.step ⟨⟨{}, ∅, [], 0⟩, [], fun _ => 0⟩ [.telemetryLoss 100 3])
      (.processExit 101 ⟨1200, 11⟩ 1200 1 88 0 true) :=
    every (_, .processExit 101 ⟨1200, 11⟩ 1200 1 88 0 true) (by
      rw [Machine.mem_visited_iff]
      exact ⟨[.telemetryLoss 100 3], [], rfl, rfl⟩)
  have marked := (last _ _ found ⟨.telemetryLoss 100 3, by decide, rfl, by decide, by decide⟩ _
    outcome).1
  revert marked
  decide

end SystemPilot.Forensics
