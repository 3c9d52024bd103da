import Mathlib.Data.List.DropRight
import SystemPilot.Forensics.Correlator
import SystemPilot.Library.Machine

/-!
# The unbounded correlator

What the bounded timeline store approximates: a correlator that never evicts a
timeline and never drops an event of one.  Its state is read off the list of
ingested events, one identity at a time.
-/

set_option autoImplicit false

namespace SystemPilot.Forensics

open SystemPilot.Library

structure UnboundedCorrelator where
  timelines : Timelines
  telemetryLossEpoch : Nat

namespace UnboundedCorrelator

def empty : UnboundedCorrelator := ⟨∅, 0⟩

def timeline (correlator : UnboundedCorrelator) (identity : ProcessIdentity) : Timeline :=
  (correlator.timelines.lookup identity).getD ⟨[], correlator.telemetryLossEpoch⟩

def lostSince (correlator : UnboundedCorrelator) (identity : ProcessIdentity) : Bool :=
  (correlator.timeline identity).lossEpochAtCreation != correlator.telemetryLossEpoch

/-- The timeline with one more event. -/
def grown (correlator : UnboundedCorrelator) (identity : ProcessIdentity) (event : KernelEvent) :
    Timeline :=
  { correlator.timeline identity with
    events := (correlator.timeline identity).events ++ [event] }

/-- `Correlator::ingest` without `ensure_capacity` and without the ring. -/
def ingest (correlator : UnboundedCorrelator) (event : KernelEvent) :
    UnboundedCorrelator × IngestOutcome :=
  match event.identity with
  | none =>
      ({ correlator with
          telemetryLossEpoch :=
            if event.isLoss then (correlator.telemetryLossEpoch + 1) % 2 ^ 64
            else correlator.telemetryLossEpoch },
        .accepted)
  | some identity =>
      let timeline := correlator.grown identity event
      let stored := correlator.timelines.insert identity timeline
      if !event.isDeath then ({ correlator with timelines := stored }, .accepted)
      else
        ({ correlator with timelines := stored.erase identity },
          match classify identity timeline.events (correlator.lostSince identity) with
          | some report => .death report
          | none => .ignored)

def step (correlator : UnboundedCorrelator) (event : KernelEvent) : UnboundedCorrelator :=
  (correlator.ingest event).1

end UnboundedCorrelator

section Step

variable (correlator : UnboundedCorrelator) {identity : ProcessIdentity} {event : KernelEvent}

namespace UnboundedCorrelator

theorem step_epoch :
    (correlator.step event).telemetryLossEpoch =
      if event.isLoss then (correlator.telemetryLossEpoch + 1) % 2 ^ 64
      else correlator.telemetryLossEpoch := by
  unfold step ingest
  cases about : event.identity with
  | none => rfl
  | some identity =>
      rw [event.not_isLoss_of_identity about]
      dsimp only
      split <;> rfl

theorem step_lookup_self (own : event.identity = some identity) :
    (correlator.step event).timelines.lookup identity =
      if event.isDeath then none else some (correlator.grown identity event) := by
  unfold step ingest
  rw [own]
  cases death : event.isDeath with
  | true => simp
  | false => simp

theorem step_lookup_other (foreign : event.identity ≠ some identity) :
    (correlator.step event).timelines.lookup identity = correlator.timelines.lookup identity := by
  unfold step ingest
  cases about : event.identity with
  | none => rfl
  | some owner =>
      have distinct : identity ≠ owner := fun same => foreign (by rw [about, same])
      dsimp only
      split
      · exact AList.lookup_insert_ne distinct
      · exact (AList.lookup_erase_ne distinct).trans (AList.lookup_insert_ne distinct)

theorem outcome_of_leaderExit {exit : LeaderExit}
    (found : leaderExit identity event = some exit) :
    (correlator.ingest event).2 =
      .death (exitReport identity exit (correlator.timeline identity).events
        (correlator.lostSince identity)) := by
  obtain ⟨death, own⟩ := isDeath_of_leaderExit found
  unfold ingest grown
  rw [own, death]
  dsimp only
  rw [classify_concat_exit found]
  rfl

end UnboundedCorrelator

end Step

/-! ## One identity of a history -/

/-- An exit of this identity's leader. -/
def exitsOf (identity : ProcessIdentity) (event : KernelEvent) : Bool :=
  event.isDeath && event.identity == some identity

def belongsTo (identity : ProcessIdentity) (event : KernelEvent) : Bool :=
  event.identity == some identity

/-- What was ingested since the identity's last leader exit. -/
def sinceExit (identity : ProcessIdentity) (history : List KernelEvent) : List KernelEvent :=
  history.rtakeWhile fun event => !exitsOf identity event

/-- The identity's events since then. -/
def ownEvents (identity : ProcessIdentity) (history : List KernelEvent) : List KernelEvent :=
  (sinceExit identity history).filter (belongsTo identity)

/-- The losses since the first of these events. -/
def lossesSince (identity : ProcessIdentity) (history : List KernelEvent) : Nat :=
  ((sinceExit identity history).dropWhile fun event => !belongsTo identity event).countP
    KernelEvent.isLoss

section History

variable {identity : ProcessIdentity} {event : KernelEvent} (history : List KernelEvent)

theorem sinceExit_concat_exit (exits : exitsOf identity event = true) :
    sinceExit identity (history ++ [event]) = [] :=
  List.rtakeWhile_concat_neg _ _ _ (by simp [exits])

theorem sinceExit_concat (lives : exitsOf identity event = false) :
    sinceExit identity (history ++ [event]) = sinceExit identity history ++ [event] :=
  List.rtakeWhile_concat_pos _ _ _ (by simp [lives])

theorem ownEvents_concat_exit (exits : exitsOf identity event = true) :
    ownEvents identity (history ++ [event]) = [] := by
  rw [ownEvents, sinceExit_concat_exit history exits, List.filter_nil]

theorem ownEvents_concat_own (lives : event.isDeath = false)
    (own : event.identity = some identity) :
    ownEvents identity (history ++ [event]) = ownEvents identity history ++ [event] := by
  have stays : exitsOf identity event = false := by simp [exitsOf, lives]
  rw [ownEvents, sinceExit_concat history stays, List.filter_append,
    List.filter_cons_of_pos (by simp [belongsTo, own]), List.filter_nil]
  rfl

theorem ownEvents_concat_foreign (foreign : event.identity ≠ some identity) :
    ownEvents identity (history ++ [event]) = ownEvents identity history := by
  have stays : exitsOf identity event = false := by simp [exitsOf, foreign]
  rw [ownEvents, sinceExit_concat history stays, List.filter_append,
    List.filter_cons_of_neg (by simp [belongsTo, foreign]), List.filter_nil, List.append_nil]
  rfl

theorem ownEvents_eq_nil_iff :
    ownEvents identity history = [] ↔
      ∀ event ∈ sinceExit identity history, belongsTo identity event = false := by
  rw [ownEvents, List.filter_eq_nil_iff]
  simp only [Bool.not_eq_true]

theorem lossesSince_of_ownEvents_nil (none : ownEvents identity history = []) :
    lossesSince identity history = 0 := by
  rw [ownEvents_eq_nil_iff] at none
  rw [lossesSince, List.dropWhile_eq_nil_iff.mpr fun event member => by simp [none event member],
    List.countP_nil]

theorem lossesSince_concat_exit (exits : exitsOf identity event = true) :
    lossesSince identity (history ++ [event]) = 0 := by
  rw [lossesSince, sinceExit_concat_exit history exits]
  rfl

theorem lossesSince_concat_first (none : ownEvents identity history = [])
    (lives : event.isDeath = false) (own : event.identity = some identity) :
    lossesSince identity (history ++ [event]) = 0 := by
  have stays : exitsOf identity event = false := by simp [exitsOf, lives]
  rw [ownEvents_eq_nil_iff] at none
  rw [lossesSince, sinceExit_concat history stays,
    List.dropWhile_append_of_pos fun event member => by simp [none event member],
    List.dropWhile_cons_of_neg (by simp [belongsTo, own]), List.countP_singleton,
    event.not_isLoss_of_identity own]
  rfl

theorem lossesSince_concat_open (some : ownEvents identity history ≠ [])
    (lives : exitsOf identity event = false) :
    lossesSince identity (history ++ [event]) =
      lossesSince identity history + if event.isLoss then 1 else 0 := by
  have started : ((sinceExit identity history).dropWhile
      fun event => !belongsTo identity event).isEmpty = false := by
    rw [List.isEmpty_eq_false_iff]
    intro empty
    rw [List.dropWhile_eq_nil_iff] at empty
    exact some ((ownEvents_eq_nil_iff history).mpr fun event member => by
      simpa using empty event member)
  rw [lossesSince, sinceExit_concat history lives, List.dropWhile_append, started]
  simp only [Bool.false_eq_true, if_false, List.countP_append, List.countP_singleton]
  rfl

theorem lossesSince_concat_foreign (foreign : event.identity ≠ some identity) :
    lossesSince identity (history ++ [event]) =
      lossesSince identity history +
        if ownEvents identity history ≠ [] ∧ event.isLoss = true then 1 else 0 := by
  by_cases first : ownEvents identity history = []
  · have still : ownEvents identity (history ++ [event]) = [] := by
      rw [ownEvents_concat_foreign history foreign, first]
    rw [lossesSince_of_ownEvents_nil _ still, lossesSince_of_ownEvents_nil _ first]
    simp [first]
  · rw [lossesSince_concat_open history first (by simp [exitsOf, foreign])]
    simp [first]

theorem lossesSince_le (identity : ProcessIdentity) :
    lossesSince identity history ≤ history.countP KernelEvent.isLoss :=
  ((List.dropWhile_sublist _).trans (List.rtakeWhile_suffix _ _).sublist).countP_le

end History

/-! ## The state of the unbounded correlator -/

/-- The correlator holds what the history says of each identity. -/
structure Means (history : List KernelEvent) (correlator : UnboundedCorrelator) : Prop where
  absent : ∀ identity, correlator.timelines.lookup identity = none →
    ownEvents identity history = []
  events : ∀ identity timeline, correlator.timelines.lookup identity = some timeline →
    ownEvents identity history ≠ [] ∧ timeline.events = ownEvents identity history
  losses : ∀ identity timeline, correlator.timelines.lookup identity = some timeline →
    timeline.lossEpochAtCreation < 2 ^ 64 ∧
      (timeline.lossEpochAtCreation + lossesSince identity history) % 2 ^ 64 =
        correlator.telemetryLossEpoch
  epoch : correlator.telemetryLossEpoch < 2 ^ 64

section Meaning

variable {history : List KernelEvent} {correlator : UnboundedCorrelator}
variable {identity : ProcessIdentity}

theorem means_empty : Means [] .empty where
  absent identity _ := rfl
  events identity timeline found := by cases found
  losses identity timeline found := by cases found
  epoch := by decide

theorem Means.timeline_events (means : Means history correlator) (identity : ProcessIdentity) :
    (correlator.timeline identity).events = ownEvents identity history := by
  unfold UnboundedCorrelator.timeline
  cases found : correlator.timelines.lookup identity with
  | none => exact (means.absent identity found).symm
  | some timeline => exact (means.events identity timeline found).2

theorem Means.timeline_losses (means : Means history correlator) (identity : ProcessIdentity) :
    (correlator.timeline identity).lossEpochAtCreation < 2 ^ 64 ∧
      ((correlator.timeline identity).lossEpochAtCreation + lossesSince identity history) % 2 ^ 64 =
        correlator.telemetryLossEpoch := by
  unfold UnboundedCorrelator.timeline
  cases found : correlator.timelines.lookup identity with
  | none =>
      rw [lossesSince_of_ownEvents_nil history (means.absent identity found)]
      exact ⟨means.epoch, Nat.mod_eq_of_lt means.epoch⟩
  | some timeline => exact means.losses identity timeline found

/-- The epochs differ exactly after a loss, unless the counter went round. -/
theorem Means.lostSince_eq (means : Means history correlator) (identity : ProcessIdentity)
    (bounded : history.countP KernelEvent.isLoss < 2 ^ 64) :
    correlator.lostSince identity = decide (lossesSince identity history ≠ 0) := by
  obtain ⟨opened, counted⟩ := means.timeline_losses identity
  have few := lt_of_le_of_lt (lossesSince_le history identity) bounded
  unfold UnboundedCorrelator.lostSince
  rw [Bool.eq_iff_iff, bne_iff_ne, decide_eq_true_iff]
  omega

theorem means_step (means : Means history correlator) (event : KernelEvent) :
    Means (history ++ [event]) (correlator.step event) := by
  have epochBound : (correlator.step event).telemetryLossEpoch < 2 ^ 64 := by
    rw [correlator.step_epoch]
    have bound := means.epoch
    split
    · exact Nat.mod_lt _ (by decide)
    · exact bound
  constructor
  · intro identity found
    by_cases own : event.identity = some identity
    · rw [correlator.step_lookup_self own] at found
      split at found
      · rename_i death
        exact ownEvents_concat_exit history (by simp [exitsOf, death, own])
      · cases found
    · rw [correlator.step_lookup_other own] at found
      rw [ownEvents_concat_foreign history own]
      exact means.absent identity found
  · intro identity timeline found
    by_cases own : event.identity = some identity
    · rw [correlator.step_lookup_self own] at found
      split at found
      · cases found
      · rename_i lives
        cases found
        rw [ownEvents_concat_own history (by simpa using lives) own]
        refine ⟨by simp, ?_⟩
        unfold UnboundedCorrelator.grown
        rw [means.timeline_events]
    · rw [correlator.step_lookup_other own] at found
      rw [ownEvents_concat_foreign history own]
      exact means.events identity timeline found
  · intro identity timeline found
    by_cases own : event.identity = some identity
    · rw [correlator.step_lookup_self own] at found
      split at found
      · cases found
      · rename_i lives
        have alive : event.isDeath = false := by simpa using lives
        cases found
        obtain ⟨opened, counted⟩ := means.timeline_losses identity
        have notLoss := event.not_isLoss_of_identity own
        rw [correlator.step_epoch, notLoss]
        refine ⟨opened, ?_⟩
        by_cases first : ownEvents identity history = []
        · rw [lossesSince_concat_first history first alive own]
          rw [lossesSince_of_ownEvents_nil history first] at counted
          exact counted
        · rw [lossesSince_concat_open history first (by simp [exitsOf, alive]), notLoss]
          exact counted
    · rw [correlator.step_lookup_other own] at found
      obtain ⟨opened, counted⟩ := means.losses identity timeline found
      rw [correlator.step_epoch,
        lossesSince_concat_open history (means.events identity timeline found).1
          (by simp [exitsOf, own])]
      refine ⟨opened, ?_⟩
      split
      · rw [← counted, ← Nat.add_assoc, Nat.mod_add_mod]
      · exact counted
  · exact epochBound

theorem means_run (events : List KernelEvent) :
    Means events (Machine.run UnboundedCorrelator.step .empty events) := by
  induction events using List.reverseRecOn with
  | nil => exact means_empty
  | append_singleton events event inductionHypothesis =>
      rw [Machine.run_append]
      exact means_step inductionHypothesis event

end Meaning

end SystemPilot.Forensics
