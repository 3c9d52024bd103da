import SystemPilot.Library.Machine
import SystemPilot.Telemetry.Acknowledgement
import SystemPilot.Agent.Publisher
import SystemPilot.Agent.Metrics

/-!
# The health of the exporter

Any number of publishing threads and the worker, each between two atomic steps.
Every scan of the spool is stored by a later step of its thread, and the worker
subtracts what it acknowledged, so an old scan can overwrite a newer one and the
subtraction can precede the count.
-/

set_option autoImplicit false

namespace SystemPilot.Agent

open SystemPilot.Library
open SystemPilot.Telemetry
open SystemPilot.Spool

/-- `publish` between its steps. -/
inductive Publishing where
  | idle
  | appended
  | scanned (stats : SpoolStats)
  deriving DecidableEq

/-- The worker between its steps. -/
inductive Exporting where
  | idle
  | exporting (batch : List TelemetryEnvelope)
  | answered (batch accepted : List TelemetryEnvelope) (rejected : Nat)
  | acknowledged (accepted rejected : Nat)
  | finishing
  | scanned (stats : SpoolStats)
  deriving DecidableEq

/-- The process: its spool, its counters and where its threads are. -/
structure Exporter (Bytes Thread : Type) where
  files : SpoolFiles Bytes
  metrics : ExportMetrics
  publishing : Thread → Publishing := fun _ => .idle
  worker : Exporting := .idle

/-- One atomic step.  An answer is none when the retry budget is exhausted. -/
inductive ExporterEvent (Thread : Type) where
  | append (thread : Thread) (moment : Moment) (envelope : TelemetryEnvelope)
  | publishStats (thread : Thread) (moment : Moment)
  | publishStore (thread : Thread)
  | pending (moment : Moment)
  | exportBatch (answer : Option IngestionAcknowledgement)
  | acknowledge (moment : Moment)
  | fetchSub (now : UInt64)
  | workerStats (moment : Moment)
  | workerStore

/-- The three stores that follow a scan. -/
def ExportMetrics.stored (metrics : ExportMetrics) (stats : SpoolStats) : ExportMetrics :=
  { metrics with
    queued := UInt64.ofNat stats.records
    spoolBytes := UInt64.ofNat stats.bytes
    quarantined := UInt64.ofNat stats.quarantined }

def ExportMetrics.failed (metrics : ExportMetrics) : ExportMetrics :=
  { metrics with persistenceFailures := metrics.persistenceFailures + 1 }

def ExportMetrics.refused (metrics : ExportMetrics) (records : Nat) : ExportMetrics :=
  { metrics with rejected := metrics.rejected + UInt64.ofNat records }

namespace Exporter

section Step

variable {Bytes Thread : Type} [DecidableEq Thread]
variable (codec : Codec Bytes) (spool : DiskSpool) (batchSize : Nat)

/-- `from_config` on a spool: nothing is in progress and the records are counted. -/
def start (files : SpoolFiles Bytes) : Exporter Bytes Thread where
  files := files
  metrics := { queued := UInt64.ofNat (recordCount files) }

def setPublishing (exporter : Exporter Bytes Thread) (thread : Thread) (stage : Publishing) :
    Exporter Bytes Thread :=
  { exporter with
    publishing := fun other => if other = thread then stage else exporter.publishing other }

/-- `spool.append` of a publishing thread.  A process that ends in it is started
again. -/
def append (exporter : Exporter Bytes Thread) (thread : Thread) (moment : Moment)
    (envelope : TelemetryEnvelope) : Exporter Bytes Thread :=
  match exporter.publishing thread with
  | .idle =>
      match Spool.append codec spool moment.faults moment.clock exporter.files envelope with
      | (files, .ok ()) => { exporter with files }.setPublishing thread .appended
      | (files, .error _) => { exporter with files, metrics := exporter.metrics.failed }
      | (files, .crash) => start files
  | _ => exporter

/-- `spool.stats` of a publishing thread; its error ends `publish`. -/
def publishStats (exporter : Exporter Bytes Thread) (thread : Thread) (moment : Moment) :
    Exporter Bytes Thread :=
  match exporter.publishing thread with
  | .appended =>
      match stats codec spool moment.faults moment.clock exporter.files with
      | .ok stats => exporter.setPublishing thread (.scanned stats)
      | .error _ => exporter.setPublishing thread .idle
  | _ => exporter

def publishStore (exporter : Exporter Bytes Thread) (thread : Thread) : Exporter Bytes Thread :=
  match exporter.publishing thread with
  | .scanned stats =>
      { exporter with metrics := exporter.metrics.stored stats }.setPublishing thread .idle
  | _ => exporter

/-- `spool.pending`; without a batch the round is over. -/
def pending (exporter : Exporter Bytes Thread) (moment : Moment) : Exporter Bytes Thread :=
  match exporter.worker with
  | .idle =>
      match Spool.pending codec moment.faults batchSize exporter.files with
      | (files, .ok batch) =>
          { exporter with files, worker := if batch.isEmpty then .idle else .exporting batch }
      | (files, .error _) => { exporter with files, metrics := exporter.metrics.failed }
  | _ => exporter

/-- The retry loop up to a valid answer, or to its end. -/
def exportBatch (exporter : Exporter Bytes Thread) (answer : Option IngestionAcknowledgement) :
    Exporter Bytes Thread :=
  match exporter.worker, answer with
  | .exporting batch, none =>
      { exporter with worker := .finishing, metrics := exporter.metrics.refused batch.length }
  | .exporting batch, some acknowledgement =>
      match acknowledgement.validate batch with
      | .ok () =>
          let accepted := acknowledgement.acceptedRecords batch
          let rejected := acknowledgement.rejectedRecords.length
          if accepted.isEmpty then
            { exporter with worker := .finishing, metrics := exporter.metrics.refused rejected }
          else { exporter with worker := .answered batch accepted rejected }
      | .error _ =>
          { exporter with worker := .finishing, metrics := exporter.metrics.refused batch.length }
  | _, _ => exporter

/-- `spool.acknowledge`; its error ends the retry loop. -/
def acknowledge (exporter : Exporter Bytes Thread) (moment : Moment) : Exporter Bytes Thread :=
  match exporter.worker with
  | .answered batch accepted rejected =>
      match Spool.acknowledge moment.faults accepted exporter.files with
      | (files, .ok ()) =>
          { exporter with files, worker := .acknowledged accepted.length rejected }
      | (files, .error _) =>
          { exporter with
            files
            worker := .finishing
            metrics := exporter.metrics.failed.refused batch.length }
  | _ => exporter

/-- `queued.fetch_sub` and the counters that go with it. -/
def fetchSub (exporter : Exporter Bytes Thread) (now : UInt64) : Exporter Bytes Thread :=
  match exporter.worker with
  | .acknowledged accepted rejected =>
      { exporter with
        worker := .finishing
        metrics := {
          exporter.metrics with
          queued := exporter.metrics.queued - UInt64.ofNat accepted
          sent := exporter.metrics.sent + UInt64.ofNat accepted
          lastAcknowledgementUnixNanos := now }.refused rejected }
  | _ => exporter

def workerStats (exporter : Exporter Bytes Thread) (moment : Moment) : Exporter Bytes Thread :=
  match exporter.worker with
  | .finishing =>
      match stats codec spool moment.faults moment.clock exporter.files with
      | .ok stats => { exporter with worker := .scanned stats }
      | .error _ => { exporter with worker := .idle, metrics := exporter.metrics.failed }
  | _ => exporter

def workerStore (exporter : Exporter Bytes Thread) : Exporter Bytes Thread :=
  match exporter.worker with
  | .scanned stats => { exporter with worker := .idle, metrics := exporter.metrics.stored stats }
  | _ => exporter

def step (exporter : Exporter Bytes Thread) : ExporterEvent Thread → Exporter Bytes Thread
  | .append thread moment envelope => exporter.append codec spool thread moment envelope
  | .publishStats thread moment => exporter.publishStats codec spool thread moment
  | .publishStore thread => exporter.publishStore thread
  | .pending moment => exporter.pending codec batchSize moment
  | .exportBatch answer => exporter.exportBatch answer
  | .acknowledge moment => exporter.acknowledge moment
  | .fetchSub now => exporter.fetchSub now
  | .workerStats moment => exporter.workerStats codec spool moment
  | .workerStore => exporter.workerStore

end Step

/-! ## Truth -/

section Truth

variable {Bytes Thread : Type}

/-- No operation is in progress. -/
def Idle (exporter : Exporter Bytes Thread) : Prop :=
  exporter.worker = .idle ∧ ∀ thread, exporter.publishing thread = .idle

/-- No publishing thread is in progress. -/
def Quiet (exporter : Exporter Bytes Thread) : Prop :=
  ∀ thread, exporter.publishing thread = .idle

/-- No other thread is in progress. -/
def Last (exporter : Exporter Bytes Thread) (thread : Thread) : Prop :=
  exporter.worker = .idle ∧ ∀ other, other ≠ thread → exporter.publishing other = .idle

/-- The counter is the number of records. -/
def Counted (exporter : Exporter Bytes Thread) : Prop :=
  exporter.metrics.queued = UInt64.ofNat (recordCount exporter.files)

def Truthful (exporter : Exporter Bytes Thread) : Prop := exporter.Idle → exporter.Counted

/-- The counter is at least what the worker is about to subtract. -/
def Covered (exporter : Exporter Bytes Thread) : Prop :=
  ∀ accepted rejected, exporter.worker = .acknowledged accepted rejected →
    UInt64.ofNat accepted ≤ exporter.metrics.queued

/-- The scan counted as many records as there are. -/
def Fresh (exporter : Exporter Bytes Thread) (stats : SpoolStats) : Prop :=
  UInt64.ofNat stats.records = UInt64.ofNat (recordCount exporter.files)

variable {exporter : Exporter Bytes Thread}

theorem truthful_of_busy (busy : ¬exporter.Idle) : exporter.Truthful :=
  fun idle => absurd idle busy

theorem not_idle_of_publishing (thread : Thread) (busy : exporter.publishing thread ≠ .idle) :
    ¬exporter.Idle :=
  fun idle => busy (idle.2 thread)

theorem not_idle_of_worker (busy : exporter.worker ≠ .idle) : ¬exporter.Idle :=
  fun idle => busy idle.1

theorem start_truthful (files : SpoolFiles Bytes) :
    (start files : Exporter Bytes Thread).Truthful := fun _ => rfl

variable [DecidableEq Thread] (codec : Codec Bytes) (spool : DiskSpool) (batchSize : Nat)

/-- A step that does not wrap the counter and leaves it true when nothing is in
progress. -/
def Honest (exporter : Exporter Bytes Thread) (event : ExporterEvent Thread) : Prop :=
  (∀ now, event = .fetchSub now → exporter.Covered) ∧
    (exporter.step codec spool batchSize event).Truthful

/-- The subtraction is covered, and the last operation in progress ends by storing a
fresh scan; or its scan fails when the counter is true, or the worker finds no batch
and sets no record aside. -/
def Current (exporter : Exporter Bytes Thread) : ExporterEvent Thread → Prop
  | .fetchSub _ => exporter.Covered
  | .publishStore thread => exporter.Last thread → ∀ stats,
      exporter.publishing thread = .scanned stats → exporter.Fresh stats
  | .workerStore => exporter.Quiet → ∀ stats,
      exporter.worker = .scanned stats → exporter.Fresh stats
  | .publishStats thread moment => exporter.Last thread →
      exporter.publishing thread = .appended → ∀ failure,
      stats codec spool moment.faults moment.clock exporter.files = .error failure →
        exporter.Counted
  | .workerStats moment => exporter.Quiet → exporter.worker = .finishing → ∀ failure,
      stats codec spool moment.faults moment.clock exporter.files = .error failure →
        exporter.Counted
  | .pending moment => exporter.Idle →
      (∀ batch, (Spool.pending codec moment.faults batchSize exporter.files).2 = .ok batch →
        batch = []) →
      UInt64.ofNat (recordCount
          (Spool.pending codec moment.faults batchSize exporter.files).1) =
        UInt64.ofNat (recordCount exporter.files)
  | _ => True

variable {codec spool batchSize}

theorem setPublishing_self (thread : Thread) (stage : Publishing) :
    (exporter.setPublishing thread stage).publishing thread = stage :=
  if_pos rfl

/-- A thread that becomes idle leaves nothing in progress if it was the last. -/
theorem idle_setPublishing_iff (thread : Thread) :
    (exporter.setPublishing thread .idle).Idle ↔ exporter.Last thread := by
  constructor
  · rintro ⟨worker, publishing⟩
    refine ⟨worker, ?_⟩
    intro other apart
    have stage := publishing other
    simp only [setPublishing, if_neg apart] at stage
    exact stage
  · rintro ⟨worker, others⟩
    refine ⟨worker, ?_⟩
    intro other
    simp only [setPublishing]
    split
    · rfl
    · rename_i apart
      exact others other apart

/-- An append that fails leaves the number of records. -/
theorem recordCount_append_failed {faults : Faults} {clock : Nat} {files : SpoolFiles Bytes}
    {envelope : TelemetryEnvelope}
    (failed : (Spool.append codec spool faults clock files envelope).2 ≠ .ok ()) :
    recordCount (Spool.append codec spool faults clock files envelope).1 = recordCount files := by
  rcases append_cases codec spool faults clock files envelope with
    ⟨_, _, appended⟩ | ⟨_, same | ⟨name, content, temporary, left⟩⟩
  · rw [appended] at failed
    exact absurd rfl failed
  · rw [same]
  · rw [left]
    exact SortedMap.countKeys_insert_other isRecordName files.records name content temporary

theorem append_truthful (truthful : exporter.Truthful) (thread : Thread) (moment : Moment)
    (envelope : TelemetryEnvelope) :
    (exporter.append codec spool thread moment envelope).Truthful := by
  unfold append
  split
  · cases outcome : Spool.append codec spool moment.faults moment.clock exporter.files envelope with
    | mk files result =>
        have count := @recordCount_append_failed _ codec spool moment.faults moment.clock
          exporter.files envelope
        rw [outcome] at count
        cases result with
        | ok done =>
            apply truthful_of_busy
            apply not_idle_of_publishing thread
            rw [setPublishing_self]
            exact Publishing.noConfusion
        | error failure =>
            intro idle
            have counted := truthful idle
            rw [Counted] at counted ⊢
            rw [count (by simp)]
            exact counted
        | crash => exact start_truthful files
  · exact truthful

theorem publishStats_truthful_iff (truthful : exporter.Truthful) (thread : Thread)
    (moment : Moment) : (exporter.publishStats codec spool thread moment).Truthful ↔
      exporter.Current codec spool batchSize (.publishStats thread moment) := by
  unfold publishStats Current
  cases stage : exporter.publishing thread with
  | appended =>
      cases outcome : stats codec spool moment.faults moment.clock exporter.files with
      | ok counted =>
          refine iff_of_true ?_ ?_
          · apply truthful_of_busy
            apply not_idle_of_publishing thread
            rw [setPublishing_self]
            exact Publishing.noConfusion
          · intro _ _ failure failed
            rw [outcome] at failed
            cases failed
      | error failure =>
          rw [Truthful, idle_setPublishing_iff]
          constructor
          · intro ends last _ _ _
            exact ends last
          · intro current last
            exact current last stage failure outcome
  | idle => exact iff_of_true truthful fun _ appended => absurd (stage.symm.trans appended) (by simp)
  | scanned counted =>
      exact iff_of_true truthful fun _ appended => absurd (stage.symm.trans appended) (by simp)

theorem publishStore_truthful_iff (truthful : exporter.Truthful) (thread : Thread) :
    (exporter.publishStore thread).Truthful ↔
      exporter.Current codec spool batchSize (.publishStore thread) := by
  unfold publishStore Current
  cases stage : exporter.publishing thread with
  | scanned stats =>
      rw [Truthful, idle_setPublishing_iff]
      constructor
      · intro ends last other scanned
        obtain rfl : stats = other := Publishing.scanned.inj (stage.symm.trans scanned)
        exact ends last
      · intro current last
        exact current last stats stage
  | idle => exact iff_of_true truthful fun _ _ scanned => absurd (stage.symm.trans scanned) (by simp)
  | appended =>
      exact iff_of_true truthful fun _ _ scanned => absurd (stage.symm.trans scanned) (by simp)

omit [DecidableEq Thread] in
theorem pending_truthful_iff (truthful : exporter.Truthful) (moment : Moment) :
    (exporter.pending codec batchSize moment).Truthful ↔
      exporter.Current codec spool batchSize (.pending moment) := by
  unfold pending Current
  dsimp only
  cases stage : exporter.worker with
  | idle =>
      -- the round is over at once, so nothing is in progress when nothing was
      have ended : ∀ (files : SpoolFiles Bytes) (metrics : ExportMetrics),
          metrics.queued = exporter.metrics.queued →
          (Truthful { exporter with files, metrics, worker := .idle } ↔
            (exporter.Idle → UInt64.ofNat (recordCount files) =
              UInt64.ofNat (recordCount exporter.files))) := by
        intro files metrics same
        have idle : Idle { exporter with files, metrics, worker := .idle } ↔ exporter.Idle :=
          and_congr_left fun _ => iff_of_true rfl stage
        rw [Truthful, idle]
        refine forall_congr' fun nothing => ?_
        have counted := truthful nothing
        rw [Counted] at counted ⊢
        rw [same, counted]
        exact eq_comm
      cases outcome : Spool.pending codec moment.faults batchSize exporter.files with
      | mk files result =>
          cases result with
          | ok batch =>
              cases batch with
              | nil =>
                  refine (ended files exporter.metrics rfl).trans ?_
                  refine forall_congr' fun nothing => ?_
                  exact ⟨fun same _ => same, fun current => current fun _ empty => by cases empty; rfl⟩
              | cons record batch =>
                  refine iff_of_true ?_ fun _ empty => absurd (empty _ rfl) (List.cons_ne_nil _ _)
                  apply truthful_of_busy
                  apply not_idle_of_worker
                  exact Exporting.noConfusion
          | error failure =>
              refine (ended files exporter.metrics.failed rfl).trans ?_
              refine forall_congr' fun nothing => ?_
              exact ⟨fun same _ => same, fun current => current fun _ failed => by cases failed⟩
  | exporting batch => exact iff_of_true truthful fun idle => absurd (stage.symm.trans idle.1) (by simp)
  | answered batch accepted rejected =>
      exact iff_of_true truthful fun idle => absurd (stage.symm.trans idle.1) (by simp)
  | acknowledged accepted rejected =>
      exact iff_of_true truthful fun idle => absurd (stage.symm.trans idle.1) (by simp)
  | finishing => exact iff_of_true truthful fun idle => absurd (stage.symm.trans idle.1) (by simp)
  | scanned stats => exact iff_of_true truthful fun idle => absurd (stage.symm.trans idle.1) (by simp)

omit [DecidableEq Thread] in
/-- A step of the worker that stays in its round leaves nothing to be true. -/
theorem exportBatch_truthful (truthful : exporter.Truthful)
    (answer : Option IngestionAcknowledgement) : (exporter.exportBatch answer).Truthful := by
  unfold exportBatch
  split
  · exact truthful_of_busy (not_idle_of_worker Exporting.noConfusion)
  · split
    · dsimp only
      split
      · exact truthful_of_busy (not_idle_of_worker Exporting.noConfusion)
      · exact truthful_of_busy (not_idle_of_worker Exporting.noConfusion)
    · exact truthful_of_busy (not_idle_of_worker Exporting.noConfusion)
  · exact truthful

omit [DecidableEq Thread] in
theorem acknowledge_truthful (truthful : exporter.Truthful) (moment : Moment) :
    (exporter.acknowledge moment).Truthful := by
  unfold acknowledge
  split
  · split
    · exact truthful_of_busy (not_idle_of_worker Exporting.noConfusion)
    · exact truthful_of_busy (not_idle_of_worker Exporting.noConfusion)
  · exact truthful

omit [DecidableEq Thread] in
theorem fetchSub_truthful (truthful : exporter.Truthful) (now : UInt64) :
    (exporter.fetchSub now).Truthful := by
  unfold fetchSub
  split
  · exact truthful_of_busy (not_idle_of_worker Exporting.noConfusion)
  · exact truthful

omit [DecidableEq Thread] in
theorem workerStats_truthful_iff (truthful : exporter.Truthful) (moment : Moment) :
    (exporter.workerStats codec spool moment).Truthful ↔
      exporter.Current codec spool batchSize (.workerStats moment) := by
  unfold workerStats Current
  cases stage : exporter.worker with
  | finishing =>
      cases outcome : stats codec spool moment.faults moment.clock exporter.files with
      | ok counted =>
          refine iff_of_true (truthful_of_busy (not_idle_of_worker Exporting.noConfusion)) ?_
          intro _ _ failure failed
          rw [outcome] at failed
          cases failed
      | error failure =>
          constructor
          · intro ends quiet _ _ _
            exact ends ⟨rfl, quiet⟩
          · intro current idle
            exact current idle.2 rfl failure outcome
  | idle => exact iff_of_true truthful fun _ ends => Exporting.noConfusion ends
  | exporting batch => exact iff_of_true truthful fun _ ends => Exporting.noConfusion ends
  | answered batch accepted rejected =>
      exact iff_of_true truthful fun _ ends => Exporting.noConfusion ends
  | acknowledged accepted rejected =>
      exact iff_of_true truthful fun _ ends => Exporting.noConfusion ends
  | scanned stats => exact iff_of_true truthful fun _ ends => Exporting.noConfusion ends

omit [DecidableEq Thread] in
theorem workerStore_truthful_iff (truthful : exporter.Truthful) :
    exporter.workerStore.Truthful ↔ exporter.Current codec spool batchSize .workerStore := by
  unfold workerStore Current
  cases stage : exporter.worker with
  | scanned stats =>
      constructor
      · intro ends quiet other scanned
        obtain rfl : stats = other := Exporting.scanned.inj scanned
        exact ends ⟨rfl, quiet⟩
      · intro current idle
        exact current idle.2 stats rfl
  | idle => exact iff_of_true truthful fun _ _ ends => Exporting.noConfusion ends
  | exporting batch => exact iff_of_true truthful fun _ _ ends => Exporting.noConfusion ends
  | answered batch accepted rejected =>
      exact iff_of_true truthful fun _ _ ends => Exporting.noConfusion ends
  | acknowledged accepted rejected =>
      exact iff_of_true truthful fun _ _ ends => Exporting.noConfusion ends
  | finishing => exact iff_of_true truthful fun _ _ ends => Exporting.noConfusion ends

/-- From a truthful state a step is honest exactly when it is current. -/
theorem honest_iff_current (truthful : exporter.Truthful) (event : ExporterEvent Thread) :
    exporter.Honest codec spool batchSize event ↔
      exporter.Current codec spool batchSize event := by
  cases event with
  | append thread moment envelope =>
      exact iff_of_true ⟨by simp, append_truthful truthful thread moment envelope⟩ trivial
  | publishStats thread moment =>
      refine Iff.trans ?_ (publishStats_truthful_iff truthful thread moment)
      exact and_iff_right (by simp)
  | publishStore thread =>
      refine Iff.trans ?_ (publishStore_truthful_iff truthful thread)
      exact and_iff_right (by simp)
  | pending moment =>
      refine Iff.trans ?_ (pending_truthful_iff truthful moment)
      exact and_iff_right (by simp)
  | exportBatch answer => exact iff_of_true ⟨by simp, exportBatch_truthful truthful answer⟩ trivial
  | acknowledge moment => exact iff_of_true ⟨by simp, acknowledge_truthful truthful moment⟩ trivial
  | fetchSub now =>
      constructor
      · rintro ⟨covered, _⟩
        exact covered now rfl
      · intro covered
        exact ⟨fun _ _ => covered, fetchSub_truthful truthful now⟩
  | workerStats moment =>
      refine Iff.trans ?_ (workerStats_truthful_iff truthful moment)
      exact and_iff_right (by simp)
  | workerStore =>
      refine Iff.trans ?_ (workerStore_truthful_iff truthful)
      exact and_iff_right (by simp)

end Truth

end Exporter

/-! ## Runs -/

def smallSpool : DiskSpool where
  maxBytes := 4096
  maxAgeSecs := 60
  processId := 7

/-- The worker delivers the record between the append and its scan. -/
def quickDelivery : List (ExporterEvent Unit) := [
  .append () {} (healthRecord 1),
  .pending {},
  .exportBatch (some (.wholeBatch [healthRecord 1])),
  .acknowledge {},
  .fetchSub 0]

end SystemPilot.Agent
