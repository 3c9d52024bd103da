import SystemPilot.Spool.Effects

/-!
# Committing accepted records

The counters of the exporter, and what the worker does with the records a valid
answer accepts: it removes them from the spool and counts them, or counts a
failure.  The removal stops at the first record it cannot remove, and the records
before it are gone.
-/

set_option autoImplicit false

namespace SystemPilot.Agent

open SystemPilot.Library
open SystemPilot.Telemetry
open SystemPilot.Spool

/-- The atomic counters; `fetch_add` and `fetch_sub` wrap around. -/
structure ExportMetrics where
  queued : UInt64 := 0
  sent : UInt64 := 0
  retried : UInt64 := 0
  rejected : UInt64 := 0
  dropped : UInt64 := 0
  lastAcknowledgementUnixNanos : UInt64 := 0
  spoolBytes : UInt64 := 0
  quarantined : UInt64 := 0
  persistenceFailures : UInt64 := 0
  deriving DecidableEq, Repr

section Commit

variable {Bytes : Type}

/-- The commit of `spawn_export_worker`, and whether the retry loop goes on to report
the batch as delivered. -/
def commitAccepted (faults : Faults) (now : UInt64) (accepted : List TelemetryEnvelope)
    (files : SpoolFiles Bytes) (metrics : ExportMetrics) :
    SpoolFiles Bytes × ExportMetrics × Bool :=
  if accepted.isEmpty then (files, metrics, true)
  else
    match acknowledge faults accepted files with
    | (files, .error _) =>
        (files, { metrics with persistenceFailures := metrics.persistenceFailures + 1 }, false)
    | (files, .ok ()) =>
        (files,
          { metrics with
            queued := metrics.queued - UInt64.ofNat accepted.length
            sent := metrics.sent + UInt64.ofNat accepted.length
            lastAcknowledgementUnixNanos := now },
          true)

/-- The number of records in the spool. -/
def recordCount (files : SpoolFiles Bytes) : Nat :=
  SortedMap.countKeys isRecordName files.records

/-- What acknowledging a list of records should do: nothing when it fails, remove
exactly the records when it does not, and count as many as left the spool. -/
structure AllOrNothing (faults : Faults) (now : UInt64) (records : List TelemetryEnvelope)
    (files : SpoolFiles Bytes) (metrics : ExportMetrics) : Prop where
  refused : ∀ failure, (acknowledge faults records files).2 = .error failure →
    (acknowledge faults records files).1 = files
  removed : (acknowledge faults records files).2 = .ok () → ∀ path : String,
    (acknowledge faults records files).1.records[path]? =
      if path ∈ records.map (fun record => recordName record.sequence) then none
      else files.records[path]?
  counted :
    let committed := commitAccepted faults now records files metrics
    let gone := recordCount files - recordCount committed.1
    committed.2.1.sent = metrics.sent + UInt64.ofNat gone ∧
      committed.2.1.queued = metrics.queued - UInt64.ofNat gone

/-- The file of a record is there and can be removed. -/
def Removable (faults : Faults) (files : SpoolFiles Bytes) (record : TelemetryEnvelope) : Prop :=
  recordName record.sequence ∈ files.records ∧
    faults.removeRecord (recordName record.sequence) = false

/-- The first record cannot be removed, or all of them can, none listed twice. -/
def FirstOrAll (faults : Faults) (files : SpoolFiles Bytes) (records : List TelemetryEnvelope) :
    Prop :=
  (∃ record rest, records = record :: rest ∧ ¬Removable faults files record) ∨
    ((∀ record ∈ records, Removable faults files record) ∧
      (records.map TelemetryEnvelope.sequence).Nodup)

variable {faults : Faults} {records : List TelemetryEnvelope} {files : SpoolFiles Bytes}

/-! ## When `acknowledge` succeeds -/

theorem removable_erase_iff {record other : TelemetryEnvelope}
    (apart : record.sequence ≠ other.sequence) :
    Removable faults { files with
        records := files.records.erase (recordName record.sequence) } other ↔
      Removable faults files other := by
  have names : recordName record.sequence ≠ recordName other.sequence :=
    fun same => apart (recordName_injective same)
  simp [Removable, names]

theorem acknowledge_cons {record : TelemetryEnvelope} {rest : List TelemetryEnvelope}
    (removable : Removable faults files record) :
    acknowledge faults (record :: rest) files =
      acknowledge faults rest { files with
        records := files.records.erase (recordName record.sequence) } := by
  rw [acknowledge]
  rw [if_neg (not_not_intro removable.1), removable.2, if_neg Bool.false_ne_true]

theorem acknowledge_refused {record : TelemetryEnvelope} {rest : List TelemetryEnvelope}
    (stays : ¬Removable faults files record) :
    ∃ failure, acknowledge faults (record :: rest) files = (files, .error failure) := by
  rw [acknowledge]
  by_cases present : recordName record.sequence ∈ files.records
  · have fails : faults.removeRecord (recordName record.sequence) = true :=
      Bool.eq_true_of_not_eq_false fun clear => stays ⟨present, clear⟩
    rw [if_neg (not_not_intro present), if_pos fails]
    exact ⟨_, rfl⟩
  · rw [if_pos present]
    exact ⟨_, rfl⟩

theorem acknowledge_ok_iff : (acknowledge faults records files).2 = .ok () ↔
    (∀ record ∈ records, Removable faults files record) ∧
      (records.map TelemetryEnvelope.sequence).Nodup := by
  induction records generalizing files with
  | nil => simp [acknowledge]
  | cons record rest inductionHypothesis =>
      by_cases removable : Removable faults files record
      · rw [acknowledge_cons removable, inductionHypothesis, List.forall_mem_cons, List.map_cons,
          List.nodup_cons]
        constructor
        · rintro ⟨later, distinct⟩
          have apart : ∀ other ∈ rest, record.sequence ≠ other.sequence := by
            intro other member same
            have gone := (later other member).1
            simp [same] at gone
          refine ⟨⟨removable, fun other member =>
            (removable_erase_iff (apart other member)).mp (later other member)⟩, ?_, distinct⟩
          intro again
          obtain ⟨other, member, same⟩ := List.mem_map.mp again
          exact apart other member same.symm
        · rintro ⟨⟨_, later⟩, fresh, distinct⟩
          refine ⟨fun other member => (removable_erase_iff ?_).mpr (later other member), distinct⟩
          intro same
          exact fresh (List.mem_map.mpr ⟨other, member, same.symm⟩)
      · obtain ⟨failure, refused⟩ := @acknowledge_refused _ _ _ _ rest removable
        rw [refused]
        constructor
        · intro done
          cases done
        · rintro ⟨all, _⟩
          exact absurd (all record List.mem_cons_self) removable

theorem removedRecords_of_ok (ok : (acknowledge faults records files).2 = .ok ()) :
    removedRecords faults records files = records := by
  induction records generalizing files with
  | nil => rfl
  | cons record rest inductionHypothesis =>
      have removable := (acknowledge_ok_iff.mp ok).1 record List.mem_cons_self
      rw [acknowledge_cons removable] at ok
      rw [removedRecords]
      rw [if_neg (not_not_intro removable.1), removable.2, if_neg Bool.false_ne_true,
        inductionHypothesis ok]

/-! ## All or nothing -/

theorem removes_of_ok (ok : (acknowledge faults records files).2 = .ok ()) :
    Removes records files (acknowledge faults records files).1 := by
  have removes := acknowledge_removes faults records files
  rw [removedRecords_of_ok ok] at removes
  exact removes

/-- Acknowledging is all or nothing exactly when the first record cannot be removed
or all of them can. -/
theorem acknowledge_all_or_nothing_iff (faults : Faults) (now : UInt64)
    (records : List TelemetryEnvelope) (files : SpoolFiles Bytes) (metrics : ExportMetrics) :
    AllOrNothing faults now records files metrics ↔ FirstOrAll faults files records := by
  constructor
  · intro whole
    cases outcome : (acknowledge faults records files).2 with
    | ok done => exact .inr (acknowledge_ok_iff.mp outcome)
    | error failure =>
        cases records with
        | nil => cases outcome
        | cons record rest =>
            refine .inl ⟨record, rest, rfl, ?_⟩
            intro removable
            have unchanged := whole.refused failure outcome
            rw [acknowledge_cons removable] at unchanged
            have lookup := (acknowledge_removes faults rest { files with
              records := files.records.erase (recordName record.sequence) }).lookup
                (recordName record.sequence)
            rw [unchanged, SortedMap.getElem?_erase, if_pos rfl, ite_self] at lookup
            have present := removable.1
            rw [Std.ExtTreeMap.mem_iff_isSome_getElem?, lookup] at present
            cases present
  · rintro (⟨record, rest, rfl, stays⟩ | all)
    · obtain ⟨failure, refused⟩ := @acknowledge_refused _ _ _ _ rest stays
      refine ⟨?_, ?_, ?_⟩
      · intro _ _
        rw [refused]
      · intro done
        rw [refused] at done
        cases done
      · simp [commitAccepted, refused]
    · have ok := acknowledge_ok_iff.mpr all
      have removes := removes_of_ok ok
      refine ⟨?_, fun _ path => removes.lookup path, ?_⟩
      · intro failure failed
        rw [ok] at failed
        cases failed
      cases records with
      | nil => simp [commitAccepted]
      | cons record rest =>
          have gone := removes.count
          have committed : commitAccepted faults now (record :: rest) files metrics =
              ((acknowledge faults (record :: rest) files).1,
                { metrics with
                  queued := metrics.queued - UInt64.ofNat (record :: rest).length
                  sent := metrics.sent + UInt64.ofNat (record :: rest).length
                  lastAcknowledgementUnixNanos := now }, true) := by
            cases answer : acknowledge faults (record :: rest) files with
            | mk after result =>
                rw [answer] at ok
                obtain rfl : result = .ok () := ok
                rw [commitAccepted, answer]
                rfl
          have difference : recordCount files -
              recordCount (acknowledge faults (record :: rest) files).1 =
                (record :: rest).length := by
            rw [recordCount, recordCount, ← gone, Nat.add_sub_cancel_left]
          rw [committed]
          dsimp only
          rw [difference]
          exact ⟨rfl, rfl⟩

end Commit

/-! ## A removal that fails -/

def healthRecord (sequence : Nat) : TelemetryEnvelope where
  schemaVersion := 1
  messageId := "node-1-1"
  nodeId := "node"
  sequence := sequence
  observedAtUnixNanos := 1
  kind := .health
  payload := .bool true
  attributes := ∅

def twoRecords : SpoolFiles Unit where
  records := ((∅ : Directory Unit).insert (recordName 1) ⟨(), 0⟩).insert (recordName 2) ⟨(), 0⟩

/-- The removal of the second record fails, and the first one is gone. -/
theorem failed_removal_drops_first :
    ¬ ∀ (faults : Faults) (now : UInt64) (records : List TelemetryEnvelope)
      (files : SpoolFiles Unit) (metrics : ExportMetrics),
      AllOrNothing faults now records files metrics := by
  intro whole
  have atomic := whole { removeRecord := fun name => name == recordName 2 } 0
    [healthRecord 1, healthRecord 2] twoRecords {}
  have names : recordName 1 ≠ recordName 2 := fun same => absurd (recordName_injective same) (by decide)
  have first : Removable { removeRecord := fun name => name == recordName 2 } twoRecords
      (healthRecord 1) := by
    simp [Removable, twoRecords, healthRecord, names]
  have second : ¬Removable { removeRecord := fun name => name == recordName 2 } { twoRecords with
      records := twoRecords.records.erase (recordName (healthRecord 1).sequence) }
      (healthRecord 2) := by
    simp [Removable, healthRecord]
  obtain ⟨failure, refused⟩ := @acknowledge_refused _ _ _ _ [] second
  rw [← acknowledge_cons first] at refused
  have unchanged := atomic.refused failure (by rw [refused])
  rw [refused] at unchanged
  have lookup := congrArg (fun files => files.records[recordName 1]?) unchanged
  simp [twoRecords, healthRecord, Ne.symm names] at lookup

end SystemPilot.Agent
