import Mathlib.Tactic
import SystemPilot.Cloud.ExactlyOnce

/-!
# Sequence gaps

`node_sequence_state` has a column for the gaps below the high-water mark of a
node.  The statement of `record_batch_state` writes the mark only, so the column
keeps its default: the gaps are recorded while there are none.
-/

set_option autoImplicit false

namespace SystemPilot.Cloud

open SystemPilot.Library
open SystemPilot.Telemetry

section SequenceGaps

variable {Bytes Digest : Type} {service : Service Bytes Digest}

/-- The row of a node in `node_sequence_state`. -/
def sequenceStateOf (db : Database Digest) (tenantId : Uuid) (nodeId : String) :
    Option SequenceStateRow :=
  db.nodeSequenceState.find? (SequenceStateRow.isNode tenantId nodeId)

theorem highWaterMark_eq (db : Database Digest) (tenantId : Uuid) (nodeId : String) :
    highWaterMark db tenantId nodeId =
      (sequenceStateOf db tenantId nodeId).map SequenceStateRow.highestAcceptedSequence := rfl

/-- The gaps of a node are the sequences below its mark that no record it had
accepted carries. -/
def GapsRecorded (state : Ingestion Digest) (tenantId : Uuid) (nodeId : String) : Prop :=
  ∀ row, sequenceStateOf state.db tenantId nodeId = some row →
    ∀ sequence : Nat, row.gapRanges.contains sequence = true ↔
      1 ≤ sequence ∧ sequence ≤ row.highestAcceptedSequence ∧
        ∀ record ∈ recordsOf state.accepted tenantId nodeId, record.sequence ≠ sequence

/-- No sequence from the first to a record of the list is left out. -/
def Unbroken (records : List TelemetryEnvelope) : Prop :=
  ∀ record ∈ records, 1 < record.sequence →
    ∃ earlier ∈ records, earlier.sequence + 1 = record.sequence

/-! ## Unbroken sequences -/

theorem Unbroken.below {records : List TelemetryEnvelope} (unbroken : Unbroken records) :
    ∀ (distance sequence : Nat), 1 ≤ sequence →
      (∃ record ∈ records, record.sequence = sequence + distance) →
      ∃ record ∈ records, record.sequence = sequence := by
  intro distance
  induction distance with
  | zero =>
      intro sequence _ found
      exact found
  | succ distance inductionHypothesis =>
      rintro sequence positive ⟨record, member, carries⟩
      obtain ⟨earlier, earlierMember, next⟩ := unbroken record member (by omega)
      exact inductionHypothesis sequence positive ⟨earlier, earlierMember, by omega⟩

theorem highestSequence_of_mem {records : List TelemetryEnvelope} {record : TelemetryEnvelope}
    (member : record ∈ records) :
    ∃ highest, highestSequence records = some highest ∧ record.sequence ≤ highest := by
  have carried : record.sequence ∈ records.map TelemetryEnvelope.sequence :=
    List.mem_map_of_mem member
  cases found : highestSequence records with
  | none =>
      rw [highestSequence, List.max?_eq_none_iff] at found
      rw [found] at carried
      contradiction
  | some highest => exact ⟨highest, rfl, (List.max?_eq_some_iff.mp found).2 _ carried⟩

/-- A list is unbroken when no sequence up to its highest is missing. -/
theorem unbroken_iff (records : List TelemetryEnvelope) :
    Unbroken records ↔ ∀ highest, highestSequence records = some highest →
      ∀ sequence, 1 ≤ sequence → sequence ≤ highest →
        ∃ record ∈ records, record.sequence = sequence := by
  constructor
  · intro unbroken highest found sequence positive bounded
    obtain ⟨record, member, carries⟩ := List.mem_map.mp (List.max?_mem found)
    exact unbroken.below (highest - sequence) sequence positive
      ⟨record, member, by omega⟩
  · intro complete record member late
    obtain ⟨highest, found, bounded⟩ := highestSequence_of_mem member
    obtain ⟨earlier, earlierMember, carries⟩ :=
      complete highest found (record.sequence - 1) (by omega) (by omega)
    exact ⟨earlier, earlierMember, by omega⟩

/-! ## The column keeps its default -/

/-- No row records a gap. -/
def NoGapsWritten (db : Database Digest) : Prop :=
  ∀ row ∈ db.nodeSequenceState, row.gapRanges = .empty

theorem NoGapsWritten.batchState {db : Database Digest} (unwritten : NoGapsWritten db)
    (environment : StatementEnvironment Digest) (tenantId : Uuid) (nodeId : String)
    (highest : Option Nat) :
    NoGapsWritten (batchStateEffect environment tenantId nodeId highest db) := by
  cases highest with
  | none => exact unwritten
  | some highest =>
      intro row member
      simp only [batchStateEffect, Table.upsert] at member
      split at member
      · rcases Table.mem_update.mp member with ⟨kept, _⟩ | ⟨old, kept, _, rfl⟩
        · exact unwritten row kept
        · exact unwritten old kept
      · rcases List.mem_append.mp member with kept | new
        · exact unwritten row kept
        · rw [List.mem_singleton.mp new]

variable [DecidableEq Digest]

theorem NoGapsWritten.ingestStep {state : Ingestion Digest} (unwritten : NoGapsWritten state.db)
    (request : Request Digest) : NoGapsWritten (ingestStep service state request).db := by
  rcases ingestStep_cases service state request with
    ⟨_, _, unchanged⟩ | ⟨after, acknowledgement, _, committed, stepped⟩
  · rw [unchanged]
    exact unwritten
  · obtain ⟨ownTenant, ownNode, recorded, _, _, _, _, steps, _, rfl⟩ := committed
    rw [stepped]
    have before : NoGapsWritten recorded := by
      intro row member
      rw [steps.sequenceState] at member
      exact unwritten row member
    exact before.batchState _ _ _ _

/-- What the rows of the sequence state are in every run. -/
structure MarksOnly (state : Ingestion Digest) : Prop where
  water : HighWater state
  unwritten : NoGapsWritten state.db

theorem MarksOnly.ingestStep {state : Ingestion Digest} (marks : MarksOnly state)
    (request : Request Digest) : MarksOnly (ingestStep service state request) :=
  ⟨ingestStep_highWater service state request marks.water, marks.unwritten.ingestStep request⟩

omit [DecidableEq Digest] in
/-- While no gap is written, the gaps are recorded when there are none. -/
theorem MarksOnly.gapsRecorded_iff {state : Ingestion Digest} (marks : MarksOnly state)
    (tenantId : Uuid) (nodeId : String) :
    GapsRecorded state tenantId nodeId ↔ Unbroken (recordsOf state.accepted tenantId nodeId) := by
  have marked := marks.water tenantId nodeId
  rw [highWaterMark_eq] at marked
  rw [unbroken_iff]
  constructor
  · intro recorded highest found sequence positive bounded
    rw [found] at marked
    obtain ⟨row, stored, rfl⟩ := Option.map_eq_some_iff.mp marked
    have unrecorded : row.gapRanges.contains sequence = false := by
      rw [marks.unwritten row (List.mem_of_find?_eq_some stored), Int8Multirange.contains_empty]
    by_contra missing
    have gap := (recorded row stored sequence).mpr
      ⟨positive, bounded, fun record member carries => missing ⟨record, member, carries⟩⟩
    rw [unrecorded] at gap
    contradiction
  · intro complete row stored sequence
    rw [stored] at marked
    rw [marks.unwritten row (List.mem_of_find?_eq_some stored), Int8Multirange.contains_empty]
    constructor
    · intro contained
      contradiction
    · rintro ⟨positive, bounded, missing⟩
      obtain ⟨record, member, carries⟩ := complete _ marked.symm sequence positive bounded
      exact absurd carries (missing record member)

/-! ## Records in order -/

variable (service) in
/-- The records of a node that a request has accepted. -/
def acceptedNow (state : Ingestion Digest) (request : Request Digest) (tenantId : Uuid)
    (nodeId : String) : List TelemetryEnvelope :=
  match ingest service state.db request, requestIdentity service state.db request with
  | (_, .ok _), some identity =>
      if identity = (tenantId, nodeId) then acceptedOf (requestDecisions service state.db request)
      else []
  | _, _ => []

variable (service) in
/-- A record of the node is accepted after the one before it, or with it. -/
def InOrder (tenantId : Uuid) (nodeId : String) (state : Ingestion Digest)
    (request : Request Digest) : Prop :=
  ∀ record ∈ acceptedNow service state request tenantId nodeId, 1 < record.sequence →
    ∃ earlier ∈ recordsOf state.accepted tenantId nodeId ++
        acceptedNow service state request tenantId nodeId,
      earlier.sequence + 1 = record.sequence

theorem recordsOf_ingestStep (state : Ingestion Digest) (request : Request Digest)
    (tenantId : Uuid) (nodeId : String) :
    recordsOf (ingestStep service state request).accepted tenantId nodeId =
      recordsOf state.accepted tenantId nodeId ++
        acceptedNow service state request tenantId nodeId := by
  rcases ingestStep_cases service state request with
    ⟨failure, failed, unchanged⟩ | ⟨after, acknowledgement, ran, committed, stepped⟩
  · rw [unchanged, acceptedNow, failed, List.append_nil]
  · have own : ∀ decision ∈ requestDecisions service state.db request,
        decision.1.nodeId = committed.nodeId := by
      intro decision member
      apply committed.ownNode
      rw [← committed.records]
      exact List.mem_map_of_mem member
    rw [stepped, acceptedNow, ran, committed.identity]
    simp only
    rw [← recordsOf_acceptancesOf _ _ _ _ _ own]
    simp only [recordsOf, List.filter_append, List.map_append]

theorem Unbroken.ingestStep_iff {state : Ingestion Digest} {request : Request Digest}
    {tenantId : Uuid} {nodeId : String}
    (unbroken : Unbroken (recordsOf state.accepted tenantId nodeId)) :
    Unbroken (recordsOf (ingestStep service state request).accepted tenantId nodeId) ↔
      InOrder service tenantId nodeId state request := by
  rw [recordsOf_ingestStep]
  constructor
  · intro whole record member late
    exact whole record (List.mem_append_right _ member) late
  · intro ordered record member late
    rcases List.mem_append.mp member with old | new
    · obtain ⟨earlier, earlierMember, next⟩ := unbroken record old late
      exact ⟨earlier, List.mem_append_left _ earlierMember, next⟩
    · exact ordered record new late

/-- Over every history of requests the gaps of a node are recorded in every state
reached exactly when no record of the node is accepted before the one it
follows. -/
theorem gaps_recorded_iff (db : Database Digest) (unused : db.nodeSequenceState = [])
    (tenantId : Uuid) (nodeId : String) (requests : List (Request Digest)) :
    (∀ before after, requests = before ++ after →
      GapsRecorded (Machine.run (ingestStep service) ⟨db, []⟩ before) tenantId nodeId) ↔
    Machine.EveryStep (ingestStep service) (InOrder service tenantId nodeId) ⟨db, []⟩
      requests := by
  have initial : MarksOnly (⟨db, []⟩ : Ingestion Digest) := by
    refine ⟨fun tenantId nodeId => ?_, fun row member => ?_⟩
    · rw [highWaterMark, unused]
      rfl
    · rw [unused] at member
      contradiction
  have marks : ∀ before, MarksOnly (Machine.run (ingestStep service) ⟨db, []⟩ before) := by
    intro before
    exact Machine.run_invariant_always _ MarksOnly
      (fun state request holds => holds.ingestStep request) _ before initial
  have nothing : Unbroken (recordsOf (⟨db, []⟩ : Ingestion Digest).accepted tenantId nodeId) := by
    intro record member
    contradiction
  calc (∀ before after, requests = before ++ after →
        GapsRecorded (Machine.run (ingestStep service) ⟨db, []⟩ before) tenantId nodeId)
      ↔ ∀ before after, requests = before ++ after →
          Unbroken (recordsOf (Machine.run (ingestStep service) ⟨db, []⟩ before).accepted
            tenantId nodeId) := by
        simp only [(marks _).gapsRecorded_iff]
    _ ↔ Machine.EveryStep (ingestStep service)
          (fun state request => Unbroken
            (recordsOf (ingestStep service state request).accepted tenantId nodeId))
          ⟨db, []⟩ requests := by
        rw [Machine.reached_iff (ingestStep service)
          (fun state => Unbroken (recordsOf state.accepted tenantId nodeId))]
        exact and_iff_right nothing
    _ ↔ _ := Machine.everyStep_iff_of_established (ingestStep service)
        (fun state => Unbroken (recordsOf state.accepted tenantId nodeId)) _ _
        (fun _ _ _ holds => holds) (fun _ _ unbroken => unbroken.ingestStep_iff) _ requests nothing

end SequenceGaps

/-- The two records of a node arrive in order, in requests of their own. -/
theorem gaps_recorded_in_order :
    GapsRecorded (Machine.run (ingestStep plainService) ⟨plainDatabase, []⟩
      [plainRequest "nodea" [plainRecord "nodea" 1], plainRequest "nodea" [plainRecord "nodea" 2]])
      1 "nodea" := by
  refine (gaps_recorded_iff plainDatabase rfl 1 "nodea" _).mpr ?_ _ [] (List.append_nil _).symm
  rw [Machine.everyStep_cons, Machine.everyStep_cons]
  refine ⟨?_, ?_, by simp [Machine.EveryStep, Machine.visited]⟩
  · have first : ∀ record ∈ acceptedNow plainService ⟨plainDatabase, []⟩
        (plainRequest "nodea" [plainRecord "nodea" 1]) 1 "nodea", ¬1 < record.sequence := by
      decide +kernel
    exact fun record member late => absurd late (first record member)
  · have follows : ∀ record ∈ acceptedNow plainService
        (ingestStep plainService ⟨plainDatabase, []⟩ (plainRequest "nodea" [plainRecord "nodea" 1]))
        (plainRequest "nodea" [plainRecord "nodea" 2]) 1 "nodea", record.sequence = 2 := by
      decide +kernel
    have known : ∃ record ∈ recordsOf (ingestStep plainService ⟨plainDatabase, []⟩
        (plainRequest "nodea" [plainRecord "nodea" 1])).accepted 1 "nodea",
          record.sequence = 1 := by
      decide +kernel
    intro record member _
    obtain ⟨earlier, earlierMember, carries⟩ := known
    exact ⟨earlier, List.mem_append_left _ earlierMember, by rw [carries, follows record member]⟩

/-- The second record of a node is accepted first: the mark is 2, the first
sequence is missing, and no gap is recorded. -/
theorem first_gap_hidden :
    ¬GapsRecorded (Machine.run (ingestStep plainService) ⟨plainDatabase, []⟩
      [plainRequest "nodea" [plainRecord "nodea" 2]]) 1 "nodea" := by
  intro recorded
  have stored : (sequenceStateOf (Machine.run (ingestStep plainService) ⟨plainDatabase, []⟩
      [plainRequest "nodea" [plainRecord "nodea" 2]]).db 1 "nodea").map
        (fun row => (row.highestAcceptedSequence, row.gapRanges)) = some (2, .empty) := by
    decide +kernel
  have accepted : ∀ record ∈ recordsOf (Machine.run (ingestStep plainService) ⟨plainDatabase, []⟩
      [plainRequest "nodea" [plainRecord "nodea" 2]]).accepted 1 "nodea",
        record.sequence ≠ 1 := by
    decide +kernel
  obtain ⟨row, found, columns⟩ := Option.map_eq_some_iff.mp stored
  rw [Prod.mk.injEq] at columns
  have gap := (recorded row found 1).mpr ⟨by omega, by omega, accepted⟩
  rw [columns.2] at gap
  contradiction

end SystemPilot.Cloud
