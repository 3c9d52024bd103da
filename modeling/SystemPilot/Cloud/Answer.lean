import Mathlib.Tactic
import SystemPilot.Cloud.IngestEffects

/-!
# The collector's answers

The acknowledgement the loop accumulates, as a function of the decisions, and
the agent's validation of it: an answer to a batch with distinct message
identifiers is always intelligible to the agent.
-/

set_option autoImplicit false

namespace SystemPilot.Cloud

open SystemPilot.Text
open SystemPilot.Telemetry

/-- A decision accepts its record. -/
def isAccepted (decision : Decision) : Bool :=
  decision.2 == .accepted

/-- The records a list of decisions accepts, in order. -/
def acceptedOf (decisions : List Decision) : List TelemetryEnvelope :=
  (decisions.filter isAccepted).map Prod.fst

/-- The reason the handler gives for a refusal. -/
def refusalReason : InsertOutcome → String
  | .replayConflict => "message_id_content_conflict"
  | _ => "sequence_conflict"

/-- The refusals of a list of decisions, in order. -/
def rejectedOf (decisions : List Decision) : List RejectedRecord :=
  (decisions.filter fun decision => !isAccepted decision).map fun decision =>
    ⟨decision.1.messageId, refusalReason decision.2⟩

/-- The loop accumulates the accepted identifiers, the highest accepted
sequence and the refusals. -/
theorem acknowledgementOf_eq (decisions : List Decision) (start : IngestionAcknowledgement) :
    acknowledgementOf decisions start = { start with
      acceptedMessageIds := start.acceptedMessageIds ++
        (acceptedOf decisions).map TelemetryEnvelope.messageId
      highestAcceptedSequence := match highestSequence (acceptedOf decisions) with
        | none => start.highestAcceptedSequence
        | some highest => some (max (start.highestAcceptedSequence.getD 0) highest)
      rejectedRecords := start.rejectedRecords ++ rejectedOf decisions } := by
  induction decisions generalizing start with
  | nil => simp [acknowledgementOf, acceptedOf, rejectedOf, highestSequence]
  | cons decision rest inductionHypothesis =>
      have unfolded : acknowledgementOf (decision :: rest) start =
          acknowledgementOf rest (recordOutcome decision.1 start decision.2) := rfl
      rw [unfolded, inductionHypothesis]
      obtain ⟨record, outcome⟩ := decision
      cases outcome with
      | accepted =>
          have accepted : acceptedOf ((record, .accepted) :: rest) = record :: acceptedOf rest := rfl
          have rejected : rejectedOf ((record, .accepted) :: rest) = rejectedOf rest := rfl
          rw [accepted, rejected]
          simp only [recordOutcome, List.map_cons, List.append_assoc, List.singleton_append]
          rw [highestSequence_cons]
          cases highestSequence (acceptedOf rest) with
          | none => rfl
          | some value => simp [max_assoc]
      | sequenceConflict =>
          have accepted : acceptedOf ((record, .sequenceConflict) :: rest) = acceptedOf rest := rfl
          have rejected : rejectedOf ((record, .sequenceConflict) :: rest) =
              ⟨record.messageId, "sequence_conflict"⟩ :: rejectedOf rest := rfl
          rw [accepted, rejected]
          simp [recordOutcome]
      | replayConflict =>
          have accepted : acceptedOf ((record, .replayConflict) :: rest) = acceptedOf rest := rfl
          have rejected : rejectedOf ((record, .replayConflict) :: rest) =
              ⟨record.messageId, "message_id_content_conflict"⟩ :: rejectedOf rest := rfl
          rw [accepted, rejected]
          simp [recordOutcome]

theorem acknowledgementOf_fresh (decisions : List Decision) :
    acknowledgementOf decisions {} = {
      acceptedMessageIds := (acceptedOf decisions).map TelemetryEnvelope.messageId
      highestAcceptedSequence := highestSequence (acceptedOf decisions)
      rejectedRecords := rejectedOf decisions
      retryAfterMs := none } := by
  rw [acknowledgementOf_eq]
  cases highestSequence (acceptedOf decisions) <;> simp

/-- Every record is decided, as often as it was submitted. -/
theorem decidedIds_perm (decisions : List Decision) :
    (acknowledgementOf decisions {}).decidedIds.Perm
      (decisions.map fun decision => decision.1.messageId) := by
  rw [acknowledgementOf_fresh, IngestionAcknowledgement.decidedIds]
  have split := (List.filter_append_perm isAccepted decisions).map
    fun decision : Decision => decision.1.messageId
  rw [List.map_append] at split
  simpa [acceptedOf, rejectedOf, List.map_map, Function.comp_def] using split

/-- With distinct identifiers the accepted records are those decided so. -/
theorem acceptedRecords_acknowledgementOf (decisions : List Decision)
    (distinct : (decisions.map fun decision => decision.1.messageId).Nodup) :
    (acknowledgementOf decisions {}).acceptedRecords (decisions.map Prod.fst) =
      acceptedOf decisions := by
  rw [acknowledgementOf_fresh, IngestionAcknowledgement.acceptedRecords, acceptedOf,
    List.filter_map]
  congr 1
  apply List.filter_congr
  intro decision member
  rw [Function.comp_apply, List.map_map, Bool.eq_iff_iff, List.contains_iff_mem, List.mem_map]
  constructor
  · rintro ⟨other, chosen, same⟩
    obtain ⟨otherMember, accepted⟩ := List.mem_filter.mp chosen
    have equal : other = decision := List.inj_on_of_nodup_map distinct otherMember member same
    rw [← equal]
    exact accepted
  · intro accepted
    exact ⟨decision, List.mem_filter.mpr ⟨member, accepted⟩, rfl⟩

theorem refusalReason_not_blank (outcome : InsertOutcome) :
    isBlank (refusalReason outcome) = false := by
  cases outcome <;> decide

/-- The agent accepts the answer to any decisions on a batch with distinct
identifiers. -/
theorem acknowledgementOf_valid (decisions : List Decision) (nonempty : decisions ≠ [])
    (distinct : (decisions.map fun decision => decision.1.messageId).Nodup) :
    (acknowledgementOf decisions {}).ValidFor (decisions.map Prod.fst) := by
  have decided := decidedIds_perm decisions
  constructor
  · intro id member
    rw [List.map_map]
    exact decided.subset member
  · exact decided.nodup_iff.mpr distinct
  · intro rejected member
    rw [acknowledgementOf_fresh] at member
    obtain ⟨decision, _, rfl⟩ := List.mem_map.mp member
    exact refusalReason_not_blank decision.2
  · intro sequence highest
    rw [acceptedRecords_acknowledgementOf decisions distinct]
    rw [acknowledgementOf_fresh] at highest
    exact highest
  · intro milliseconds delay
    rw [acknowledgementOf_fresh] at delay
    contradiction
  · intro none
    rw [none] at decided
    have empty := decided.symm.eq_nil
    exact nonempty (by simpa using empty)

theorem validateBatch_nonempty (batch : List TelemetryEnvelope)
    (checked : validateBatch batch = .ok ()) : batch ≠ [] := by
  rintro rfl
  simp [validateBatch] at checked

section Intelligible

variable {Bytes Digest : Type} [DecidableEq Digest] (service : Service Bytes Digest)

/-- Every answer to a batch with distinct message identifiers passes the
agent's validation, decides every record once and reports the highest accepted
sequence exactly when something was accepted. -/
theorem ingest_answer_intelligible (db after : Database Digest) (request : Request Digest)
    (acknowledgement : IngestionAcknowledgement)
    (distinct : (request.batch.map TelemetryEnvelope.messageId).Nodup)
    (answered : ingest service db request = (after, .ok acknowledgement)) :
    acknowledgement.validate request.batch = .ok () ∧
      (∀ record ∈ request.batch, acknowledgement.decidedIds.count record.messageId = 1) ∧
      acknowledgement.decidedIds.length = request.batch.length ∧
      (acknowledgement.highestAcceptedSequence.isSome ↔
        acknowledgement.acceptedMessageIds ≠ []) ∧
      acknowledgement.highestAcceptedSequence =
        highestSequence (acknowledgement.acceptedRecords request.batch) := by
  rcases ingest_cases service db request with ⟨failure, failed⟩ | ⟨after', answer, ran, ⟨committed⟩⟩
  · rw [failed] at answered
    cases answered
  · rw [ran] at answered
    cases answered
    obtain ⟨tenantId, nodeId, recorded, checked, identity, ownNode, records, steps, rfl,
      committed⟩ := committed
    generalize requestDecisions service db request = decisions at records steps committed
    have nonempty := validateBatch_nonempty _ checked
    rw [← records] at distinct nonempty ⊢
    rw [List.map_map] at distinct
    have decided := decidedIds_perm decisions
    refine ⟨?_, ?_, ?_, ?_, ?_⟩
    · rw [IngestionAcknowledgement.validate_ok_iff]
      exact acknowledgementOf_valid decisions (by simpa using nonempty) distinct
    · intro record member
      have submitted : record.messageId ∈ decisions.map fun decision => decision.1.messageId := by
        obtain ⟨decision, chosen, rfl⟩ := List.mem_map.mp member
        exact List.mem_map.mpr ⟨decision, chosen, rfl⟩
      rw [decided.count_eq]
      exact List.count_eq_one_of_mem distinct submitted
    · rw [decided.length_eq, List.length_map, List.length_map]
    · rw [acknowledgementOf_fresh]
      simp only [Option.isSome_iff_ne_none, ne_eq, highestSequence_eq_none_iff,
        List.map_eq_nil_iff]
    · rw [acceptedRecords_acknowledgementOf decisions distinct, acknowledgementOf_fresh]

end Intelligible

theorem ingest_answer_intelligible_plain :
    let acknowledgement : IngestionAcknowledgement := {
      acceptedMessageIds := ["nodea-1", "nodea-2"], highestAcceptedSequence := some 2 }
    acknowledgement.validate [plainRecord "nodea" 1, plainRecord "nodea" 2] = .ok () :=
  (ingest_answer_intelligible plainService plainDatabase
    (ingest plainService plainDatabase
      (plainRequest "nodea" [plainRecord "nodea" 1, plainRecord "nodea" 2])).1
    (plainRequest "nodea" [plainRecord "nodea" 1, plainRecord "nodea" 2])
    { acceptedMessageIds := ["nodea-1", "nodea-2"], highestAcceptedSequence := some 2 }
    (by decide) rfl).1

end SystemPilot.Cloud
