import Mathlib.Tactic
import SystemPilot.Text
import SystemPilot.Telemetry.Envelope

/-!
# Ingestion acknowledgements

The collector's answer for a batch and the agent's validation of it.  The two
loops of `validate` share one set of decided identifiers; their specification
is that the accepted and then the rejected identifiers are pairwise distinct
and were submitted.
-/

set_option autoImplicit false

namespace SystemPilot.Telemetry

open SystemPilot.Text

structure RejectedRecord where
  messageId : String
  reason : String
  deriving DecidableEq, Repr

structure IngestionAcknowledgement where
  acceptedMessageIds : List String := []
  highestAcceptedSequence : Option Nat := none
  rejectedRecords : List RejectedRecord := []
  retryAfterMs : Option Nat := none
  deriving DecidableEq, Repr

/-- The largest sequence of a list of records: `iter().map(..).max()`. -/
def highestSequence (records : List TelemetryEnvelope) : Option Nat :=
  (records.map TelemetryEnvelope.sequence).max?

theorem highestSequence_cons (record : TelemetryEnvelope) (rest : List TelemetryEnvelope) :
    highestSequence (record :: rest) =
      some ((highestSequence rest).elim record.sequence (max record.sequence)) := by
  rw [highestSequence, List.map_cons, List.max?_cons]
  rfl

theorem highestSequence_append (first second : List TelemetryEnvelope) :
    highestSequence (first ++ second) =
      (highestSequence first).merge max (highestSequence second) := by
  induction first with
  | nil =>
      rw [List.nil_append, show highestSequence [] = none from rfl, Option.merge_none_left]
  | cons record rest inductionHypothesis =>
      rw [List.cons_append, highestSequence_cons, highestSequence_cons, inductionHypothesis]
      cases highestSequence rest <;> cases highestSequence second <;> simp [max_assoc]

theorem highestSequence_eq_none_iff (records : List TelemetryEnvelope) :
    highestSequence records = none ↔ records = [] := by
  rw [highestSequence, List.max?_eq_none_iff, List.map_eq_nil_iff]

namespace IngestionAcknowledgement

def wholeBatch (batch : List TelemetryEnvelope) : IngestionAcknowledgement where
  acceptedMessageIds := batch.map TelemetryEnvelope.messageId
  highestAcceptedSequence := highestSequence batch

/-- The records of a batch an acknowledgement accepts. -/
def acceptedRecords (acknowledgement : IngestionAcknowledgement)
    (batch : List TelemetryEnvelope) : List TelemetryEnvelope :=
  batch.filter fun record => acknowledgement.acceptedMessageIds.contains record.messageId

/-- The first loop of `validate`: each accepted identifier joins `decided`. -/
def decideAccepted (submitted : List String) :
    List String → List String → AppResult (List String)
  | [], decided => .ok decided
  | id :: rest, decided =>
      if id ∉ submitted ∨ id ∈ decided then
        .error (.protocol ("collector acknowledgement contains unknown or duplicate " ++
          "accepted message ID: " ++ id))
      else
        decideAccepted submitted rest (id :: decided)

/-- The second loop of `validate`: each rejected record joins `decided`. -/
def decideRejected (submitted : List String) :
    List RejectedRecord → List String → AppResult (List String)
  | [], decided => .ok decided
  | rejected :: rest, decided =>
      if isBlank rejected.reason ∨ rejected.messageId ∉ submitted ∨
          rejected.messageId ∈ decided then
        .error (.protocol ("collector acknowledgement contains invalid rejected record: " ++
          rejected.messageId))
      else
        decideRejected submitted rest (rejected.messageId :: decided)

/-- The checks of `validate` after its loops: the high-water mark against the
accepted records, the retry delay, and that something was decided. -/
def checkDecision (acknowledgement : IngestionAcknowledgement)
    (batch : List TelemetryEnvelope) (decided : List String) : AppResult Unit :=
  if acknowledgement.highestAcceptedSequence.isSome ∧
      highestSequence (acknowledgement.acceptedRecords batch) ≠
        acknowledgement.highestAcceptedSequence then
    .error (.protocol
      "collector highest accepted sequence does not match accepted message IDs")
  else if acknowledgement.retryAfterMs.any fun delay => delay > 86400000 then
    .error (.protocol "collector retry_after_ms exceeds the one-day safety bound")
  else if decided.isEmpty then
    .error (.protocol "collector acknowledgement made no decision for the submitted batch")
  else
    .ok ()

def validate (acknowledgement : IngestionAcknowledgement)
    (batch : List TelemetryEnvelope) : AppResult Unit := do
  let submitted := batch.map TelemetryEnvelope.messageId
  let accepted ← decideAccepted submitted acknowledgement.acceptedMessageIds []
  let decided ← decideRejected submitted acknowledgement.rejectedRecords accepted
  checkDecision acknowledgement batch decided

/-- The identifiers an acknowledgement decides, in order. -/
def decidedIds (acknowledgement : IngestionAcknowledgement) : List String :=
  acknowledgement.acceptedMessageIds ++
    acknowledgement.rejectedRecords.map RejectedRecord.messageId

/-- An acknowledgement `validate` accepts for a batch. -/
structure ValidFor (acknowledgement : IngestionAcknowledgement)
    (batch : List TelemetryEnvelope) : Prop where
  submitted : ∀ id ∈ acknowledgement.decidedIds, id ∈ batch.map TelemetryEnvelope.messageId
  distinct : acknowledgement.decidedIds.Nodup
  reasons : ∀ rejected ∈ acknowledgement.rejectedRecords, isBlank rejected.reason = false
  highest : ∀ sequence, acknowledgement.highestAcceptedSequence = some sequence →
    highestSequence (acknowledgement.acceptedRecords batch) = some sequence
  delay : ∀ milliseconds, acknowledgement.retryAfterMs = some milliseconds →
    milliseconds ≤ 86400000
  decides : acknowledgement.decidedIds ≠ []

theorem decideAccepted_ok_iff (submitted ids decided result : List String) :
    decideAccepted submitted ids decided = .ok result ↔
      (∀ id ∈ ids, id ∈ submitted ∧ id ∉ decided) ∧ ids.Nodup ∧
        result = ids.reverse ++ decided := by
  induction ids generalizing decided with
  | nil => simp [decideAccepted, eq_comm]
  | cons id rest inductionHypothesis =>
      rw [decideAccepted]
      split
      · rename_i refused
        constructor
        · intro accepted
          contradiction
        · rintro ⟨members, _, _⟩
          have head := members id (by simp)
          rcases refused with unknown | duplicate
          · exact absurd head.1 unknown
          · exact absurd duplicate head.2
      · rename_i admitted
        rw [not_or, not_not] at admitted
        rw [inductionHypothesis]
        simp only [List.mem_cons, not_or, forall_eq_or_imp, List.nodup_cons, List.reverse_cons,
          List.append_assoc, List.singleton_append]
        constructor
        · rintro ⟨members, distinct, exact_⟩
          exact ⟨⟨admitted, fun other member =>
              ⟨(members other member).1, (members other member).2.2⟩⟩,
            ⟨fun again => (members id again).2.1 rfl, distinct⟩, exact_⟩
        · rintro ⟨⟨_, members⟩, ⟨absent, distinct⟩, exact_⟩
          refine ⟨fun other member => ⟨(members other member).1, ?_, (members other member).2⟩,
            distinct, exact_⟩
          rintro rfl
          exact absent member

theorem decideRejected_ok_iff (submitted : List String) (records : List RejectedRecord)
    (decided result : List String) :
    decideRejected submitted records decided = .ok result ↔
      (∀ rejected ∈ records, isBlank rejected.reason = false) ∧
        (∀ id ∈ records.map RejectedRecord.messageId, id ∈ submitted ∧ id ∉ decided) ∧
        (records.map RejectedRecord.messageId).Nodup ∧
        result = (records.map RejectedRecord.messageId).reverse ++ decided := by
  induction records generalizing decided with
  | nil =>
      simp only [decideRejected, Except.ok.injEq, List.map_nil, List.not_mem_nil,
        IsEmpty.forall_iff, implies_true, List.nodup_nil, List.reverse_nil, List.nil_append,
        true_and]
      exact eq_comm
  | cons rejected rest inductionHypothesis =>
      rw [decideRejected]
      split
      · rename_i refused
        constructor
        · intro accepted
          contradiction
        · rintro ⟨reasons, members, _, _⟩
          have head := members rejected.messageId (by simp)
          have reason := reasons rejected (by simp)
          rcases refused with blank | unknown | duplicate
          · rw [reason] at blank
            contradiction
          · exact absurd head.1 unknown
          · exact absurd duplicate head.2
      · rename_i admitted
        simp only [not_or, not_not, Bool.not_eq_true] at admitted
        rw [inductionHypothesis]
        simp only [List.map_cons, List.mem_cons, not_or, forall_eq_or_imp, List.nodup_cons,
          List.reverse_cons, List.append_assoc, List.singleton_append]
        constructor
        · rintro ⟨reasons, members, distinct, exact_⟩
          exact ⟨⟨admitted.1, reasons⟩, ⟨admitted.2, fun other member =>
              ⟨(members other member).1, (members other member).2.2⟩⟩,
            ⟨fun again => (members rejected.messageId again).2.1 rfl, distinct⟩, exact_⟩
        · rintro ⟨⟨_, reasons⟩, ⟨_, members⟩, ⟨absent, distinct⟩, exact_⟩
          refine ⟨reasons,
            fun other member => ⟨(members other member).1, ?_, (members other member).2⟩,
            distinct, exact_⟩
          rintro rfl
          exact absent member

/-- Both loops of `validate` succeed exactly on distinct, submitted
identifiers whose rejections carry a reason. -/
theorem decide_ok_iff (acknowledgement : IngestionAcknowledgement)
    (submitted decided : List String) :
    (do
        let accepted ← decideAccepted submitted acknowledgement.acceptedMessageIds []
        decideRejected submitted acknowledgement.rejectedRecords accepted) = .ok decided ↔
      (∀ id ∈ acknowledgement.decidedIds, id ∈ submitted) ∧
        acknowledgement.decidedIds.Nodup ∧
        (∀ rejected ∈ acknowledgement.rejectedRecords, isBlank rejected.reason = false) ∧
        decided = acknowledgement.decidedIds.reverse := by
  simp only [bind, Except.bind]
  constructor
  · intro success
    cases first : decideAccepted submitted acknowledgement.acceptedMessageIds [] with
    | error failure => simp [first] at success
    | ok accepted =>
        rw [first] at success
        obtain ⟨members, distinct, exact_⟩ := (decideAccepted_ok_iff _ _ _ _).mp first
        obtain ⟨reasons, rejectedMembers, rejectedDistinct, result⟩ :=
          (decideRejected_ok_iff _ _ _ _).mp success
        subst exact_
        simp only [List.append_nil, List.mem_reverse] at rejectedMembers result
        refine ⟨?_, ?_, reasons, ?_⟩
        · intro id member
          rcases List.mem_append.mp member with acceptedId | rejectedId
          · exact (members id acceptedId).1
          · exact (rejectedMembers id rejectedId).1
        · refine List.Nodup.append distinct rejectedDistinct ?_
          intro id acceptedId rejectedId
          exact (rejectedMembers id rejectedId).2 acceptedId
        · rw [result, decidedIds, List.reverse_append]
  · rintro ⟨members, distinct, reasons, result⟩
    rw [decidedIds, List.nodup_append'] at distinct
    obtain ⟨acceptedDistinct, rejectedDistinct, apart⟩ := distinct
    have first := (decideAccepted_ok_iff submitted acknowledgement.acceptedMessageIds []
      acknowledgement.acceptedMessageIds.reverse).mpr
        ⟨fun id member => ⟨members id (List.mem_append_left _ member), by simp⟩,
          acceptedDistinct, by simp⟩
    rw [first]
    apply (decideRejected_ok_iff _ _ _ _).mpr
    refine ⟨reasons, ?_, rejectedDistinct, ?_⟩
    · intro id member
      refine ⟨members id (List.mem_append_right _ member), ?_⟩
      rw [List.mem_reverse]
      exact fun acceptedId => apart acceptedId member
    · rw [result, decidedIds, List.reverse_append]

theorem checkDecision_ok_iff (acknowledgement : IngestionAcknowledgement)
    (batch : List TelemetryEnvelope) (decided : List String) :
    checkDecision acknowledgement batch decided = .ok () ↔
      (∀ sequence, acknowledgement.highestAcceptedSequence = some sequence →
        highestSequence (acknowledgement.acceptedRecords batch) = some sequence) ∧
      (∀ milliseconds, acknowledgement.retryAfterMs = some milliseconds →
        milliseconds ≤ 86400000) ∧
      decided ≠ [] := by
  unfold checkDecision
  cases highest : acknowledgement.highestAcceptedSequence <;>
    cases delay : acknowledgement.retryAfterMs <;>
      simp [ite_eq_iff, List.isEmpty_iff]

theorem validate_ok_iff (acknowledgement : IngestionAcknowledgement)
    (batch : List TelemetryEnvelope) :
    acknowledgement.validate batch = .ok () ↔ acknowledgement.ValidFor batch := by
  have loops := acknowledgement.decide_ok_iff (batch.map TelemetryEnvelope.messageId)
  simp only [validate, ← bind_assoc]
  cases decision : (do
      let accepted ← decideAccepted (batch.map TelemetryEnvelope.messageId)
        acknowledgement.acceptedMessageIds []
      decideRejected (batch.map TelemetryEnvelope.messageId)
        acknowledgement.rejectedRecords accepted) with
  | error failure =>
      refine ⟨fun accepted => by contradiction, fun valid => ?_⟩
      have decided := (loops _).mpr ⟨valid.submitted, valid.distinct, valid.reasons, rfl⟩
      rw [decision] at decided
      contradiction
  | ok decided =>
      obtain ⟨submitted, distinct, reasons, result⟩ := (loops decided).mp decision
      have checks := checkDecision_ok_iff acknowledgement batch decided
      rw [result, ne_eq, List.reverse_eq_nil_iff] at checks
      rw [result]
      refine checks.trans ?_
      constructor
      · rintro ⟨highest, delay, decides⟩
        exact ⟨submitted, distinct, reasons, highest, delay, decides⟩
      · intro valid
        exact ⟨valid.highest, valid.delay, valid.decides⟩

end IngestionAcknowledgement

end SystemPilot.Telemetry
