import Mathlib.Tactic
import SystemPilot.Cloud.Ingest

/-!
# What an ingestion changes

The handler's steps inverted once: a record that is decided is inserted with
its alert and its job, is a replay that changes at most a missing digest, or is
refused and changes nothing; a request is a sequence of such steps and the
batch state, or changes nothing.
-/

set_option autoImplicit false

namespace SystemPilot.Cloud

open SystemPilot.Text
open SystemPilot.Json
open SystemPilot.Library
open SystemPilot.Telemetry

theorem bind_ok_iff {ε α β : Type} (first : Except ε α) (next : α → Except ε β) (result : β) :
    (first >>= next) = .ok result ↔ ∃ value, first = .ok value ∧ next value = .ok result := by
  cases first <;> simp [bind, Except.bind]

theorem validateRecord_ok_iff (record : TelemetryEnvelope) :
    validateRecord record = .ok () ↔
      record.Valid ∧ record.sequence ≠ 0 ∧
        ∃ observed, UnixTimestamp.fromNanos record.observedAtUnixNanos = .ok observed := by
  rw [← record.validate_ok_iff]
  unfold validateRecord
  cases validated : record.validate with
  | error failure => simp
  | ok done =>
      have schema := ((record.validate_ok_iff).mp validated).schema
      by_cases zero : record.sequence = 0
      · simp [zero]
      · rw [if_neg (by simp [schema, zero]), bind_ok_iff]
        constructor
        · rintro ⟨observed, read, _⟩
          exact ⟨rfl, zero, observed, read⟩
        · rintro ⟨_, _, observed, read⟩
          exact ⟨observed, read, rfl⟩

section Effects

variable {Bytes Digest : Type} (service : Service Bytes Digest)
variable (environment : StatementEnvironment Digest) (tenantId : Uuid)

theorem execute_ok_iff (session : Option Uuid) (statement : Statement Digest)
    (constraints : Bool) (effect after : Database Digest) :
    execute environment session tenantId statement constraints effect = .ok after ↔
      environment.raises statement = false ∧ rowPolicy session tenantId = true ∧
        constraints = true ∧ effect = after := by
  unfold execute
  cases raised : environment.raises statement <;>
    cases policy : rowPolicy session tenantId <;> cases constraints <;> simp

/-! ## A first insertion -/

/-- The deliveries a firing alert creates. -/
def deliveryRows (alertInstanceId : String) (db : Database Digest) : List DeliveryRow :=
  (db.alertDestinations.filter fun row => row.tenantId == tenantId && row.enabled).mapIdx
    fun index row => {
      tenantId
      id := environment.deliveryId index
      subject := ⟨alertInstanceId, row.channel, row.destinationRef⟩
      availableAt := environment.now
      createdAt := environment.now }

/-- The database after the statements of `materialize_alert`. -/
def alertEffect (record : TelemetryEnvelope) (alert : ProcessAlert) (observed : UnixTimestamp)
    (db : Database Digest) : Database Digest :=
  let row := alert.row tenantId record.nodeId record.payload observed.timestamptz
  { db with
    alerts := Table.upsert (AlertRow.isAlert tenantId alert.instanceId) (AlertRow.transition row)
      row db.alerts
    notificationDeliveries := db.notificationDeliveries ++
      if alert.state = "firing" then deliveryRows environment tenantId alert.instanceId db else [] }

/-- The job a record asks for. -/
def jobRow (record : TelemetryEnvelope) : JobRow where
  tenantId
  id := environment.jobId
  subject := ⟨record.nodeId, record.messageId⟩
  availableAt := environment.now
  createdAt := environment.now

/-- The database after the alert and the job of an inserted record. -/
def admitEffect (record : TelemetryEnvelope) (db : Database Digest) : Database Digest :=
  let db := match record.kind, checkAlert record with
    | .processAlert, .ok (alert, observed) => alertEffect environment tenantId record alert observed db
    | _, _ => db
  { db with
    reasoningJobs := if record.kind = .health then db.reasoningJobs else
      Table.insertNew (isJobOf tenantId record.nodeId record.messageId)
        (jobRow environment tenantId record) db.reasoningJobs }

theorem checkAlert_ok (record : TelemetryEnvelope) (alert : ProcessAlert)
    (observed : UnixTimestamp) (checked : checkAlert record = .ok (alert, observed)) :
    ProcessAlert.fromValue record.payload = some alert ∧ isBlank alert.instanceId = false ∧
      isBlank alert.ruleId = false ∧ isAlertState alert.state = true ∧
      UnixTimestamp.fromNanos alert.observedAtUnixNanos = .ok observed := by
  unfold checkAlert at checked
  split at checked
  · contradiction
  · rename_i decoded parsed
    split at checked
    · contradiction
    · rename_i identity
      obtain ⟨timestamp, read, same⟩ := (bind_ok_iff _ _ _).mp checked
      cases same
      simp only [Bool.or_eq_true, not_or, Bool.not_eq_true, Bool.not_eq_false'] at identity
      exact ⟨parsed, identity.1.1, identity.1.2, identity.2, read⟩

theorem materializeAlert_ok (session : Option Uuid) (record : TelemetryEnvelope)
    (db after : Database Digest)
    (materialized : materializeAlert environment session tenantId record db = .ok after) :
    ∃ alert observed, checkAlert record = .ok (alert, observed) ∧
      record.payload.isObject = true ∧
      after = alertEffect environment tenantId record alert observed db := by
  unfold materializeAlert at materialized
  obtain ⟨⟨alert, observed⟩, checked, materialized⟩ := (bind_ok_iff _ _ _).mp materialized
  obtain ⟨upserted, written, materialized⟩ := (bind_ok_iff _ _ _).mp materialized
  obtain ⟨_, _, constraints, rfl⟩ := (execute_ok_iff _ _ _ _ _ _ _).mp written
  simp only [Bool.and_eq_true] at constraints
  refine ⟨alert, observed, checked, constraints.1.2, ?_⟩
  by_cases firing : alert.state = "firing"
  · rw [if_pos firing] at materialized
    obtain ⟨_, _, _, rfl⟩ := (execute_ok_iff _ _ _ _ _ _ _).mp materialized
    simp only [alertEffect, deliveryRows, if_pos firing]
  · rw [if_neg firing] at materialized
    cases materialized
    simp only [alertEffect, if_neg firing, List.append_nil]

theorem admitRecord_ok (session : Option Uuid) (record : TelemetryEnvelope)
    (db after : Database Digest)
    (admitted : admitRecord environment session tenantId record db = .ok after) :
    after = admitEffect environment tenantId record db ∧
      (record.kind = .processAlert →
        ∃ alert observed, checkAlert record = .ok (alert, observed) ∧
          record.payload.isObject = true) := by
  unfold admitRecord at admitted
  unfold admitEffect
  cases kind : record.kind with
  | processAlert =>
      simp only [kind] at admitted
      obtain ⟨materialized, first, second⟩ := (bind_ok_iff _ _ _).mp admitted
      obtain ⟨alert, observed, checked, object, rfl⟩ :=
        materializeAlert_ok environment tenantId session record db materialized first
      obtain ⟨_, _, _, rfl⟩ := (execute_ok_iff _ _ _ _ _ _ _).mp second
      rw [checked]
      exact ⟨rfl, fun _ => ⟨alert, observed, rfl, object⟩⟩
  | health =>
      simp only [kind] at admitted
      cases admitted
      exact ⟨rfl, fun same => by contradiction⟩
  | processLifecycle | processSnapshot | systemSnapshot | causalGraph =>
      simp only [kind] at admitted
      obtain ⟨_, _, _, rfl⟩ := (execute_ok_iff _ _ _ _ _ _ _).mp admitted
      exact ⟨rfl, fun same => by contradiction⟩

@[simp] theorem admitEffect_messages (record : TelemetryEnvelope) (db : Database Digest) :
    (admitEffect environment tenantId record db).telemetryMessages = db.telemetryMessages := by
  unfold admitEffect
  split <;> rfl

@[simp] theorem admitEffect_sequenceState (record : TelemetryEnvelope) (db : Database Digest) :
    (admitEffect environment tenantId record db).nodeSequenceState = db.nodeSequenceState := by
  unfold admitEffect
  split <;> rfl

@[simp] theorem admitEffect_nodes (record : TelemetryEnvelope) (db : Database Digest) :
    (admitEffect environment tenantId record db).nodes = db.nodes := by
  unfold admitEffect
  split <;> rfl

@[simp] theorem admitEffect_jobs (record : TelemetryEnvelope) (db : Database Digest) :
    (admitEffect environment tenantId record db).reasoningJobs =
      if record.kind = .health then db.reasoningJobs else
        Table.insertNew (isJobOf tenantId record.nodeId record.messageId)
          (jobRow environment tenantId record) db.reasoningJobs := by
  unfold admitEffect
  split <;> rfl

/-! ## One record -/

/-- The row of a replayed record with its digest filled in. -/
def fillEffect (record : TelemetryEnvelope) (db : Database Digest) : Database Digest :=
  { db with
    telemetryMessages := Table.update
      (fun row => row.isMessage tenantId record.nodeId record.messageId &&
        row.envelopeDigest.isNone)
      (fun row => { row with envelopeDigest := some (service.envelopeDigest record) })
      db.telemetryMessages }

/-- The stored message with the identity of a record. -/
def storedMessage (db : Database Digest) (tenantId : Uuid) (nodeId messageId : String) :
    Option (MessageRow Digest) :=
  db.telemetryMessages.find? (MessageRow.isMessage tenantId nodeId messageId)

/-- What one decided record does to the database. -/
inductive RecordChange (db : Database Digest) (record : TelemetryEnvelope) :
    Database Digest → InsertOutcome → Prop
  | inserted (environment : StatementEnvironment Digest) (observed : UnixTimestamp)
      (checks : messageChecks record = true)
      (bigint : record.sequence < 2 ^ 63)
      (timestamp : UnixTimestamp.fromNanos record.observedAtUnixNanos = .ok observed)
      (fresh : db.telemetryMessages.any (MessageRow.conflicts tenantId record) = false)
      (node : db.hasNode tenantId record.nodeId = true)
      (alert : record.kind = .processAlert →
        ∃ alert observed, checkAlert record = .ok (alert, observed) ∧
          record.payload.isObject = true) :
      RecordChange db record
        (admitEffect environment tenantId record { db with
          telemetryMessages := db.telemetryMessages ++
            [messageRow service environment tenantId record observed] })
        .accepted
  | replayed (stored : MessageRow Digest)
      (found : storedMessage db tenantId record.nodeId record.messageId = some stored)
      (same : stored.envelopeDigest = some (service.envelopeDigest record)) :
      RecordChange db record db .accepted
  | filled (stored : MessageRow Digest)
      (found : storedMessage db tenantId record.nodeId record.messageId = some stored)
      (legacy : stored.envelopeDigest = none)
      (same : stored.envelope = record.toValue) :
      RecordChange db record (fillEffect service tenantId record db) .accepted
  | differs (stored : MessageRow Digest)
      (found : storedMessage db tenantId record.nodeId record.messageId = some stored)
      (content : ∀ digest, stored.envelopeDigest = some digest →
        digest ≠ service.envelopeDigest record)
      (legacy : stored.envelopeDigest = none → stored.envelope ≠ record.toValue) :
      RecordChange db record db .replayConflict
  | taken
      (absent : storedMessage db tenantId record.nodeId record.messageId = none)
      (conflict : db.telemetryMessages.any (MessageRow.conflicts tenantId record) = true) :
      RecordChange db record db .sequenceConflict

theorem insertMessage_ok (session : Option Uuid) (record : TelemetryEnvelope)
    (row : MessageRow Digest) (db : Database Digest) (result : Option (Database Digest))
    (inserted : insertMessage environment session tenantId record row db = .ok result) :
    messageChecks record = true ∧
      ((db.telemetryMessages.any (MessageRow.conflicts tenantId record) = true ∧ result = none) ∨
        (db.telemetryMessages.any (MessageRow.conflicts tenantId record) = false ∧
          db.hasNode tenantId record.nodeId = true ∧
          result = some { db with telemetryMessages := db.telemetryMessages ++ [row] })) := by
  unfold insertMessage at inserted
  split at inserted
  · contradiction
  · rename_i guards
    simp only [Bool.or_eq_true, not_or, Bool.not_eq_true, Bool.not_eq_false'] at guards
    refine ⟨guards.2, ?_⟩
    split at inserted
    · rename_i conflict
      cases inserted
      exact Or.inl ⟨conflict, rfl⟩
    · rename_i fresh
      split at inserted
      · rename_i node
        cases inserted
        exact Or.inr ⟨by simpa using fresh, node, rfl⟩
      · contradiction

variable [DecidableEq Digest]

omit [DecidableEq Digest] in
/-- Under the policy of its tenant the replay query finds the stored message. -/
theorem selectReplay_eq (nodeId messageId : String) (db : Database Digest) :
    selectReplay environment (some tenantId) tenantId nodeId messageId db =
      if environment.raises (.selectReplay tenantId nodeId messageId) then .error .database
      else .ok (storedMessage db tenantId nodeId messageId) := by
  unfold selectReplay storedMessage
  congr 2
  apply congrArg (fun predicate => db.telemetryMessages.find? predicate)
  funext row
  cases selects : row.isMessage tenantId nodeId messageId with
  | false => simp
  | true =>
      have tenant : row.tenantId = tenantId := by
        simp only [MessageRow.isMessage, Bool.and_eq_true, beq_iff_eq] at selects
        exact selects.1.1
      simp [tenant]

theorem replayRecord_ok (record : TelemetryEnvelope) (db after : Database Digest)
    (outcome : InsertOutcome)
    (conflict : db.telemetryMessages.any (MessageRow.conflicts tenantId record) = true)
    (replayed : replayRecord service environment (some tenantId) tenantId record db =
      .ok (after, outcome)) :
    RecordChange service tenantId db record after outcome := by
  unfold replayRecord at replayed
  obtain ⟨selected, read, replayed⟩ := (bind_ok_iff _ _ _).mp replayed
  have lookup : selected = storedMessage db tenantId record.nodeId record.messageId := by
    rw [selectReplay_eq] at read
    split at read
    · contradiction
    · exact (Except.ok.inj read).symm
  subst lookup
  cases found : storedMessage db tenantId record.nodeId record.messageId with
  | none =>
      rw [found] at replayed
      cases replayed
      exact .taken found conflict
  | some stored =>
      simp only [found] at replayed
      cases digest : stored.envelopeDigest with
      | some digest' =>
          simp only [digest] at replayed
          split at replayed
          · rename_i same
            cases replayed
            exact .replayed stored found (by rw [digest, same])
          · rename_i different
            cases replayed
            refine .differs stored found ?_ ?_
            · intro other stored'
              rw [digest] at stored'
              cases stored'
              exact different
            · intro none
              rw [digest] at none
              contradiction
      | none =>
          simp only [digest] at replayed
          split at replayed
          · rename_i same
            obtain ⟨updated, written, result⟩ := (bind_ok_iff _ _ _).mp replayed
            obtain ⟨_, _, _, rfl⟩ := (execute_ok_iff _ _ _ _ _ _ _).mp written
            cases result
            exact .filled stored found digest same
          · rename_i different
            cases replayed
            refine .differs stored found ?_ fun _ => different
            intro other stored'
            rw [digest] at stored'
            contradiction

theorem insertEnvelope_ok (record : TelemetryEnvelope) (db after : Database Digest)
    (outcome : InsertOutcome)
    (decided : insertEnvelope service environment (some tenantId) tenantId record db =
      .ok (after, outcome)) :
    RecordChange service tenantId db record after outcome := by
  unfold insertEnvelope at decided
  by_cases overflow : 2 ^ 63 ≤ record.sequence
  · rw [if_pos overflow] at decided
    contradiction
  · rw [if_neg overflow] at decided
    obtain ⟨observed, timestamp, decided⟩ := (bind_ok_iff _ _ _).mp decided
    obtain ⟨inserted, written, decided⟩ := (bind_ok_iff _ _ _).mp decided
    obtain ⟨checks, ⟨conflict, rfl⟩ | ⟨fresh, node, rfl⟩⟩ :=
      insertMessage_ok environment tenantId _ record _ db inserted written
    · exact replayRecord_ok service environment tenantId record db after outcome conflict decided
    · obtain ⟨admitted, ran, result⟩ := (bind_ok_iff _ _ _).mp decided
      cases result
      obtain ⟨rfl, alert⟩ := admitRecord_ok environment tenantId _ record _ _ ran
      exact .inserted environment observed checks (by omega) timestamp fresh node alert

/-! ## A batch -/

/-- A record with what was decided about it. -/
abbrev Decision := TelemetryEnvelope × InsertOutcome

/-- The records of a batch decided one after another. -/
inductive RecordSteps : List Decision → Database Digest → Database Digest → Prop
  | done (db : Database Digest) : RecordSteps [] db db
  | step (record : TelemetryEnvelope) (outcome : InsertOutcome) (rest : List Decision)
      (db middle after : Database Digest)
      (change : RecordChange service tenantId db record middle outcome)
      (later : RecordSteps rest middle after) :
      RecordSteps ((record, outcome) :: rest) db after

omit [DecidableEq Digest] in
theorem RecordSteps.split {tenantId : Uuid} {service : Service Bytes Digest}
    {first second : List Decision} {db after : Database Digest}
    (steps : RecordSteps service tenantId (first ++ second) db after) :
    ∃ middle, RecordSteps service tenantId first db middle ∧
      RecordSteps service tenantId second middle after := by
  induction first generalizing db with
  | nil => exact ⟨db, .done db, steps⟩
  | cons decision rest inductionHypothesis =>
      cases steps with
      | step record outcome _ _ next _ change later =>
          obtain ⟨middle, before, afterwards⟩ := inductionHypothesis later
          exact ⟨middle, .step record outcome rest db next middle change before, afterwards⟩

/-- The acknowledgement of a list of decisions. -/
def acknowledgementOf (decisions : List Decision) (start : IngestionAcknowledgement) :
    IngestionAcknowledgement :=
  decisions.foldl (fun acknowledgement decision =>
    recordOutcome decision.1 acknowledgement decision.2) start

/-- The decisions of the loop, up to a record it fails on. -/
def loopDecisions (environments : Nat → StatementEnvironment Digest) (tenantId : Uuid) :
    List TelemetryEnvelope → Nat → Database Digest → List Decision
  | [], _, _ => []
  | record :: rest, index, db =>
      match insertEnvelope service (environments index) (some tenantId) tenantId record db with
      | .ok (db, outcome) =>
          (record, outcome) :: loopDecisions environments tenantId rest (index + 1) db
      | .error _ => []

theorem ingestLoop_ok (environments : Nat → StatementEnvironment Digest)
    (batch : List TelemetryEnvelope) (index : Nat) (db after : Database Digest)
    (start result : IngestionAcknowledgement)
    (ran : ingestLoop service environments (some tenantId) tenantId batch index db start =
      .ok (after, result)) :
    let decisions := loopDecisions service environments tenantId batch index db
    decisions.map Prod.fst = batch ∧ RecordSteps service tenantId decisions db after ∧
      result = acknowledgementOf decisions start := by
  induction batch generalizing index db start with
  | nil =>
      cases ran
      exact ⟨rfl, .done _, rfl⟩
  | cons record rest inductionHypothesis =>
      rw [ingestLoop] at ran
      obtain ⟨⟨middle, outcome⟩, decided, ran⟩ := (bind_ok_iff _ _ _).mp ran
      have change := insertEnvelope_ok service (environments index) tenantId record db middle
        outcome decided
      obtain ⟨records, steps, result⟩ :=
        inductionHypothesis (index + 1) middle (recordOutcome record start outcome) ran
      simp only [loopDecisions, decided]
      exact ⟨by rw [List.map_cons, records], .step record outcome _ db middle after change steps,
        result⟩

/-! ## A request -/

/-- The database after `record_batch_state`. -/
def batchStateEffect (nodeId : String) (highest : Option Nat) (db : Database Digest) :
    Database Digest :=
  { db with
    nodes := Table.update (fun row => row.tenantId == tenantId && row.nodeId == nodeId)
      (fun row => { row with lastSeenAt := some environment.now }) db.nodes
    activeServerDays := Table.upsert
      (fun row => row.tenantId == tenantId && row.usageDay == environment.today &&
        row.nodeId == nodeId)
      (fun row => { row with lastSeenAt := environment.now })
      { tenantId
        usageDay := environment.today
        nodeId
        firstSeenAt := environment.now
        lastSeenAt := environment.now } db.activeServerDays
    nodeSequenceState := match highest with
      | none => db.nodeSequenceState
      | some highest => Table.upsert (SequenceStateRow.isNode tenantId nodeId)
          (fun row => { row with
            highestAcceptedSequence := max row.highestAcceptedSequence highest
            updatedAt := environment.now })
          { tenantId
            nodeId
            highestAcceptedSequence := highest
            updatedAt := environment.now } db.nodeSequenceState }

omit [DecidableEq Digest] in
theorem recordBatchState_ok (session : Option Uuid) (nodeId : String) (highest : Option Nat)
    (db after : Database Digest)
    (ran : recordBatchState environment session tenantId nodeId highest db = .ok after) :
    after = batchStateEffect environment tenantId nodeId highest db := by
  unfold recordBatchState at ran
  obtain ⟨touched, first, ran⟩ := (bind_ok_iff _ _ _).mp ran
  obtain ⟨_, _, _, rfl⟩ := (execute_ok_iff _ _ _ _ _ _ _).mp first
  obtain ⟨counted, second, ran⟩ := (bind_ok_iff _ _ _).mp ran
  obtain ⟨_, _, _, rfl⟩ := (execute_ok_iff _ _ _ _ _ _ _).mp second
  cases highest with
  | none =>
      cases ran
      rfl
  | some highest =>
      simp only at ran
      split at ran
      · contradiction
      · obtain ⟨_, _, _, rfl⟩ := (execute_ok_iff _ _ _ _ _ _ _).mp ran
        rfl

/-- The decisions of a request on the records of its batch. -/
def requestDecisions (db : Database Digest) (request : Request Digest) : List Decision :=
  match requestIdentity service db request with
  | some (tenantId, _) =>
      loopDecisions service request.environment.record tenantId request.batch 0 db
  | none => []

/-- A request that is answered with an acknowledgement. -/
structure Committed (db : Database Digest) (request : Request Digest) (after : Database Digest)
    (acknowledgement : IngestionAcknowledgement) where
  tenantId : Uuid
  nodeId : String
  recorded : Database Digest
  checked : validateBatch request.batch = .ok ()
  identity : requestIdentity service db request = some (tenantId, nodeId)
  ownNode : ∀ record ∈ request.batch, record.nodeId = nodeId
  records : (requestDecisions service db request).map Prod.fst = request.batch
  steps : RecordSteps service tenantId (requestDecisions service db request) db recorded
  answer : acknowledgement = acknowledgementOf (requestDecisions service db request) {}
  committed : after = batchStateEffect request.environment.batchState tenantId nodeId
    acknowledgement.highestAcceptedSequence recorded

/-- What an acknowledged request went through. -/
structure Transacted (db : Database Digest) (request : Request Digest) (after : Database Digest)
    (acknowledgement : IngestionAcknowledgement) (tenantId : Uuid) (nodeId : String)
    (recorded : Database Digest) : Prop where
  checked : validateBatch request.batch = .ok ()
  begins : request.environment.beginFails = false
  authenticates : request.environment.authenticationFails = false
  identity : requestIdentity service db request = some (tenantId, nodeId)
  ownNode : ∀ record ∈ request.batch, record.nodeId = nodeId
  admits : request.environment.admits = true
  tenant : request.environment.tenantFails = false
  looped : ingestLoop service request.environment.record (some tenantId) tenantId request.batch 0
    db {} = .ok (recorded, acknowledgement)
  stated : recordBatchState request.environment.batchState (some tenantId) tenantId nodeId
    acknowledgement.highestAcceptedSequence recorded = .ok after
  commits : request.environment.commitFails = false

theorem ingestTransaction_ok_iff (db after : Database Digest) (request : Request Digest)
    (nodeId : String) (acknowledgement : IngestionAcknowledgement) :
    ingestTransaction service db request tenantId nodeId = .ok (after, acknowledgement) ↔
      (∀ record ∈ request.batch, record.nodeId = nodeId) ∧ request.environment.admits = true ∧
        request.environment.tenantFails = false ∧ request.environment.commitFails = false ∧
        ∃ recorded,
          ingestLoop service request.environment.record (some tenantId) tenantId request.batch 0
            db {} = .ok (recorded, acknowledgement) ∧
          recordBatchState request.environment.batchState (some tenantId) tenantId nodeId
            acknowledgement.highestAcceptedSequence recorded = .ok after := by
  have own : (request.batch.any fun record => record.nodeId ≠ nodeId) = false ↔
      ∀ record ∈ request.batch, record.nodeId = nodeId := by simp
  unfold ingestTransaction
  rw [← own]
  cases request.batch.any fun record => record.nodeId ≠ nodeId with
  | true => simp
  | false =>
      cases request.environment.admits with
      | false => simp
      | true =>
          cases request.environment.tenantFails with
          | true => simp
          | false =>
              simp only [Bool.false_eq_true, if_false, Bool.true_eq_false, true_and]
              constructor
              · intro ran
                obtain ⟨⟨recorded, answered⟩, looped, ran⟩ := (bind_ok_iff _ _ _).mp ran
                obtain ⟨state, stated, ran⟩ := (bind_ok_iff _ _ _).mp ran
                cases committing : request.environment.commitFails with
                | true => simp [committing] at ran
                | false =>
                    simp only [committing, Bool.false_eq_true, if_false, Except.ok.injEq,
                      Prod.mk.injEq] at ran
                    obtain ⟨rfl, rfl⟩ := ran
                    exact ⟨rfl, recorded, looped, stated⟩
              · rintro ⟨committing, recorded, looped, stated⟩
                rw [bind_ok_iff]
                refine ⟨(recorded, acknowledgement), looped, ?_⟩
                rw [bind_ok_iff]
                exact ⟨after, stated, by simp [committing]⟩

/-- A request is acknowledged exactly when it passes every check and its
transaction commits. -/
theorem ingest_ok_iff (db after : Database Digest) (request : Request Digest)
    (acknowledgement : IngestionAcknowledgement) :
    ingest service db request = (after, .ok acknowledgement) ↔
      ∃ tenantId nodeId recorded,
        Transacted service db request after acknowledgement tenantId nodeId recorded := by
  have result : ingest service db request = (after, .ok acknowledgement) ↔
      ingestResult service db request = .ok (after, acknowledgement) := by
    unfold ingest
    cases ingestResult service db request with
    | error failure => simp
    | ok committed => simp [Prod.ext_iff]
  rw [result]
  unfold ingestResult
  rw [bind_ok_iff]
  constructor
  · rintro ⟨_, checked, ran⟩
    cases bearer : bearerToken request.authorization with
    | none =>
        rw [bearer] at ran
        contradiction
    | some token =>
        simp only [bearer] at ran
        split at ran
        · contradiction
        · rename_i begins
          split at ran
          · contradiction
          · rename_i authenticates
            split at ran
            · contradiction
            · rename_i tenantId nodeId identity
              obtain ⟨ownNode, admits, tenant, commits, recorded, looped, stated⟩ :=
                (ingestTransaction_ok_iff service tenantId db after request nodeId
                  acknowledgement).mp ran
              exact ⟨tenantId, nodeId, recorded, checked, by simpa using begins,
                by simpa using authenticates, by simp [requestIdentity, bearer, identity],
                ownNode, admits, tenant, looped, stated, commits⟩
  · rintro ⟨tenantId, nodeId, recorded, transacted⟩
    refine ⟨(), transacted.checked, ?_⟩
    obtain ⟨token, bearer, authenticated⟩ := Option.bind_eq_some_iff.mp transacted.identity
    simp only [bearer, transacted.begins, transacted.authenticates, authenticated,
      Bool.false_eq_true, if_false]
    exact (ingestTransaction_ok_iff service tenantId db after request nodeId acknowledgement).mpr
      ⟨transacted.ownNode, transacted.admits, transacted.tenant, transacted.commits, recorded,
        transacted.looped, transacted.stated⟩

theorem Transacted.committed {db after recorded : Database Digest} {request : Request Digest}
    {acknowledgement : IngestionAcknowledgement} {tenantId : Uuid} {nodeId : String}
    {service : Service Bytes Digest}
    (transacted : Transacted service db request after acknowledgement tenantId nodeId recorded) :
    Nonempty (Committed service db request after acknowledgement) := by
  obtain ⟨records, steps, answer⟩ :=
    ingestLoop_ok service tenantId _ _ 0 db recorded {} acknowledgement transacted.looped
  have traced : requestDecisions service db request = loopDecisions service
      request.environment.record tenantId request.batch 0 db := by
    unfold requestDecisions
    rw [transacted.identity]
  rw [← traced] at records answer steps
  exact ⟨⟨tenantId, nodeId, recorded, transacted.checked, transacted.identity, transacted.ownNode,
    records, steps, answer, recordBatchState_ok _ _ _ _ _ _ _ transacted.stated⟩⟩

/-- An acknowledged request committed its decisions; any other leaves every
table as it was. -/
theorem ingest_cases (db : Database Digest) (request : Request Digest) :
    (∃ failure, ingest service db request = (db, .error failure)) ∨
      ∃ after acknowledgement, ingest service db request = (after, .ok acknowledgement) ∧
        Nonempty (Committed service db request after acknowledgement) := by
  cases outcome : ingestResult service db request with
  | error failure =>
      refine Or.inl ⟨failure, ?_⟩
      unfold ingest
      rw [outcome]
  | ok result =>
      obtain ⟨after, acknowledgement⟩ := result
      have answered : ingest service db request = (after, .ok acknowledgement) := by
        unfold ingest
        rw [outcome]
      obtain ⟨tenantId, nodeId, recorded, transacted⟩ := (ingest_ok_iff _ _ _ _ _).mp answered
      exact Or.inr ⟨after, acknowledgement, answered, transacted.committed⟩

end Effects

end SystemPilot.Cloud
