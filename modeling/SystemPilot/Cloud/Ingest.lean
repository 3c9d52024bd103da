import Mathlib.Tactic
import SystemPilot.Telemetry.Acknowledgement
import SystemPilot.Telemetry.Redaction
import SystemPilot.Cloud.Database

/-!
# The ingestion handler

`ingest` of the collector: the checks of a batch, the authenticated identity,
the per-record loop inside one transaction and the acknowledgement it builds.
An error anywhere drops the transaction.
-/

set_option autoImplicit false

namespace SystemPilot.Cloud

open SystemPilot.Text
open SystemPilot.Json
open SystemPilot.Library
open SystemPilot.Telemetry

def maxBatch : Nat := 256

def maxBodyBytes : Nat := 4 * 1024 * 1024

def nanosPerSecond : Nat := 1000000000

/-- 2000-01-01T00:00:00Z. -/
def minReasonableUnixSeconds : Nat := 946684800

/-- 2099-12-31T23:59:59Z. -/
def maxReasonableUnixSeconds : Nat := 4102444799

structure UnixTimestamp where
  seconds : Nat
  nanoseconds : Nat
  deriving DecidableEq, Repr

/-- `UnixTimestamp::from_nanos`; seconds in range always fit an `i64`. -/
def UnixTimestamp.fromNanos (value : Nat) : ApiResult UnixTimestamp :=
  let seconds := value / nanosPerSecond
  if minReasonableUnixSeconds ≤ seconds ∧ seconds ≤ maxReasonableUnixSeconds then
    .ok { seconds, nanoseconds := value % nanosPerSecond }
  else
    .error (.invalid "telemetry timestamp must be between 2000-01-01 and 2099-12-31 UTC")

/-- `TIMESTAMPTZ 'epoch' + …` in microseconds. -/
def UnixTimestamp.timestamptz (timestamp : UnixTimestamp) : Nat :=
  timestamp.seconds * 1000000 + timestamp.nanoseconds / 1000

/-- What the handler is configured with: the encoding of envelopes, SHA-256 over
it, and the keyed digest of credentials. -/
structure Service (Bytes Digest : Type) where
  codec : Codec Bytes
  sha256 : Bytes → Digest
  tokenDigest : String → Digest

/-- The text `AppError` displays; `validate` of an envelope has no I/O errors. -/
def displayError : AppError → String
  | .io context => context
  | .validation message => message
  | .protocol message => message

/-! ## Checks before the transaction -/

/-- The checks of `validate_batch` on one record. -/
def validateRecord (record : TelemetryEnvelope) : ApiResult Unit :=
  match record.validate with
  | .error failure => .error (.invalid (displayError failure))
  | .ok () =>
      if record.schemaVersion ≠ telemetrySchemaVersion ∨ record.sequence = 0 then
        .error (.invalid "schema_version must be 1 and sequence must be greater than zero")
      else do
        let _ ← UnixTimestamp.fromNanos record.observedAtUnixNanos
        return ()

def validateBatch (batch : List TelemetryEnvelope) : ApiResult Unit :=
  if batch.isEmpty ∨ maxBatch < batch.length then
    .error (.invalid ("batch must contain between 1 and " ++ toString maxBatch ++ " envelopes"))
  else
    batch.forM validateRecord

/-- `bearer_token`, from the text of the authorization header. -/
def bearerToken (authorization : Option String) : Option String := do
  let header ← authorization
  let start := "Bearer "
  if startsWith header start then
    let token := String.ofList (header.toList.drop start.length)
    if 32 ≤ token.utf8ByteSize ∧ token.utf8ByteSize ≤ 1024 then some token else none
  else
    none

/-! ## The payload of an alert -/

/-- A field with `#[serde(default)]`: absent, or read. -/
def optionalField {α : Type} (fields : List (String × Value)) (key : String) (absent : α)
    (read : Value → Option α) : Option α :=
  match fields.lookup key with
  | some value => read value
  | none => some absent

def requiredField {α : Type} (fields : List (String × Value)) (key : String)
    (read : Value → Option α) : Option α := do
  read (← fields.lookup key)

/-- `Option<String>`. -/
def asOptionalString : Value → Option (Option String)
  | .null => some none
  | value => value.asString.map some

/-- `serde_json::from_value::<ProcessAlert>`: an object, unknown fields ignored,
or the array of all ten fields. -/
def ProcessAlert.fromValue : Value → Option ProcessAlert
  | .object fields => do
      return {
        instanceId := ← optionalField fields "instance_id" "" Value.asString
        state := ← optionalField fields "state" "" Value.asString
        previousState := ← optionalField fields "previous_state" none asOptionalString
        ruleId := ← requiredField fields "rule_id" Value.asString
        processName := ← requiredField fields "process_name" Value.asString
        pid := ← requiredField fields "pid" Value.asI32
        ppid := ← requiredField fields "ppid" Value.asI32
        eventType := ← requiredField fields "event_type" Value.asString
        observedAtUnixNanos := ← requiredField fields "observed_at_unix_nanos" Value.asU64
        labels := ← requiredField fields "labels" stringMapOfValue }
  | .array [instanceId, state, previousState, ruleId, processName, pid, ppid, eventType,
        observedAtUnixNanos, labels] => do
      return {
        instanceId := ← instanceId.asString
        state := ← state.asString
        previousState := ← asOptionalString previousState
        ruleId := ← ruleId.asString
        processName := ← processName.asString
        pid := ← pid.asI32
        ppid := ← ppid.asI32
        eventType := ← eventType.asString
        observedAtUnixNanos := ← observedAtUnixNanos.asU64
        labels := ← stringMapOfValue labels }
  | _ => none

section Handler

variable {Bytes Digest : Type} [DecidableEq Digest] (service : Service Bytes Digest)

/-- `authenticate_node`: a live credential of an active tenant and a live node. -/
def authenticate (now : Nat) (db : Database Digest) (digest : Digest) :
    Option (Uuid × String) :=
  (db.enrollmentCredentials.find? fun credential =>
    decide (credential.tokenHash = digest) && credential.revokedAt.isNone &&
      decide (now < credential.expiresAt) &&
      db.tenants.any (fun tenant =>
        tenant.tenantId == credential.tenantId && tenant.status == "active") &&
      db.nodes.any (fun node => node.tenantId == credential.tenantId &&
        node.nodeId == credential.nodeId && node.deletedAt.isNone)).map
    fun credential => (credential.tenantId, credential.nodeId)

inductive InsertOutcome where
  | accepted
  | sequenceConflict
  | replayConflict
  deriving DecidableEq, Repr

def Service.envelopeDigest (service : Service Bytes Digest) (record : TelemetryEnvelope) : Digest :=
  service.sha256 (service.codec.toVec record)

/-- The checks of `materialize_alert` before its statements. -/
def checkAlert (record : TelemetryEnvelope) : ApiResult (ProcessAlert × UnixTimestamp) :=
  match ProcessAlert.fromValue record.payload with
  | none => .error (.invalid "process_alert payload does not match schema v1")
  | some alert =>
      if isBlank alert.instanceId || isBlank alert.ruleId || !isAlertState alert.state then
        .error (.invalid "process_alert identity or state is invalid")
      else do
        let observed ← UnixTimestamp.fromNanos alert.observedAtUnixNanos
        return (alert, observed)

section Transaction

variable (environment : StatementEnvironment Digest) (session : Option Uuid) (tenantId : Uuid)

def materializeAlert (record : TelemetryEnvelope) (db : Database Digest) :
    ApiResult (Database Digest) := do
  let (alert, observed) ← checkAlert record
  let db ← upsertAlert environment session tenantId record.nodeId alert record.payload
    observed.timestamptz db
  if alert.state = "firing" then
    insertDeliveries environment session tenantId alert.instanceId db
  else
    return db

/-- The row `insert_envelope` proposes for a record. -/
def messageRow (record : TelemetryEnvelope) (observed : UnixTimestamp) : MessageRow Digest where
  tenantId
  nodeId := record.nodeId
  messageId := record.messageId
  sequence := record.sequence
  schemaVersion := record.schemaVersion
  kind := record.kind.name
  observedAt := observed.timestamptz
  receivedAt := environment.now
  envelope := record.toValue
  envelopeDigest := some (service.envelopeDigest record)

/-- What follows the first insertion of a record: its alert and its job. -/
def admitRecord (record : TelemetryEnvelope) (db : Database Digest) :
    ApiResult (Database Digest) := do
  let db ← match record.kind with
    | .processAlert => materializeAlert environment session tenantId record db
    | _ => .ok db
  match record.kind with
  | .health => .ok db
  | _ => insertJob environment session tenantId record.nodeId record.messageId db

/-- What follows an insertion that a unique key refused. -/
def replayRecord (record : TelemetryEnvelope) (db : Database Digest) :
    ApiResult (Database Digest × InsertOutcome) := do
  match ← selectReplay environment session tenantId record.nodeId record.messageId db with
  | none => return (db, .sequenceConflict)
  | some stored =>
      match stored.envelopeDigest with
      | some digest =>
          if digest = service.envelopeDigest record then return (db, .accepted)
          else return (db, .replayConflict)
      | none =>
          if stored.envelope = record.toValue then
            let db ← updateDigest environment session tenantId record.nodeId record.messageId
              (service.envelopeDigest record) db
            return (db, .accepted)
          else
            return (db, .replayConflict)

def insertEnvelope (record : TelemetryEnvelope) (db : Database Digest) :
    ApiResult (Database Digest × InsertOutcome) :=
  if 2 ^ 63 ≤ record.sequence then
    .error (.invalid "sequence exceeds PostgreSQL bigint")
  else do
    let observed ← UnixTimestamp.fromNanos record.observedAtUnixNanos
    match ← insertMessage environment session tenantId record
        (messageRow service environment tenantId record observed) db with
    | some inserted =>
        let db ← admitRecord environment session tenantId record inserted
        return (db, .accepted)
    | none => replayRecord service environment session tenantId record db

end Transaction

/-- The acknowledgement after one more record. -/
def recordOutcome (record : TelemetryEnvelope) (acknowledgement : IngestionAcknowledgement) :
    InsertOutcome → IngestionAcknowledgement
  | .accepted => { acknowledgement with
      acceptedMessageIds := acknowledgement.acceptedMessageIds ++ [record.messageId]
      highestAcceptedSequence :=
        some (max (acknowledgement.highestAcceptedSequence.getD 0) record.sequence) }
  | .sequenceConflict => { acknowledgement with
      rejectedRecords := acknowledgement.rejectedRecords ++
        [⟨record.messageId, "sequence_conflict"⟩] }
  | .replayConflict => { acknowledgement with
      rejectedRecords := acknowledgement.rejectedRecords ++
        [⟨record.messageId, "message_id_content_conflict"⟩] }

/-- The per-record loop; `environment` is asked for the position of a record. -/
def ingestLoop (environment : Nat → StatementEnvironment Digest) (session : Option Uuid)
    (tenantId : Uuid) :
    List TelemetryEnvelope → Nat → Database Digest → IngestionAcknowledgement →
      ApiResult (Database Digest × IngestionAcknowledgement)
  | [], _, db, acknowledgement => .ok (db, acknowledgement)
  | record :: rest, index, db, acknowledgement => do
      let (db, outcome) ← insertEnvelope service (environment index) session tenantId record db
      ingestLoop environment session tenantId rest (index + 1) db
        (recordOutcome record acknowledgement outcome)

def recordBatchState (environment : StatementEnvironment Digest) (session : Option Uuid)
    (tenantId : Uuid) (nodeId : String) (highest : Option Nat) (db : Database Digest) :
    ApiResult (Database Digest) := do
  let db ← touchNode environment session tenantId nodeId db
  let db ← upsertActiveDay environment session tenantId nodeId db
  match highest with
  | none => .ok db
  | some highest =>
      if 2 ^ 63 ≤ highest then
        .error (.invalid "sequence exceeds PostgreSQL bigint")
      else
        upsertSequenceState environment session tenantId nodeId highest db

/-- What the environment decides about one request, beside the statements of
each record and those of the batch state. -/
structure RequestEnvironment (Digest : Type) where
  beginFails : Bool := false
  authenticationFails : Bool := false
  admits : Bool := true
  tenantFails : Bool := false
  now : Nat := 0
  record : Nat → StatementEnvironment Digest := fun _ => {}
  batchState : StatementEnvironment Digest := {}
  commitFails : Bool := false

/-- One request with what the environment decides about it. -/
structure Request (Digest : Type) where
  authorization : Option String
  batch : List TelemetryEnvelope
  environment : RequestEnvironment Digest := {}

/-- The identity `ingest` authenticates a request as. -/
def requestIdentity (db : Database Digest) (request : Request Digest) : Option (Uuid × String) := do
  let token ← bearerToken request.authorization
  authenticate request.environment.now db (service.tokenDigest token)

/-- The transaction of a request, for an authenticated node. -/
def ingestTransaction (db : Database Digest) (request : Request Digest) (tenantId : Uuid)
    (nodeId : String) : ApiResult (Database Digest × IngestionAcknowledgement) :=
  if request.batch.any fun record => record.nodeId ≠ nodeId then
    .error (.invalid "every envelope node_id must match the authenticated node")
  else if request.environment.admits = false then
    .error .saturated
  else if request.environment.tenantFails then
    .error .database
  else do
    let session := some tenantId
    let (db, acknowledgement) ← ingestLoop service request.environment.record session tenantId
      request.batch 0 db {}
    let db ← recordBatchState request.environment.batchState session tenantId nodeId
      acknowledgement.highestAcceptedSequence db
    if request.environment.commitFails then .error .database else .ok (db, acknowledgement)

/-- `ingest` up to its result: the committed database with the answer. -/
def ingestResult (db : Database Digest) (request : Request Digest) :
    ApiResult (Database Digest × IngestionAcknowledgement) := do
  validateBatch request.batch
  match bearerToken request.authorization with
  | none => .error .unauthorized
  | some token =>
      if request.environment.beginFails then .error .database
      else if request.environment.authenticationFails then .error .database
      else match authenticate request.environment.now db (service.tokenDigest token) with
        | none => .error .unauthorized
        | some (tenantId, nodeId) => ingestTransaction service db request tenantId nodeId

/-- `ingest`: an error rolls the transaction back. -/
def ingest (db : Database Digest) (request : Request Digest) :
    Database Digest × ApiResult IngestionAcknowledgement :=
  match ingestResult service db request with
  | .ok (committed, acknowledgement) => (committed, .ok acknowledgement)
  | .error failure => (db, .error failure)

end Handler

/-! ## A small deployment -/

/-- A service whose digests are the values they are taken of. -/
def plainService : Service TelemetryEnvelope (TelemetryEnvelope ⊕ String) where
  codec := plainCodec
  sha256 := .inl
  tokenDigest := .inr

/-- The token of a node; it has the least length a token may have. -/
def plainToken (nodeId : String) : String :=
  "token-of-32-characters-for-" ++ nodeId

/-- Two nodes of one tenant with a credential each, and nothing ingested. -/
def plainDatabase : Database (TelemetryEnvelope ⊕ String) where
  tenants := [{ tenantId := 1 }]
  nodes := [{ tenantId := 1, nodeId := "nodea" }, { tenantId := 1, nodeId := "nodeb" }]
  enrollmentCredentials := ["nodea", "nodeb"].map fun nodeId => {
    tenantId := 1
    nodeId
    tokenHash := .inr (plainToken nodeId)
    expiresAt := 4000000000 }

def plainRequest (nodeId : String) (batch : List TelemetryEnvelope) :
    Request (TelemetryEnvelope ⊕ String) where
  authorization := some ("Bearer " ++ plainToken nodeId)
  batch

/-- A health record of a node. -/
def plainRecord (nodeId : String) (sequence : Nat) : TelemetryEnvelope where
  schemaVersion := 1
  messageId := nodeId ++ "-" ++ Nat.repr sequence
  nodeId
  sequence
  observedAtUnixNanos := 1700000000000000000
  kind := .health
  payload := .bool true
  attributes := ∅

end SystemPilot.Cloud
