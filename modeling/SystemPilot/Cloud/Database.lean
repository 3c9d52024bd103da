import Mathlib.Tactic
import SystemPilot.Text
import SystemPilot.Json
import SystemPilot.Library.Table
import SystemPilot.Telemetry.Envelope

/-!
# The collector's database

The tables of schema `syspilot_control` the ingestion handler reads or writes,
each a list of rows with the columns it uses, and the statements of the handler
with the constraints PostgreSQL checks for them.
-/

set_option autoImplicit false

namespace SystemPilot.Cloud

open SystemPilot.Text
open SystemPilot.Json
open SystemPilot.Library
open SystemPilot.Telemetry

/-- A `uuid` by its 128-bit value. -/
abbrev Uuid := Nat

structure TenantRow where
  tenantId : Uuid
  status : String := "active"
  deriving DecidableEq, Repr

structure NodeRow where
  tenantId : Uuid
  nodeId : String
  lastSeenAt : Option Nat := none
  deletedAt : Option Nat := none
  deriving DecidableEq, Repr

structure CredentialRow (Digest : Type) where
  tenantId : Uuid
  nodeId : String
  tokenHash : Digest
  expiresAt : Nat
  revokedAt : Option Nat := none
  deriving DecidableEq

/-- `telemetry_messages`; `observedAt` counts microseconds. -/
structure MessageRow (Digest : Type) where
  tenantId : Uuid
  nodeId : String
  messageId : String
  sequence : Nat
  schemaVersion : Nat
  kind : String
  observedAt : Nat
  receivedAt : Nat
  envelope : Value
  envelopeDigest : Option Digest
  deriving DecidableEq

/-- `[lower, upper)`. -/
structure Int8Range where
  lower : Int
  upper : Int
  deriving DecidableEq, Repr

/-- An `int8multirange`: ranges that are not empty, in order and apart. -/
structure Int8Multirange where
  ranges : List Int8Range
  nonempty : ∀ range ∈ ranges, range.lower < range.upper
  apart : ranges.Pairwise fun first second => first.upper < second.lower
  deriving DecidableEq, Repr

/-- The multirange without a range. -/
def Int8Multirange.empty : Int8Multirange := ⟨[], by simp, .nil⟩

def Int8Multirange.contains (multirange : Int8Multirange) (value : Int) : Bool :=
  multirange.ranges.any fun range => decide (range.lower ≤ value) && decide (value < range.upper)

@[simp] theorem Int8Multirange.contains_empty (value : Int) :
    Int8Multirange.empty.contains value = false := rfl

structure SequenceStateRow where
  tenantId : Uuid
  nodeId : String
  highestAcceptedSequence : Nat
  gapRanges : Int8Multirange := .empty
  updatedAt : Nat
  deriving DecidableEq, Repr

structure AlertRow where
  tenantId : Uuid
  alertInstanceId : String
  nodeId : String
  ruleId : String
  state : String
  payload : Value
  firstObservedAt : Nat
  lastTransitionAt : Nat
  deriving DecidableEq

structure DestinationRow where
  tenantId : Uuid
  channel : String
  destinationRef : String
  enabled : Bool := true
  deriving DecidableEq, Repr

structure ActiveDayRow where
  tenantId : Uuid
  usageDay : Nat
  nodeId : String
  firstSeenAt : Nat
  lastSeenAt : Nat
  deriving DecidableEq, Repr

/-- The states of both durable queues: `leased` is `running` of a reasoning job
and `sending` of a delivery, `done` is `completed` and `delivered`. -/
inductive QueueStatus where
  | pending
  | leased
  | done
  | failed
  | cancelled
  deriving DecidableEq, Repr

/-- A row of a durable queue with the columns both queues have. -/
structure QueueRow (Subject : Type) where
  tenantId : Uuid
  id : Nat
  subject : Subject
  status : QueueStatus := .pending
  attemptCount : Nat := 0
  availableAt : Nat
  leasedUntil : Option Nat := none
  failureCode : Option String := none
  createdAt : Nat
  finishedAt : Option Nat := none
  deriving DecidableEq

/-- What a row of `reasoning_jobs` is about. -/
structure JobSubject where
  nodeId : String
  messageId : String
  deriving DecidableEq, Repr

/-- What a row of `notification_deliveries` is about. -/
structure DeliverySubject where
  alertInstanceId : String
  channel : String
  destinationRef : String
  deriving DecidableEq, Repr

abbrev JobRow := QueueRow JobSubject

abbrev DeliveryRow := QueueRow DeliverySubject

structure Database (Digest : Type) where
  tenants : List TenantRow := []
  nodes : List NodeRow := []
  enrollmentCredentials : List (CredentialRow Digest) := []
  telemetryMessages : List (MessageRow Digest) := []
  nodeSequenceState : List SequenceStateRow := []
  alerts : List AlertRow := []
  alertDestinations : List DestinationRow := []
  activeServerDays : List ActiveDayRow := []
  reasoningJobs : List JobRow := []
  notificationDeliveries : List DeliveryRow := []
  deriving DecidableEq

/-! ## Errors and the transaction -/

inductive ApiError where
  | unauthorized
  | invalid (message : String)
  | saturated
  | database
  deriving DecidableEq, Repr

abbrev ApiResult (α : Type) := Except ApiError α

/-- The payload of a `process_alert` envelope. -/
structure ProcessAlert where
  instanceId : String := ""
  state : String := ""
  previousState : Option String := none
  ruleId : String
  processName : String
  pid : Int
  ppid : Int
  eventType : String
  observedAtUnixNanos : Nat
  labels : StringMap
  deriving DecidableEq

/-- The statements of the handler with the values bound to them. -/
inductive Statement (Digest : Type) where
  | insertMessage (tenantId : Uuid) (record : TelemetryEnvelope)
  | selectReplay (tenantId : Uuid) (nodeId messageId : String)
  | updateDigest (tenantId : Uuid) (nodeId messageId : String) (digest : Digest)
  | upsertAlert (tenantId : Uuid) (nodeId : String) (alert : ProcessAlert) (payload : Value)
  | insertDeliveries (tenantId : Uuid) (alertInstanceId : String)
  | insertJob (tenantId : Uuid) (nodeId messageId : String)
  | touchNode (tenantId : Uuid) (nodeId : String)
  | upsertActiveDay (tenantId : Uuid) (nodeId : String)
  | upsertSequenceState (tenantId : Uuid) (nodeId : String) (highest : Nat)
  deriving DecidableEq

/-- What the database decides about the statements of one step: the clock, the
identities it generates, and the statements it raises an error for beyond the
constraints modelled here. -/
structure StatementEnvironment (Digest : Type) where
  now : Nat := 0
  today : Nat := 0
  jobId : Nat := 0
  deliveryId : Nat → Nat := id
  raises : Statement Digest → Bool := fun _ => false

/-- The `tenant_isolation` policy for a row of `tenantId`, when the transaction
has set `syspilot.tenant_id` to `session`. -/
def rowPolicy (session : Option Uuid) (tenantId : Uuid) : Bool :=
  session == some tenantId

@[simp] theorem rowPolicy_some (tenantId : Uuid) : rowPolicy (some tenantId) tenantId = true := by
  simp [rowPolicy]

/-- `length(btrim(text))`. -/
def btrimLength (text : String) : Nat :=
  (trimMatches (· == ' ') text.toList).length

section Statements

variable {Digest : Type} [DecidableEq Digest]
variable (environment : StatementEnvironment Digest) (session : Option Uuid)

/-- A statement that writes rows of `tenantId`: the database may raise an error
for it, the row policy and the constraints are checked, then it takes effect. -/
def execute (tenantId : Uuid) (statement : Statement Digest) (constraints : Bool)
    (effect : Database Digest) : ApiResult (Database Digest) :=
  if environment.raises statement || !rowPolicy session tenantId || !constraints then
    .error .database
  else
    .ok effect

/-- The foreign key to `nodes`. -/
def Database.hasNode (db : Database Digest) (tenantId : Uuid) (nodeId : String) : Bool :=
  db.nodes.any fun row => row.tenantId == tenantId && row.nodeId == nodeId

/-- The row shares a unique key of `telemetry_messages` with a record. -/
def MessageRow.conflicts (tenantId : Uuid) (record : TelemetryEnvelope)
    (row : MessageRow Digest) : Bool :=
  row.tenantId == tenantId && row.nodeId == record.nodeId &&
    (row.messageId == record.messageId || row.sequence == record.sequence)

/-- The `CHECK` constraints of `telemetry_messages` on a record. -/
def messageChecks (record : TelemetryEnvelope) : Bool :=
  decide (1 ≤ btrimLength record.messageId) && decide (btrimLength record.messageId ≤ 500) &&
    decide (0 < record.sequence) && decide (0 < record.schemaVersion) && record.toValue.isObject

/-- `INSERT INTO telemetry_messages … ON CONFLICT DO NOTHING RETURNING true`:
the table with the row, or nothing when a unique key is taken.  The foreign key
is checked for an inserted row only. -/
def insertMessage (tenantId : Uuid) (record : TelemetryEnvelope) (row : MessageRow Digest)
    (db : Database Digest) : ApiResult (Option (Database Digest)) :=
  if environment.raises (.insertMessage tenantId record) || !rowPolicy session tenantId ||
      !messageChecks record then
    .error .database
  else if db.telemetryMessages.any (MessageRow.conflicts tenantId record) then
    .ok none
  else if db.hasNode tenantId record.nodeId then
    .ok (some { db with telemetryMessages := db.telemetryMessages ++ [row] })
  else
    .error .database

/-- The row has the primary key of a message. -/
def MessageRow.isMessage (tenantId : Uuid) (nodeId messageId : String)
    (row : MessageRow Digest) : Bool :=
  row.tenantId == tenantId && row.nodeId == nodeId && row.messageId == messageId

/-- `SELECT envelope_digest, envelope FROM telemetry_messages`. -/
def selectReplay (tenantId : Uuid) (nodeId messageId : String) (db : Database Digest) :
    ApiResult (Option (MessageRow Digest)) :=
  if environment.raises (.selectReplay tenantId nodeId messageId) then .error .database
  else .ok (db.telemetryMessages.find? fun row =>
    rowPolicy session row.tenantId && row.isMessage tenantId nodeId messageId)

/-- `UPDATE telemetry_messages SET envelope_digest … WHERE envelope_digest IS NULL`. -/
def updateDigest (tenantId : Uuid) (nodeId messageId : String) (digest : Digest)
    (db : Database Digest) : ApiResult (Database Digest) :=
  execute environment session tenantId (.updateDigest tenantId nodeId messageId digest) true
    { db with
      telemetryMessages := Table.update
        (fun row => row.isMessage tenantId nodeId messageId && row.envelopeDigest.isNone)
        (fun row => { row with envelopeDigest := some digest }) db.telemetryMessages }

/-- The states an alert may have. -/
def isAlertState (state : String) : Bool :=
  ["firing", "acknowledged", "resolved", "suppressed"].contains state

/-- The row has the primary key of an alert: the node is not part of it. -/
def AlertRow.isAlert (tenantId : Uuid) (alertInstanceId : String) (row : AlertRow) : Bool :=
  row.tenantId == tenantId && row.alertInstanceId == alertInstanceId

/-- The row an alert proposes for insertion. -/
def ProcessAlert.row (alert : ProcessAlert) (tenantId : Uuid) (nodeId : String)
    (payload : Value) (observedAt : Nat) : AlertRow where
  tenantId
  alertInstanceId := alert.instanceId
  nodeId
  ruleId := alert.ruleId
  state := alert.state
  payload
  firstObservedAt := observedAt
  lastTransitionAt := observedAt

/-- `DO UPDATE SET state, payload, last_transition_at`. -/
def AlertRow.transition (excluded row : AlertRow) : AlertRow :=
  { row with
    state := excluded.state
    payload := excluded.payload
    lastTransitionAt := excluded.lastTransitionAt }

/-- `INSERT INTO alerts … ON CONFLICT (tenant_id,alert_instance_id) DO UPDATE`. -/
def upsertAlert (tenantId : Uuid) (nodeId : String) (alert : ProcessAlert) (payload : Value)
    (observedAt : Nat) (db : Database Digest) : ApiResult (Database Digest) :=
  let row := alert.row tenantId nodeId payload observedAt
  let conflicts := AlertRow.isAlert tenantId alert.instanceId
  execute environment session tenantId (.upsertAlert tenantId nodeId alert payload)
    (isAlertState alert.state && payload.isObject &&
      (db.alerts.any conflicts || db.hasNode tenantId nodeId))
    { db with
      alerts := Table.upsert conflicts (AlertRow.transition row) row db.alerts }

/-- `INSERT INTO notification_deliveries … SELECT … FROM alert_destinations`.  A
destination satisfies the constraints of its deliveries by its own. -/
def insertDeliveries (tenantId : Uuid) (alertInstanceId : String) (db : Database Digest) :
    ApiResult (Database Digest) :=
  let destinations := db.alertDestinations.filter fun row =>
    row.tenantId == tenantId && row.enabled
  execute environment session tenantId (.insertDeliveries tenantId alertInstanceId)
    (destinations.isEmpty || db.alerts.any (AlertRow.isAlert tenantId alertInstanceId))
    { db with
      notificationDeliveries := db.notificationDeliveries ++
        destinations.mapIdx fun index row => {
          tenantId
          id := environment.deliveryId index
          subject := ⟨alertInstanceId, row.channel, row.destinationRef⟩
          availableAt := environment.now
          createdAt := environment.now } }

/-- The job has the unique key of a message. -/
def isJobOf (tenantId : Uuid) (nodeId messageId : String) (row : JobRow) : Bool :=
  row.tenantId == tenantId && row.subject.nodeId == nodeId && row.subject.messageId == messageId

/-- `INSERT INTO reasoning_jobs … ON CONFLICT DO NOTHING`. -/
def insertJob (tenantId : Uuid) (nodeId messageId : String) (db : Database Digest) :
    ApiResult (Database Digest) :=
  execute environment session tenantId (.insertJob tenantId nodeId messageId)
    (db.reasoningJobs.any (isJobOf tenantId nodeId messageId) ||
      db.telemetryMessages.any (MessageRow.isMessage tenantId nodeId messageId))
    { db with
      reasoningJobs := Table.insertNew (isJobOf tenantId nodeId messageId)
        { tenantId
          id := environment.jobId
          subject := ⟨nodeId, messageId⟩
          availableAt := environment.now
          createdAt := environment.now } db.reasoningJobs }

/-- `UPDATE nodes SET last_seen_at`. -/
def touchNode (tenantId : Uuid) (nodeId : String) (db : Database Digest) :
    ApiResult (Database Digest) :=
  execute environment session tenantId (.touchNode tenantId nodeId) true
    { db with
      nodes := Table.update (fun row => row.tenantId == tenantId && row.nodeId == nodeId)
        (fun row => { row with lastSeenAt := some environment.now }) db.nodes }

/-- `INSERT INTO active_server_days … ON CONFLICT DO UPDATE SET last_seen_at`. -/
def upsertActiveDay (tenantId : Uuid) (nodeId : String) (db : Database Digest) :
    ApiResult (Database Digest) :=
  execute environment session tenantId (.upsertActiveDay tenantId nodeId)
    (db.hasNode tenantId nodeId)
    { db with
      activeServerDays := Table.upsert
        (fun row => row.tenantId == tenantId && row.usageDay == environment.today &&
          row.nodeId == nodeId)
        (fun row => { row with lastSeenAt := environment.now })
        { tenantId
          usageDay := environment.today
          nodeId
          firstSeenAt := environment.now
          lastSeenAt := environment.now } db.activeServerDays }

/-- The row has the primary key of a node. -/
def SequenceStateRow.isNode (tenantId : Uuid) (nodeId : String) (row : SequenceStateRow) : Bool :=
  row.tenantId == tenantId && row.nodeId == nodeId

/-- `INSERT INTO node_sequence_state … DO UPDATE SET … GREATEST(…)`. -/
def upsertSequenceState (tenantId : Uuid) (nodeId : String) (highest : Nat)
    (db : Database Digest) : ApiResult (Database Digest) :=
  execute environment session tenantId (.upsertSequenceState tenantId nodeId highest)
    (db.hasNode tenantId nodeId)
    { db with
      nodeSequenceState := Table.upsert (SequenceStateRow.isNode tenantId nodeId)
        (fun row => { row with
          highestAcceptedSequence := max row.highestAcceptedSequence highest
          updatedAt := environment.now })
        { tenantId
          nodeId
          highestAcceptedSequence := highest
          updatedAt := environment.now } db.nodeSequenceState }

end Statements

end SystemPilot.Cloud
