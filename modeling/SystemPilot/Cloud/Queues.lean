import Mathlib.Tactic
import SystemPilot.Cloud.Database

/-!
# The durable queues

`reasoning_jobs` and `notification_deliveries` with the functions workers call
on them: a lease takes the first due row for thirty seconds, `complete` and
`fail` settle a leased row.  Each function is one transaction.  Both queues have
the same columns and the same statements, so a function of one is the common one
at its table; the notification functions before migration 005 know no expiry.
-/

set_option autoImplicit false

namespace SystemPilot.Cloud

open SystemPilot.Json
open SystemPilot.Library
open SystemPilot.Telemetry

/-- The errors a queue function raises; its transaction is rolled back. -/
inductive QueueError where
  | checkViolation
  | foreignKeyViolation
  | raised (message : String)
  deriving DecidableEq, Repr

abbrev QueueResult (α : Type) := Except QueueError α

instance decidableEqResult {ε α : Type} [DecidableEq ε] [DecidableEq α] :
    DecidableEq (Except ε α)
  | .ok left, .ok right => decidable_of_iff (left = right) (by simp)
  | .error left, .error right => decidable_of_iff (left = right) (by simp)
  | .ok _, .error _ => isFalse (by simp)
  | .error _, .ok _ => isFalse (by simp)

/-- The `CHECK` bound of `attempt_count`. -/
def maxAttemptCount : Nat := 100

/-- Attempts after which `fail` gives a row up. -/
def retryLimit : Nat := 10

/-- `interval '30 seconds'`, in microseconds. -/
def leaseInterval : Nat := 30 * 1000000

/-- `make_interval(secs => LEAST(300, power(2, LEAST(attempt_count, 8))::integer))`. -/
def retryDelay (attemptCount : Nat) : Nat :=
  min 300 (2 ^ min attemptCount 8) * 1000000

/-- `left(text, 100)`. -/
def truncatedCode (code : String) : String :=
  String.ofList (code.toList.take 100)

/-! ## One row -/

section Row

variable {Subject : Type}

/-- The row has a primary key of its queue. -/
def QueueRow.isRow (tenantId : Uuid) (id : Nat) (row : QueueRow Subject) : Bool :=
  row.tenantId == tenantId && row.id == id

/-- `status='pending' AND available_at <= clock_timestamp()`. -/
def QueueRow.awaits (now : Nat) (row : QueueRow Subject) : Bool :=
  row.status == .pending && decide (row.availableAt ≤ now)

/-- `leased_until < clock_timestamp()` of a leased row; without a value it is not true. -/
def QueueRow.expired (now : Nat) (row : QueueRow Subject) : Bool :=
  row.status == .leased && row.leasedUntil.any fun moment => decide (moment < now)

def QueueRow.isDue (now : Nat) (row : QueueRow Subject) : Bool :=
  row.awaits now || row.expired now

def QueueRow.lease (now : Nat) (row : QueueRow Subject) : QueueRow Subject :=
  { row with
    status := .leased
    leasedUntil := some (now + leaseInterval)
    attemptCount := row.attemptCount + 1 }

def QueueRow.complete (now : Nat) (row : QueueRow Subject) : QueueRow Subject :=
  { row with
    status := .done
    finishedAt := some now
    leasedUntil := none
    failureCode := none }

def QueueRow.fail (now : Nat) (code : String) (row : QueueRow Subject) : QueueRow Subject :=
  { row with
    status := if retryLimit ≤ row.attemptCount then .failed else .pending
    availableAt := now + retryDelay row.attemptCount
    leasedUntil := none
    failureCode := some (truncatedCode code) }

/-- The primary key. -/
def QueueRow.key (row : QueueRow Subject) : Uuid × Nat :=
  (row.tenantId, row.id)

@[simp] theorem QueueRow.lease_key (now : Nat) (row : QueueRow Subject) :
    (row.lease now).key = row.key := rfl

@[simp] theorem QueueRow.complete_key (now : Nat) (row : QueueRow Subject) :
    (row.complete now).key = row.key := rfl

@[simp] theorem QueueRow.fail_key (now : Nat) (code : String) (row : QueueRow Subject) :
    (row.fail now code).key = row.key := rfl

end Row

/-! ## The statements of a queue -/

namespace Queue

variable {Subject : Type}

/-- `ORDER BY available_at, id … LIMIT 1` over the due rows. -/
def firstDue (due : QueueRow Subject → Bool) (rows : List (QueueRow Subject)) :
    Option (QueueRow Subject) :=
  (rows.filter due).argmin fun row => toLex (row.availableAt, row.id)

/-- The candidate is updated and returned, unless that violates the bound of
`attempt_count`. -/
def leaseFirst (due : QueueRow Subject → Bool) (change : QueueRow Subject → QueueRow Subject)
    (rows : List (QueueRow Subject)) :
    QueueResult (List (QueueRow Subject) × Option (QueueRow Subject)) :=
  match firstDue due rows with
  | none => .ok (rows, none)
  | some row =>
      if maxAttemptCount < (change row).attemptCount then .error .checkViolation
      else .ok (Table.update (QueueRow.isRow row.tenantId row.id) change rows, some (change row))

def lease (now : Nat) (rows : List (QueueRow Subject)) :
    QueueResult (List (QueueRow Subject) × Option (QueueRow Subject)) :=
  leaseFirst (QueueRow.isDue now) (QueueRow.lease now) rows

/-- The leased row of a primary key. -/
def isLeasedRow (tenantId : Uuid) (id : Nat) (row : QueueRow Subject) : Bool :=
  row.isRow tenantId id && row.status == .leased

/-- `UPDATE … WHERE tenant_id AND id AND status`, and whether it found a row. -/
def settle (change : QueueRow Subject → QueueRow Subject) (tenantId : Uuid) (id : Nat)
    (rows : List (QueueRow Subject)) : List (QueueRow Subject) × Bool :=
  (Table.update (isLeasedRow tenantId id) change rows, rows.any (isLeasedRow tenantId id))

def complete (now : Nat) (tenantId : Uuid) (id : Nat) (rows : List (QueueRow Subject)) :
    List (QueueRow Subject) × Bool :=
  settle (QueueRow.complete now) tenantId id rows

def fail (now : Nat) (code : String) (tenantId : Uuid) (id : Nat)
    (rows : List (QueueRow Subject)) : List (QueueRow Subject) × Bool :=
  settle (QueueRow.fail now code) tenantId id rows

/-! ## What a lease takes -/

section Lease

variable {due : QueueRow Subject → Bool} {change : QueueRow Subject → QueueRow Subject}
variable {rows : List (QueueRow Subject)} {row : QueueRow Subject}

theorem firstDue_some (found : firstDue due rows = some row) : row ∈ rows ∧ due row = true :=
  List.mem_filter.mp (List.argmin_mem found)

theorem firstDue_isSome (member : row ∈ rows) (isDue : due row = true) :
    ∃ first, firstDue due rows = some first := by
  rw [← Option.isSome_iff_exists, Option.isSome_iff_ne_none]
  intro none
  have empty := List.argmin_eq_none.mp none
  have listed : row ∈ rows.filter due := List.mem_filter.mpr ⟨member, isDue⟩
  rw [empty] at listed
  contradiction

/-- No due row was available before the one that is taken. -/
theorem firstDue_first (found : firstDue due rows = some row) {other : QueueRow Subject}
    (member : other ∈ rows) (isDue : due other = true) : row.availableAt ≤ other.availableAt := by
  have least := List.le_of_mem_argmin (List.mem_filter.mpr ⟨member, isDue⟩) found
  rcases (Prod.Lex.le_iff).mp least with earlier | ⟨same, _⟩
  · exact le_of_lt earlier
  · exact le_of_eq same

/-- A lease finds nothing, violates the bound, or changes the candidate. -/
theorem leaseFirst_cases (due : QueueRow Subject → Bool)
    (change : QueueRow Subject → QueueRow Subject) (rows : List (QueueRow Subject)) :
    (firstDue due rows = none ∧ leaseFirst due change rows = .ok (rows, none)) ∨
    ∃ row, firstDue due rows = some row ∧
      ((maxAttemptCount < (change row).attemptCount ∧
          leaseFirst due change rows = .error .checkViolation) ∨
        ((change row).attemptCount ≤ maxAttemptCount ∧
          leaseFirst due change rows =
            .ok (Table.update (QueueRow.isRow row.tenantId row.id) change rows,
              some (change row)))) := by
  unfold leaseFirst
  cases found : firstDue due rows with
  | none => exact Or.inl ⟨rfl, rfl⟩
  | some row =>
      refine Or.inr ⟨row, rfl, ?_⟩
      by_cases exceeds : maxAttemptCount < (change row).attemptCount
      · exact Or.inl ⟨exceeds, if_pos exceeds⟩
      · exact Or.inr ⟨not_lt.mp exceeds, if_neg exceeds⟩

theorem isRow_self (row : QueueRow Subject) : row.isRow row.tenantId row.id = true := by
  simp [QueueRow.isRow]

theorem isRow_iff {tenantId : Uuid} {id : Nat} :
    row.isRow tenantId id = true ↔ row.tenantId = tenantId ∧ row.id = id := by
  simp [QueueRow.isRow]

theorem isLeasedRow_iff {tenantId : Uuid} {id : Nat} :
    isLeasedRow tenantId id row = true ↔
      (row.tenantId = tenantId ∧ row.id = id) ∧ row.status = .leased := by
  simp [isLeasedRow, isRow_iff]

theorem expired_iff {now : Nat} :
    row.expired now = true ↔ row.status = .leased ∧ ∃ moment, row.leasedUntil = some moment ∧
      moment < now := by
  simp only [QueueRow.expired, Bool.and_eq_true, beq_iff_eq, Option.any_eq_true,
    decide_eq_true_eq]

end Lease

end Queue

/-! ## The reasoning queue -/

/-- What `lease_reasoning_job` returns. -/
structure LeasedJob where
  tenantId : Uuid
  jobId : Nat
  nodeId : String
  messageId : String
  envelope : Value
  deriving DecidableEq

/-- A row of `reasoning_results`. -/
structure ResultRow where
  tenantId : Uuid
  jobId : Nat
  result : Value
  createdAt : Nat
  deriving DecidableEq

def ResultRow.isResult (tenantId : Uuid) (jobId : Nat) (row : ResultRow) : Bool :=
  row.tenantId == tenantId && row.jobId == jobId

def leaseReasoningJob {Digest : Type} (now : Nat) (messages : List (MessageRow Digest))
    (jobs : List JobRow) : QueueResult (List JobRow × Option LeasedJob) := do
  let (jobs, leased) ← Queue.lease now jobs
  return (jobs, do
    let job ← leased
    let message ← messages.find?
      (MessageRow.isMessage job.tenantId job.subject.nodeId job.subject.messageId)
    return {
      tenantId := job.tenantId
      jobId := job.id
      nodeId := job.subject.nodeId
      messageId := job.subject.messageId
      envelope := message.envelope })

/-- The job and the result tables. -/
structure JobTables where
  jobs : List JobRow := []
  results : List ResultRow := []
  deriving DecidableEq

/-- `complete_reasoning_job`: the result is stored before the status is tested. -/
def completeReasoningJob (now : Nat) (tenantId : Uuid) (jobId : Nat) (result : Value)
    (tables : JobTables) : QueueResult (JobTables × Bool) :=
  if !result.isObject then .error (.raised "reasoning result must be an object")
  else if !tables.jobs.any (QueueRow.isRow tenantId jobId) then .error .foreignKeyViolation
  else
    let results := Table.upsert (ResultRow.isResult tenantId jobId)
      (fun row => { row with result }) ⟨tenantId, jobId, result, now⟩ tables.results
    let (jobs, found) := Queue.complete now tenantId jobId tables.jobs
    .ok ({ jobs, results }, found)

def failReasoningJob (now : Nat) (tenantId : Uuid) (jobId : Nat) (failureCode : String)
    (jobs : List JobRow) : List JobRow × Bool :=
  Queue.fail now failureCode tenantId jobId jobs

/-! ## The notification queue -/

/-- What `lease_notification_delivery` returns. -/
structure LeasedDelivery where
  tenantId : Uuid
  deliveryId : Nat
  alertInstanceId : String
  channel : String
  destinationRef : String
  payload : Value
  deriving DecidableEq

/-- `FROM leased JOIN alerts`: the payload is read when the row is leased. -/
def joinAlert (alerts : List AlertRow) (delivery : DeliveryRow) : Option LeasedDelivery := do
  let alert ← alerts.find?
    (AlertRow.isAlert delivery.tenantId delivery.subject.alertInstanceId)
  return {
    tenantId := delivery.tenantId
    deliveryId := delivery.id
    alertInstanceId := delivery.subject.alertInstanceId
    channel := delivery.subject.channel
    destinationRef := delivery.subject.destinationRef
    payload := alert.payload }

/-- `lease_notification_delivery` of migration 005. -/
def leaseNotificationDelivery (now : Nat) (alerts : List AlertRow)
    (deliveries : List DeliveryRow) :
    QueueResult (List DeliveryRow × Option LeasedDelivery) := do
  let (deliveries, leased) ← Queue.lease now deliveries
  return (deliveries, leased.bind (joinAlert alerts))

/-- `complete_notification_delivery` of migration 005. -/
def completeNotificationDelivery (now : Nat) (tenantId : Uuid) (deliveryId : Nat)
    (deliveries : List DeliveryRow) : List DeliveryRow × Bool :=
  Queue.complete now tenantId deliveryId deliveries

/-- `fail_notification_delivery` of migration 005. -/
def failNotificationDelivery (now : Nat) (tenantId : Uuid) (deliveryId : Nat)
    (failureCode : String) (deliveries : List DeliveryRow) : List DeliveryRow × Bool :=
  Queue.fail now failureCode tenantId deliveryId deliveries

end SystemPilot.Cloud
