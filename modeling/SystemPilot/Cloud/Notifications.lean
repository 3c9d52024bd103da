import Mathlib.Tactic
import SystemPilot.Library.Machine
import SystemPilot.Cloud.Isolation
import SystemPilot.Cloud.Queues

/-!
# What a notification says

Ingestion and the notification queue together.  A delivery names the instance of
its alert only; the payload is joined from the row of the alert when the
delivery is leased, and every later transition of that instance overwrites the
row.  Beside the database we keep which firing envelope each delivery was
created for.
-/

set_option autoImplicit false

namespace SystemPilot.Cloud

open SystemPilot.Json
open SystemPilot.Library
open SystemPilot.Telemetry

/-- The payload of the firing envelope a delivery was created for. -/
structure Firing where
  tenantId : Uuid
  deliveryId : Nat
  payload : Value
  deriving DecidableEq

/-- The firing is the one of this delivery. -/
def Firing.isOf (firing : Firing) (row : DeliveryRow) : Prop :=
  row.tenantId = firing.tenantId ∧ row.id = firing.deliveryId

structure NotificationState (Digest : Type) where
  db : Database Digest
  firings : List Firing := []

/-- A request of a node, or a call of a notification worker at some time. -/
inductive NotificationEvent (Digest : Type) where
  | ingest (request : Request Digest)
  | lease (now : Nat)
  | complete (now : Nat) (tenantId : Uuid) (deliveryId : Nat)
  | fail (now : Nat) (tenantId : Uuid) (deliveryId : Nat) (failureCode : String)

/-- The delivery can still be leased, now or after a failure. -/
def unsettled (row : DeliveryRow) : Bool :=
  row.status == .pending || row.status == .leased

section Step

variable {Bytes Digest : Type} [DecidableEq Digest] (service : Service Bytes Digest)

/-- The deliveries a record created, with its payload. -/
def createdFirings (record : TelemetryEnvelope) (before after : Database Digest) : List Firing :=
  (after.notificationDeliveries.drop before.notificationDeliveries.length).map fun row =>
    ⟨row.tenantId, row.id, record.payload⟩

/-- The deliveries a batch creates, record by record. -/
def loopFirings (environments : Nat → StatementEnvironment Digest) (tenantId : Uuid) :
    List TelemetryEnvelope → Nat → Database Digest → List Firing
  | [], _, _ => []
  | record :: rest, index, db =>
      match insertEnvelope service (environments index) (some tenantId) tenantId record db with
      | .ok (after, _) =>
          createdFirings record db after ++
            loopFirings environments tenantId rest (index + 1) after
      | .error _ => []

def requestFirings (db : Database Digest) (request : Request Digest) : List Firing :=
  match requestIdentity service db request with
  | some (tenantId, _) =>
      loopFirings service request.environment.record tenantId request.batch 0 db
  | none => []

/-- One request or one call; the primary key of `notification_deliveries` refuses
a request that would use an identity twice. -/
def notificationStep (state : NotificationState Digest) :
    NotificationEvent Digest → NotificationState Digest
  | .ingest request =>
      match ingest service state.db request with
      | (after, .ok _) =>
          if (after.notificationDeliveries.map QueueRow.key).Nodup then
            { db := after, firings := state.firings ++ requestFirings service state.db request }
          else state
      | (_, .error _) => state
  | .lease now =>
      match leaseNotificationDelivery now state.db.alerts state.db.notificationDeliveries with
      | .ok (notificationDeliveries, _) =>
          { state with db := { state.db with notificationDeliveries } }
      | .error _ => state
  | .complete now tenantId deliveryId =>
      { state with
        db := { state.db with
          notificationDeliveries :=
            (completeNotificationDelivery now tenantId deliveryId
              state.db.notificationDeliveries).1 } }
  | .fail now tenantId deliveryId failureCode =>
      { state with
        db := { state.db with
          notificationDeliveries :=
            (failNotificationDelivery now tenantId deliveryId failureCode
              state.db.notificationDeliveries).1 } }

/-- A delivery that is leased carries the payload of its firing envelope. -/
def LeasedAsFired (state : NotificationState Digest) (event : NotificationEvent Digest) : Prop :=
  ∀ now row deliveries leased, event = .lease now →
    Queue.firstDue (QueueRow.isDue now) state.db.notificationDeliveries = some row →
    leaseNotificationDelivery now state.db.alerts state.db.notificationDeliveries =
      .ok (deliveries, leased) →
    ∀ firing ∈ state.firings, firing.isOf row →
      ∃ delivery, leased = some delivery ∧ delivery.tenantId = row.tenantId ∧
        delivery.deliveryId = row.id ∧ delivery.payload = firing.payload ∧
        ∃ alert, ProcessAlert.fromValue delivery.payload = some alert ∧ alert.state = "firing"

/-- The record is a transition that would replace, by another payload, the row of
an alert that an unsettled delivery is about. -/
def OverwritesUnsettled (tenantId : Uuid) (db : Database Digest) (record : TelemetryEnvelope) :
    Prop :=
  db.telemetryMessages.any (MessageRow.conflicts tenantId record) = false ∧
    record.kind = .processAlert ∧
    ∃ alert observed, checkAlert record = .ok (alert, observed) ∧
      ∃ row ∈ db.notificationDeliveries, unsettled row = true ∧ row.tenantId = tenantId ∧
        row.subject.alertInstanceId = alert.instanceId ∧
        ∃ fired ∈ db.alerts, fired.isAlert tenantId alert.instanceId = true ∧
          fired.payload ≠ record.payload

/-- No record of a batch does, at its turn. -/
def LoopSpares (environments : Nat → StatementEnvironment Digest) (tenantId : Uuid) :
    List TelemetryEnvelope → Nat → Database Digest → Prop
  | [], _, _ => True
  | record :: rest, index, db =>
      ¬OverwritesUnsettled tenantId db record ∧
        ∀ after outcome,
          insertEnvelope service (environments index) (some tenantId) tenantId record db =
            .ok (after, outcome) →
          LoopSpares environments tenantId rest (index + 1) after

def SparesUnsettled (state : NotificationState Digest) (event : NotificationEvent Digest) :
    Prop :=
  ∀ request, event = .ingest request → ∀ tenantId nodeId,
    requestIdentity service state.db request = some (tenantId, nodeId) →
    LoopSpares service request.environment.record tenantId request.batch 0 state.db

end Step

/-! ## The invariant -/

/-- The row of its alert still holds the payload of the firing of every delivery
that is not settled. -/
structure Backs {Digest : Type} (db : Database Digest) (firings : List Firing) : Prop where
  held : ∀ firing ∈ firings, ∃ row ∈ db.notificationDeliveries, firing.isOf row
  current : ∀ firing ∈ firings, ∀ row ∈ db.notificationDeliveries, firing.isOf row →
    unsettled row = true →
    ∃ alert, db.alerts.find? (AlertRow.isAlert row.tenantId row.subject.alertInstanceId) =
        some alert ∧ alert.payload = firing.payload
  fired : ∀ firing ∈ firings,
    ∃ alert, ProcessAlert.fromValue firing.payload = some alert ∧ alert.state = "firing"

section Records

variable {Bytes Digest : Type} {service : Service Bytes Digest} {tenantId : Uuid}
variable {db after : Database Digest} {record : TelemetryEnvelope} {outcome : InsertOutcome}
variable {firings : List Firing}

/-- A record leaves alerts and deliveries, or is a first transition. -/
theorem RecordChange.transition (change : RecordChange service tenantId db record after outcome) :
    (after.alerts = db.alerts ∧ after.notificationDeliveries = db.notificationDeliveries) ∨
    ∃ (environment : StatementEnvironment Digest) (alert : ProcessAlert)
      (observed : UnixTimestamp),
      db.telemetryMessages.any (MessageRow.conflicts tenantId record) = false ∧
        record.kind = .processAlert ∧ checkAlert record = .ok (alert, observed) ∧
        after.alerts = Table.upsert (AlertRow.isAlert tenantId alert.instanceId)
          (AlertRow.transition
            (alert.row tenantId record.nodeId record.payload observed.timestamptz))
          (alert.row tenantId record.nodeId record.payload observed.timestamptz) db.alerts ∧
        after.notificationDeliveries = db.notificationDeliveries ++
          if alert.state = "firing" then deliveryRows environment tenantId alert.instanceId db
          else [] := by
  cases change with
  | inserted environment observed checks bigint timestamp fresh node alert =>
      unfold admitEffect
      by_cases kind : record.kind = .processAlert
      · obtain ⟨decoded, moment, checked, -⟩ := alert kind
        rw [kind, checked]
        exact Or.inr ⟨environment, decoded, moment, fresh, rfl, rfl, rfl, rfl⟩
      · refine Or.inl ?_
        split
        · rename_i same _
          exact absurd same kind
        · exact ⟨rfl, rfl⟩
  | replayed stored found same => exact Or.inl ⟨rfl, rfl⟩
  | filled stored found legacy same => exact Or.inl ⟨rfl, rfl⟩
  | differs stored found content legacy => exact Or.inl ⟨rfl, rfl⟩
  | taken absent conflict => exact Or.inl ⟨rfl, rfl⟩

/-- Records only append deliveries. -/
theorem RecordChange.deliveries_prefix
    (change : RecordChange service tenantId db record after outcome) :
    db.notificationDeliveries <+: after.notificationDeliveries := by
  rcases change.transition with ⟨-, same⟩ | ⟨_, _, _, _, _, _, _, appended⟩
  · rw [same]
  · rw [appended]
    exact List.prefix_append _ _

theorem RecordSteps.deliveries_prefix {decisions : List Decision}
    (steps : RecordSteps service tenantId decisions db after) :
    db.notificationDeliveries <+: after.notificationDeliveries := by
  induction steps with
  | done => exact List.prefix_rfl
  | step record outcome rest db middle after change later inductionHypothesis =>
      exact change.deliveries_prefix.trans inductionHypothesis

theorem keysUnique_of_prefix {first second : List DeliveryRow} (initial : first <+: second)
    (unique : Table.KeysUnique QueueRow.key second) : Table.KeysUnique QueueRow.key first :=
  List.Nodup.sublist (initial.sublist.map QueueRow.key) unique

theorem isOf_key {firing : Firing} {left right : DeliveryRow} (leftOf : firing.isOf left)
    (rightOf : firing.isOf right) : left.key = right.key :=
  Prod.ext (leftOf.1.trans rightOf.1.symm) (leftOf.2.trans rightOf.2.symm)

/-- The row of an alert after a transition, and the rows of the others. -/
theorem find?_transition (tenantId : Uuid) (alert : ProcessAlert) (nodeId : String)
    (payload : Value) (observedAt : Nat) (alerts : List AlertRow) :
    (∃ row, (Table.upsert (AlertRow.isAlert tenantId alert.instanceId)
        (AlertRow.transition (alert.row tenantId nodeId payload observedAt))
        (alert.row tenantId nodeId payload observedAt) alerts).find?
          (AlertRow.isAlert tenantId alert.instanceId) = some row ∧ row.payload = payload) ∧
      ∀ other instanceId, ¬(other = tenantId ∧ instanceId = alert.instanceId) →
        (Table.upsert (AlertRow.isAlert tenantId alert.instanceId)
          (AlertRow.transition (alert.row tenantId nodeId payload observedAt))
          (alert.row tenantId nodeId payload observedAt) alerts).find?
            (AlertRow.isAlert other instanceId) =
          alerts.find? (AlertRow.isAlert other instanceId) := by
  constructor
  · refine ⟨_, Table.find?_upsert_self (by simp [AlertRow.isAlert, ProcessAlert.row])
      (by exact fun _ same => same), ?_⟩
    cases alerts.find? (AlertRow.isAlert tenantId alert.instanceId) with
    | none => rfl
    | some row => rfl
  · intro other instanceId distinct
    refine Table.find?_upsert_of_foreign ?_ ?_
    · simp only [AlertRow.isAlert, ProcessAlert.row, Bool.and_eq_false_iff, beq_eq_false_iff_ne]
      by_cases same : tenantId = other
      · exact Or.inr fun instance_ => distinct ⟨same.symm, instance_.symm⟩
      · exact Or.inl same
    · intro old selected
      have same : old.tenantId = tenantId ∧ old.alertInstanceId = alert.instanceId := by
        simpa [AlertRow.isAlert] using selected
      have foreign : old.isAlert other instanceId = false := by
        simp only [AlertRow.isAlert, Bool.and_eq_false_iff, beq_eq_false_iff_ne, same.1, same.2]
        by_cases tenant : tenantId = other
        · exact Or.inr fun instance_ => distinct ⟨tenant.symm, instance_.symm⟩
        · exact Or.inl tenant
      exact ⟨foreign, foreign⟩

/-- The step lemma for one record. -/
theorem backs_record (change : RecordChange service tenantId db record after outcome)
    (unique : Table.KeysUnique QueueRow.key after.notificationDeliveries)
    (spares : ¬OverwritesUnsettled tenantId db record) (backs : Backs db firings) :
    Backs after (firings ++ createdFirings record db after) := by
  rcases change.transition with ⟨sameAlerts, sameDeliveries⟩ |
    ⟨environment, alert, observed, fresh, kind, checked, alerts, deliveries⟩
  · have nothing : createdFirings record db after = [] := by
      simp [createdFirings, sameDeliveries]
    rw [nothing, List.append_nil]
    exact ⟨by rw [sameDeliveries]; exact backs.held,
      by rw [sameDeliveries, sameAlerts]; exact backs.current, backs.fired⟩
  · obtain ⟨⟨written, found, payload⟩, others⟩ :=
      find?_transition tenantId alert record.nodeId record.payload observed.timestamptz db.alerts
    rw [← alerts] at found others
    have created : createdFirings record db after =
        (if alert.state = "firing" then deliveryRows environment tenantId alert.instanceId db
          else []).map fun row => ⟨row.tenantId, row.id, record.payload⟩ := by
      rw [createdFirings, deliveries, List.drop_left]
    -- a created delivery is a row of the alert that was just written
    have createdRow : ∀ firing ∈ createdFirings record db after,
        alert.state = "firing" ∧ firing.payload = record.payload ∧
          ∃ row ∈ after.notificationDeliveries, firing.isOf row ∧ row.tenantId = tenantId ∧
            row.subject.alertInstanceId = alert.instanceId := by
      intro firing member
      rw [created] at member
      obtain ⟨row, inserted, rfl⟩ := List.mem_map.mp member
      split at inserted
      · rename_i firingState
        refine ⟨firingState, rfl, row, ?_, ⟨rfl, rfl⟩, ?_⟩
        · rw [deliveries, if_pos firingState]
          exact List.mem_append_right _ inserted
        · unfold deliveryRows at inserted
          obtain ⟨index, bound, rfl⟩ := List.mem_mapIdx.mp inserted
          exact ⟨rfl, rfl⟩
      · cases inserted
    have oldRow : ∀ row ∈ db.notificationDeliveries, row ∈ after.notificationDeliveries := by
      intro row member
      rw [deliveries]
      exact List.mem_append_left _ member
    constructor
    · intro firing member
      rcases List.mem_append.mp member with old | new
      · obtain ⟨row, rowMember, isOf⟩ := backs.held firing old
        exact ⟨row, oldRow row rowMember, isOf⟩
      · obtain ⟨-, -, row, rowMember, isOf, -⟩ := createdRow firing new
        exact ⟨row, rowMember, isOf⟩
    · intro firing member row rowMember isOf open_
      rcases List.mem_append.mp member with old | new
      · obtain ⟨other, otherMember, isOf'⟩ := backs.held firing old
        have same := unique.eq_of_mem QueueRow.key rowMember (oldRow other otherMember)
          (isOf_key isOf isOf')
        subst same
        obtain ⟨fired, firedFound, firedPayload⟩ := backs.current firing old row otherMember isOf
          open_
        by_cases touched : row.tenantId = tenantId ∧
          row.subject.alertInstanceId = alert.instanceId
        · obtain ⟨sameTenant, sameInstance⟩ := touched
          rw [sameTenant, sameInstance] at firedFound ⊢
          refine ⟨written, found, ?_⟩
          by_contra differs
          refine spares ⟨fresh, kind, alert, observed, checked, row, otherMember, open_, sameTenant,
            sameInstance, fired, List.mem_of_find?_eq_some firedFound,
            List.find?_some firedFound, ?_⟩
          rw [firedPayload, ← payload]
          exact fun equal => differs equal.symm
        · rw [others row.tenantId row.subject.alertInstanceId touched]
          exact ⟨fired, firedFound, firedPayload⟩
      · obtain ⟨-, samePayload, other, otherMember, isOf', sameTenant, sameInstance⟩ :=
          createdRow firing new
        have same := unique.eq_of_mem QueueRow.key rowMember otherMember (isOf_key isOf isOf')
        subst same
        rw [sameTenant, sameInstance]
        exact ⟨written, found, payload.trans samePayload.symm⟩
    · intro firing member
      rcases List.mem_append.mp member with old | new
      · exact backs.fired firing old
      · obtain ⟨firingState, samePayload, -⟩ := createdRow firing new
        rw [samePayload]
        exact ⟨alert, (checkAlert_ok record alert observed checked).1, firingState⟩

variable [DecidableEq Digest]

/-- The loop keeps the rows behind all deliveries. -/
theorem backs_loop (environments : Nat → StatementEnvironment Digest)
    (batch : List TelemetryEnvelope) (index : Nat) (db after : Database Digest)
    (start result : IngestionAcknowledgement) (firings : List Firing)
    (ran : ingestLoop service environments (some tenantId) tenantId batch index db start =
      .ok (after, result))
    (unique : Table.KeysUnique QueueRow.key after.notificationDeliveries)
    (spares : LoopSpares service environments tenantId batch index db) (backs : Backs db firings) :
    Backs after (firings ++ loopFirings service environments tenantId batch index db) := by
  induction batch generalizing index db start firings with
  | nil =>
      cases ran
      simpa [loopFirings] using backs
  | cons record rest inductionHypothesis =>
      rw [ingestLoop] at ran
      obtain ⟨⟨middle, outcome⟩, decided, ran⟩ := (bind_ok_iff _ _ _).mp ran
      have change := insertEnvelope_ok service (environments index) tenantId record db middle
        outcome decided
      obtain ⟨-, steps, -⟩ := ingestLoop_ok service tenantId environments rest (index + 1) middle
        after (recordOutcome record start outcome) result ran
      have middleUnique := keysUnique_of_prefix steps.deliveries_prefix unique
      have recorded := backs_record change middleUnique spares.1 backs
      rw [loopFirings, decided]
      dsimp only
      rw [← List.append_assoc]
      exact inductionHypothesis (index + 1) middle (recordOutcome record start outcome)
        (firings ++ createdFirings record db middle) ran (spares.2 middle outcome decided) recorded

end Records

/-! ## The queue -/

section Queue

variable {Digest : Type} {db : Database Digest} {firings : List Firing}

/-- A change of unsettled rows that keeps key and subject keeps the invariant. -/
theorem backs_update {selects : DeliveryRow → Bool} {change : DeliveryRow → DeliveryRow}
    (backs : Backs db firings)
    (selected : ∀ row ∈ db.notificationDeliveries, selects row = true → unsettled row = true)
    (key : ∀ row, (change row).key = row.key) (subject : ∀ row, (change row).subject = row.subject) :
    Backs { db with
      notificationDeliveries := Table.update selects change db.notificationDeliveries }
      firings := by
  have sameKey : ∀ row, (change row).tenantId = row.tenantId ∧ (change row).id = row.id :=
    fun row => Prod.mk.inj (key row)
  refine ⟨?_, ?_, backs.fired⟩
  · intro firing member
    obtain ⟨row, rowMember, isOf⟩ := backs.held firing member
    by_cases touched : selects row = true
    · refine ⟨change row, Table.mem_update.mpr (Or.inr ⟨row, rowMember, touched, rfl⟩), ?_⟩
      exact ⟨(sameKey row).1.trans isOf.1, (sameKey row).2.trans isOf.2⟩
    · exact ⟨row, Table.mem_update.mpr (Or.inl ⟨rowMember, by simpa using touched⟩), isOf⟩
  · intro firing member row rowMember isOf open_
    rcases Table.mem_update.mp rowMember with ⟨old, -⟩ | ⟨old, oldMember, touched, rfl⟩
    · exact backs.current firing member row old isOf open_
    · have isOld : firing.isOf old :=
        ⟨(sameKey old).1.symm.trans isOf.1, (sameKey old).2.symm.trans isOf.2⟩
      have current := backs.current firing member old oldMember isOld
        (selected old oldMember touched)
      rw [(sameKey old).1, subject old]
      exact current

theorem unsettled_of_isDue {now : Nat} {row : DeliveryRow} (due : row.isDue now = true) :
    unsettled row = true := by
  unfold QueueRow.isDue QueueRow.awaits at due
  unfold unsettled
  rw [Bool.or_eq_true, Bool.and_eq_true] at due
  rcases due with ⟨pending, -⟩ | expired
  · rw [pending, Bool.true_or]
  · rw [(Queue.expired_iff.mp expired).1]
    rfl

theorem unsettled_of_isLeasedRow {tenantId : Uuid} {id : Nat} {row : DeliveryRow}
    (leased : Queue.isLeasedRow tenantId id row = true) : unsettled row = true := by
  unfold unsettled
  rw [(Queue.isLeasedRow_iff.mp leased).2]
  rfl

/-- What a lease leaves in the queue and returns. -/
theorem leaseNotificationDelivery_ok {now : Nat} {alerts : List AlertRow}
    {rows deliveries : List DeliveryRow} {leased : Option LeasedDelivery}
    (ran : leaseNotificationDelivery now alerts rows = .ok (deliveries, leased)) :
    (Queue.firstDue (QueueRow.isDue now) rows = none ∧ deliveries = rows) ∨
    ∃ row, Queue.firstDue (QueueRow.isDue now) rows = some row ∧
      deliveries = Table.update (QueueRow.isRow row.tenantId row.id) (QueueRow.lease now) rows ∧
      leased = joinAlert alerts (row.lease now) := by
  unfold leaseNotificationDelivery Queue.lease at ran
  obtain ⟨⟨after, taken⟩, queue, result⟩ := (bind_ok_iff _ _ _).mp ran
  cases result
  rcases Queue.leaseFirst_cases (QueueRow.isDue now) (QueueRow.lease now) rows with
    ⟨none, same⟩ | ⟨row, due, ⟨-, fails⟩ | ⟨-, same⟩⟩
  · rw [same] at queue
    cases queue
    exact Or.inl ⟨none, rfl⟩
  · rw [fails] at queue
    cases queue
  · rw [same] at queue
    cases queue
    exact Or.inr ⟨row, due, rfl, rfl⟩

end Queue

/-! ## Runs -/

/-- The invariant of a run. -/
structure NotificationInvariant {Digest : Type} (state : NotificationState Digest) : Prop where
  keys : Table.KeysUnique QueueRow.key state.db.notificationDeliveries
  backs : Backs state.db state.firings

section Runs

variable {Bytes Digest : Type} [DecidableEq Digest] (service : Service Bytes Digest)

theorem notificationStep_invariant (state : NotificationState Digest)
    (event : NotificationEvent Digest) (invariant : NotificationInvariant state)
    (spares : SparesUnsettled service state event) :
    NotificationInvariant (notificationStep service state event) := by
  obtain ⟨keys, backs⟩ := invariant
  cases event with
  | ingest request =>
      simp only [notificationStep]
      split
      · rename_i after acknowledgement answered
        split
        · rename_i unique
          refine ⟨unique, ?_⟩
          obtain ⟨tenantId, nodeId, recorded, transacted⟩ := (ingest_ok_iff _ _ _ _ _).mp answered
          have stated := recordBatchState_ok _ _ _ _ _ _ _ transacted.stated
          have looped : Backs recorded
              (state.firings ++ requestFirings service state.db request) := by
            unfold requestFirings
            rw [transacted.identity]
            exact backs_loop _ _ 0 _ _ _ _ _ transacted.looped (by rw [stated] at unique; exact unique)
              (spares request rfl tenantId nodeId transacted.identity) backs
          rw [stated]
          exact ⟨looped.held, looped.current, looped.fired⟩
        · exact ⟨keys, backs⟩
      · exact ⟨keys, backs⟩
  | lease now =>
      simp only [notificationStep]
      split
      · rename_i deliveries leased ran
        rcases leaseNotificationDelivery_ok ran with ⟨-, rfl⟩ | ⟨row, due, rfl, -⟩
        · exact ⟨keys, backs⟩
        · refine ⟨keys.update QueueRow.key fun _ => rfl, ?_⟩
          refine backs_update backs ?_ (fun _ => rfl) (fun _ => rfl)
          intro other member selected
          obtain ⟨rowMember, isDue⟩ := Queue.firstDue_some due
          have same := keys.eq_of_mem QueueRow.key member rowMember
            (Prod.ext (Queue.isRow_iff.mp selected).1 (Queue.isRow_iff.mp selected).2)
          rw [same]
          exact unsettled_of_isDue isDue
      · exact ⟨keys, backs⟩
  | complete now tenantId deliveryId =>
      exact ⟨keys.update QueueRow.key fun _ => rfl,
        backs_update backs (fun _ _ selected => unsettled_of_isLeasedRow selected) (fun _ => rfl)
          (fun _ => rfl)⟩
  | fail now tenantId deliveryId failureCode =>
      exact ⟨keys.update QueueRow.key fun _ => rfl,
        backs_update backs (fun _ _ selected => unsettled_of_isLeasedRow selected) (fun _ => rfl)
          (fun _ => rfl)⟩

omit [DecidableEq Digest] in
/-- Under the invariant a lease reads the payload of the firing envelope. -/
theorem leasedAsFired_of_invariant (state : NotificationState Digest)
    (event : NotificationEvent Digest) (invariant : NotificationInvariant state) :
    LeasedAsFired state event := by
  intro now row deliveries leased _ due ran firing member isOf
  obtain ⟨rowMember, isDue⟩ := Queue.firstDue_some due
  obtain ⟨alert, found, payload⟩ := invariant.backs.current firing member row rowMember isOf
    (unsettled_of_isDue isDue)
  rcases leaseNotificationDelivery_ok ran with ⟨none, -⟩ | ⟨other, due', -, joined⟩
  · rw [none] at due
    cases due
  · rw [due] at due'
    cases due'
    have result : joinAlert state.db.alerts (row.lease now) =
        some ⟨row.tenantId, row.id, row.subject.alertInstanceId, row.subject.channel,
          row.subject.destinationRef, alert.payload⟩ := by
      unfold joinAlert
      change (state.db.alerts.find?
        (AlertRow.isAlert row.tenantId row.subject.alertInstanceId) >>= _) = _
      rw [found]
      rfl
    refine ⟨_, joined.trans result, rfl, rfl, payload, ?_⟩
    rw [payload]
    exact invariant.backs.fired firing member

/-- Over every history of requests and worker calls in which no transition
replaces the row of an alert that an unsettled delivery is about: every delivery
is leased, again after each failure, with the payload of the firing envelope it
was created for. -/
theorem notifications_say_what_happened (start : Database Digest)
    (keys : Table.KeysUnique QueueRow.key start.notificationDeliveries)
    (events : List (NotificationEvent Digest))
    (spares : Machine.EveryStep (notificationStep service) (SparesUnsettled service)
      { db := start } events) :
    Machine.EveryStep (notificationStep service) LeasedAsFired { db := start } events :=
  Machine.everyStep_of_invariant (notificationStep service) NotificationInvariant
    (SparesUnsettled service) LeasedAsFired (notificationStep_invariant service)
    (fun state event invariant _ => leasedAsFired_of_invariant state event invariant)
    { db := start } events ⟨keys, ⟨nofun, nofun, nofun⟩⟩ spares

end Runs

/-! ## A resolved alert that is announced -/

/-- The small deployment with one destination. -/
def pagedDatabase : Database (TelemetryEnvelope ⊕ String) :=
  { plainDatabase with
    alertDestinations := [{ tenantId := 1, channel := "email", destinationRef := "ops" }] }

/-- A delivery that is leased before anything else happens. -/
theorem notifications_say_what_happened_paged :
    Machine.EveryStep (notificationStep plainService) LeasedAsFired { db := pagedDatabase }
      [.ingest (plainRequest "nodea" [plainAlert "nodea" 1 "firing"]), .lease 0] :=
  notifications_say_what_happened plainService pagedDatabase
    (by simp [Table.KeysUnique, pagedDatabase, plainDatabase])
    [.ingest (plainRequest "nodea" [plainAlert "nodea" 1 "firing"]), .lease 0] (by
      rw [Machine.everyStep_cons, Machine.everyStep_cons]
      refine ⟨?_, ?_, by simp [Machine.EveryStep, Machine.visited]⟩
      · rintro request asked tenantId nodeId -
        cases asked
        refine ⟨?_, fun _ _ _ => trivial⟩
        rintro ⟨-, -, alert, observed, -, row, member, -⟩
        simp [pagedDatabase, plainDatabase] at member
      · rintro request asked
        cases asked)

/-- The alert is resolved before its delivery is leased. -/
theorem resolved_alert_is_announced :
    let reached := Machine.run (notificationStep plainService) { db := pagedDatabase }
      [.ingest (plainRequest "nodea" [plainAlert "nodea" 1 "firing"]),
        .ingest (plainRequest "nodea" [plainAlert "nodea" 2 "resolved"])]
    reached.firings = [⟨1, 0, (plainAlert "nodea" 1 "firing").payload⟩] ∧
      (∃ deliveries delivery,
        leaseNotificationDelivery 0 reached.db.alerts reached.db.notificationDeliveries =
            .ok (deliveries, some delivery) ∧
          delivery.deliveryId = 0 ∧
          delivery.payload = (plainAlert "nodea" 2 "resolved").payload) ∧
      ¬Machine.EveryStep (notificationStep plainService) LeasedAsFired { db := pagedDatabase }
        [.ingest (plainRequest "nodea" [plainAlert "nodea" 1 "firing"]),
          .ingest (plainRequest "nodea" [plainAlert "nodea" 2 "resolved"]), .lease 0] := by
  intro reached
  let row : DeliveryRow :=
    ⟨1, 0, ⟨"rule-42", "email", "ops"⟩, .pending, 0, 0, none, none, 0, none⟩
  have firings : reached.firings = [⟨1, 0, (plainAlert "nodea" 1 "firing").payload⟩] := by decide
  have due : Queue.firstDue (QueueRow.isDue 0) reached.db.notificationDeliveries = some row := by
    decide
  have leased : leaseNotificationDelivery 0 reached.db.alerts reached.db.notificationDeliveries =
      .ok ([row.lease 0], some ⟨1, 0, "rule-42", "email", "ops",
        (plainAlert "nodea" 2 "resolved").payload⟩) := by
    decide
  refine ⟨firings, ⟨_, _, leased, rfl, rfl⟩, ?_⟩
  intro every
  have last : LeasedAsFired reached (.lease 0) := every (reached, .lease 0) (by
    rw [Machine.mem_visited_iff]
    exact ⟨[.ingest (plainRequest "nodea" [plainAlert "nodea" 1 "firing"]),
      .ingest (plainRequest "nodea" [plainAlert "nodea" 2 "resolved"])], [], rfl, rfl⟩)
  obtain ⟨delivery, same, -, -, payload, -⟩ := last 0 row _ _ rfl due leased
    ⟨1, 0, (plainAlert "nodea" 1 "firing").payload⟩ (by rw [firings]; simp) ⟨rfl, rfl⟩
  cases same
  revert payload
  decide

end SystemPilot.Cloud
