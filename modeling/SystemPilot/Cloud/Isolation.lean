import Mathlib.Tactic
import SystemPilot.Library.Machine
import SystemPilot.Cloud.NodeRows

/-!
# Isolation of the nodes

The view of a node: its rows without what the database generates for them, and
the tables no request writes.  A request of the node acts on its view alone and
the requests of others leave the view alone, as long as no request materializes
an alert of another node; histories that agree on a node's requests then agree
on its rows.
-/

set_option autoImplicit false

namespace SystemPilot.Cloud

open SystemPilot.Text
open SystemPilot.Json
open SystemPilot.Library
open SystemPilot.Telemetry

section View

variable {Bytes Digest : Type} {service : Service Bytes Digest}

/-! ## The view of a node -/

/-- The tables of the tenants, as far as requests leave them alone. -/
structure Registry (Digest : Type) where
  tenants : List TenantRow
  nodes : List NodeRow
  enrollmentCredentials : List (CredentialRow Digest)
  alertDestinations : List DestinationRow

def NodeRow.unseen (row : NodeRow) : NodeRow := { row with lastSeenAt := none }

def registry (db : Database Digest) : Registry Digest where
  tenants := db.tenants
  nodes := db.nodes.map NodeRow.unseen
  enrollmentCredentials := db.enrollmentCredentials
  alertDestinations := db.alertDestinations

/-- The columns the database fills in by itself are forgotten. -/
def MessageRow.ungenerated (row : MessageRow Digest) : MessageRow Digest :=
  { row with receivedAt := 0 }

def SequenceStateRow.ungenerated (row : SequenceStateRow) : SequenceStateRow :=
  { row with updatedAt := 0 }

def QueueRow.ungenerated {Subject : Type} (row : QueueRow Subject) : QueueRow Subject :=
  { row with
    id := 0
    availableAt := 0
    createdAt := 0 }

@[simp] theorem MessageRow.ungenerated_digest (row : MessageRow Digest) :
    row.ungenerated.envelopeDigest = row.envelopeDigest := rfl

@[simp] theorem MessageRow.ungenerated_envelope (row : MessageRow Digest) :
    row.ungenerated.envelope = row.envelope := rfl

/-- The rows up to generated identifiers and receipt times. -/
def NodeRows.ungenerated (rows : NodeRows Digest) : NodeRows Digest where
  messages := rows.messages.map MessageRow.ungenerated
  sequenceState := rows.sequenceState.map SequenceStateRow.ungenerated
  alerts := rows.alerts
  jobs := rows.jobs.map QueueRow.ungenerated
  deliveries := rows.deliveries.map QueueRow.ungenerated

/-- Two databases show a node the same. -/
structure Agree (tenantId : Uuid) (nodeId : String) (left right : Database Digest) : Prop where
  registry : registry left = registry right
  rows : (nodeRows tenantId nodeId left).ungenerated = (nodeRows tenantId nodeId right).ungenerated

theorem Agree.symm {tenantId : Uuid} {nodeId : String} {left right : Database Digest}
    (agree : Agree tenantId nodeId left right) : Agree tenantId nodeId right left :=
  ⟨agree.registry.symm, agree.rows.symm⟩

section Components

variable {tenantId : Uuid} {nodeId : String} {left right : Database Digest}

theorem Agree.messages (agree : Agree tenantId nodeId left right) :
    (left.telemetryMessages.filter (MessageRow.isOf tenantId nodeId)).map
        MessageRow.ungenerated =
      (right.telemetryMessages.filter (MessageRow.isOf tenantId nodeId)).map
        MessageRow.ungenerated :=
  congrArg NodeRows.messages agree.rows

theorem Agree.sequenceState (agree : Agree tenantId nodeId left right) :
    (left.nodeSequenceState.filter (SequenceStateRow.isNode tenantId nodeId)).map
        SequenceStateRow.ungenerated =
      (right.nodeSequenceState.filter (SequenceStateRow.isNode tenantId nodeId)).map
        SequenceStateRow.ungenerated :=
  congrArg NodeRows.sequenceState agree.rows

theorem Agree.alerts (agree : Agree tenantId nodeId left right) :
    left.alerts.filter (AlertRow.isOf tenantId nodeId) =
      right.alerts.filter (AlertRow.isOf tenantId nodeId) :=
  congrArg NodeRows.alerts agree.rows

theorem Agree.jobs (agree : Agree tenantId nodeId left right) :
    (left.reasoningJobs.filter (isJobOfNode tenantId nodeId)).map QueueRow.ungenerated =
      (right.reasoningJobs.filter (isJobOfNode tenantId nodeId)).map QueueRow.ungenerated :=
  congrArg NodeRows.jobs agree.rows

theorem Agree.deliveries (agree : Agree tenantId nodeId left right) :
    (left.notificationDeliveries.filter (isDeliveryOf left.alerts tenantId nodeId)).map
        QueueRow.ungenerated =
      (right.notificationDeliveries.filter (isDeliveryOf right.alerts tenantId nodeId)).map
        QueueRow.ungenerated :=
  congrArg NodeRows.deliveries agree.rows

end Components

/-! ## What a node's records read -/

section Reads

variable {tenantId : Uuid} {nodeId : String} {left right : Database Digest}

theorem hasNode_registry (db : Database Digest) (tenantId : Uuid) (nodeId : String) :
    db.hasNode tenantId nodeId =
      (registry db).nodes.any fun row => row.tenantId == tenantId && row.nodeId == nodeId := by
  show db.nodes.any _ = (db.nodes.map NodeRow.unseen).any _
  exact (Table.any_map_of_blind (by exact fun _ => rfl)).symm

theorem Agree.hasNode (agree : Agree tenantId nodeId left right) (other : Uuid)
    (otherNode : String) : left.hasNode other otherNode = right.hasNode other otherNode := by
  rw [hasNode_registry, hasNode_registry, agree.registry]

theorem isTaken_rows (db : Database Digest) (record : TelemetryEnvelope) :
    isTaken db tenantId record =
      (nodeRows tenantId record.nodeId db).ungenerated.messages.any
        (MessageRow.conflicts tenantId record) := by
  have owned : ∀ row ∈ db.telemetryMessages, row.conflicts tenantId record = true →
      row.isOf tenantId record.nodeId = true := by
    intro row _ conflict
    simp only [MessageRow.conflicts, MessageRow.isOf, Bool.and_eq_true] at conflict ⊢
    exact conflict.1
  rw [isTaken, ← Table.any_filter_of_owned owned]
  show _ = (List.map MessageRow.ungenerated _).any _
  exact (Table.any_map_of_blind (by exact fun _ => rfl)).symm

theorem storedMessage_rows (db : Database Digest) (messageId : String) :
    (storedMessage db tenantId nodeId messageId).map MessageRow.ungenerated =
      (nodeRows tenantId nodeId db).ungenerated.messages.find?
        (MessageRow.isMessage tenantId nodeId messageId) := by
  have owned : ∀ row ∈ db.telemetryMessages, row.isMessage tenantId nodeId messageId = true →
      row.isOf tenantId nodeId = true := by
    intro row _ selected
    simp only [MessageRow.isMessage, MessageRow.isOf, Bool.and_eq_true] at selected ⊢
    exact selected.1
  rw [storedMessage, ← Table.find?_filter_of_owned owned]
  show _ = (List.map MessageRow.ungenerated _).find? _
  rw [List.find?_map]
  rfl

theorem authenticate_registry [DecidableEq Digest] {now : Nat} {digest : Digest}
    (same : registry left = registry right) :
    authenticate now left digest = authenticate now right digest := by
  have live : ∀ db : Database Digest, ∀ credential : CredentialRow Digest,
      (db.nodes.any fun node => node.tenantId == credential.tenantId &&
        node.nodeId == credential.nodeId && node.deletedAt.isNone) =
      ((registry db).nodes.any fun node => node.tenantId == credential.tenantId &&
        node.nodeId == credential.nodeId && node.deletedAt.isNone) := by
    intro db credential
    exact (Table.any_map_of_blind (by exact fun _ => rfl)).symm
  have tenants : left.tenants = right.tenants := congrArg Registry.tenants same
  have credentials : left.enrollmentCredentials = right.enrollmentCredentials :=
    congrArg Registry.enrollmentCredentials same
  simp only [authenticate, live, tenants, credentials, same]

end Reads

/-! ## What a node's records write -/

section Writes

variable {tenantId : Uuid} {record : TelemetryEnvelope} {left right : Database Digest}
variable {environment environment' : StatementEnvironment Digest}

/-- The deliveries of one alert differ in what the database generates only. -/
theorem deliveryRows_ungenerated (alertInstanceId : String)
    (same : left.alertDestinations = right.alertDestinations) :
    (deliveryRows environment tenantId alertInstanceId left).map QueueRow.ungenerated =
      (deliveryRows environment' tenantId alertInstanceId right).map QueueRow.ungenerated := by
  apply List.ext_getElem?
  intro index
  simp only [deliveryRows, List.getElem?_map, List.getElem?_mapIdx, Option.map_map, same]
  rfl

theorem alertEffect_own (environment : StatementEnvironment Digest) (observed : UnixTimestamp)
    {db : Database Digest} {alert : ProcessAlert} (references : References db)
    (own : ∀ row ∈ db.alerts, row.isAlert tenantId alert.instanceId = true →
      row.nodeId = record.nodeId) :
    let after := alertEffect environment tenantId record alert observed db
    let row := alert.row tenantId record.nodeId record.payload observed.timestamptz
    after.alerts.filter (AlertRow.isOf tenantId record.nodeId) =
        Table.upsert (AlertRow.isAlert tenantId alert.instanceId) (AlertRow.transition row) row
          (db.alerts.filter (AlertRow.isOf tenantId record.nodeId)) ∧
      after.notificationDeliveries.filter
          (isDeliveryOf after.alerts tenantId record.nodeId) =
        db.notificationDeliveries.filter (isDeliveryOf db.alerts tenantId record.nodeId) ++
          if alert.state = "firing" then deliveryRows environment tenantId alert.instanceId db
          else [] := by
  intro after row
  constructor
  · apply Table.filter_upsert_of_owned
    · simp [AlertRow.isOf, ProcessAlert.row]
    · intro old member conflict
      simp [AlertRow.isOf, ((isAlert_iff _ _ _).mp conflict).1, own old member conflict]
    · exact fun _ _ => rfl
  · have kept : db.notificationDeliveries.filter
        (isDeliveryOf after.alerts tenantId record.nodeId) =
        db.notificationDeliveries.filter (isDeliveryOf db.alerts tenantId record.nodeId) :=
      List.filter_congr fun delivery member => isDeliveryOf_alertEffect references member _ _
    have new : (if alert.state = "firing" then deliveryRows environment tenantId alert.instanceId db
        else []).filter (isDeliveryOf after.alerts tenantId record.nodeId) =
        if alert.state = "firing" then deliveryRows environment tenantId alert.instanceId db
        else [] := by
      rw [List.filter_eq_self]
      intro delivery member
      split at member
      · exact (isDeliveryOf_new own member _ _).mpr rfl
      · simp at member
    show (db.notificationDeliveries ++ _).filter _ = _
    rw [List.filter_append, kept, new]

theorem Agree.alerts_admitEffect (agree : Agree tenantId record.nodeId left right)
    (leftReferences : References left) (rightReferences : References right)
    (leftOwn : NamesOwnAlert left tenantId record) (rightOwn : NamesOwnAlert right tenantId record) :
    let leftAfter := admitEffect environment tenantId record left
    let rightAfter := admitEffect environment' tenantId record right
    leftAfter.alerts.filter (AlertRow.isOf tenantId record.nodeId) =
        rightAfter.alerts.filter (AlertRow.isOf tenantId record.nodeId) ∧
      (leftAfter.notificationDeliveries.filter
          (isDeliveryOf leftAfter.alerts tenantId record.nodeId)).map QueueRow.ungenerated =
        (rightAfter.notificationDeliveries.filter
          (isDeliveryOf rightAfter.alerts tenantId record.nodeId)).map QueueRow.ungenerated := by
  intro leftAfter rightAfter
  have alerts := agree.alerts
  have deliveries := agree.deliveries
  by_cases materializes : record.kind = .processAlert ∧
      ∃ alert observed, checkAlert record = .ok (alert, observed)
  · obtain ⟨kind, alert, observed, checked⟩ := materializes
    have effect : ∀ (environment : StatementEnvironment Digest) (db : Database Digest),
        (admitEffect environment tenantId record db).alerts =
            (alertEffect environment tenantId record alert observed db).alerts ∧
          (admitEffect environment tenantId record db).notificationDeliveries =
            (alertEffect environment tenantId record alert observed db).notificationDeliveries := by
      intro environment db
      unfold admitEffect
      rw [kind, checked]
      exact ⟨rfl, rfl⟩
    obtain ⟨leftAlerts, leftDeliveries⟩ := alertEffect_own environment observed leftReferences
      (leftOwn kind alert observed checked)
    obtain ⟨rightAlerts, rightDeliveries⟩ := alertEffect_own environment' observed
      rightReferences (rightOwn kind alert observed checked)
    simp only [leftAfter, rightAfter, effect]
    refine ⟨by rw [leftAlerts, rightAlerts, alerts], ?_⟩
    rw [leftDeliveries, rightDeliveries, List.map_append, List.map_append, deliveries]
    congr 1
    split
    · exact deliveryRows_ungenerated _ (congrArg Registry.alertDestinations agree.registry)
    · rfl
  · have unchanged : ∀ (environment : StatementEnvironment Digest) (db : Database Digest),
        (admitEffect environment tenantId record db).alerts = db.alerts ∧
          (admitEffect environment tenantId record db).notificationDeliveries =
            db.notificationDeliveries := by
      intro environment db
      unfold admitEffect
      split
      · rename_i alert observed kind checked
        exact absurd ⟨kind, alert, observed, checked⟩ materializes
      · exact ⟨rfl, rfl⟩
    simp only [leftAfter, rightAfter, unchanged]
    exact ⟨alerts, deliveries⟩

theorem registry_admitEffect (db : Database Digest) :
    registry (admitEffect environment tenantId record db) = registry db := by
  unfold admitEffect
  split <;> rfl

theorem Agree.inserted (agree : Agree tenantId record.nodeId left right)
    (leftReferences : References left) (rightReferences : References right)
    (leftOwn : NamesOwnAlert left tenantId record) (rightOwn : NamesOwnAlert right tenantId record)
    (observed : UnixTimestamp) :
    Agree tenantId record.nodeId
      (admitEffect environment tenantId record { left with
        telemetryMessages := left.telemetryMessages ++
          [messageRow service environment tenantId record observed] })
      (admitEffect environment' tenantId record { right with
        telemetryMessages := right.telemetryMessages ++
          [messageRow service environment' tenantId record observed] }) := by
  have ownMessage : ∀ environment : StatementEnvironment Digest,
      (messageRow service environment tenantId record observed).isOf tenantId record.nodeId =
        true := by
    intro environment
    simp [MessageRow.isOf, messageRow]
  have ownJob : ∀ (environment : StatementEnvironment Digest) (rows : List JobRow),
      ((Table.insertNew (isJobOf tenantId record.nodeId record.messageId)
        (jobRow environment tenantId record) rows).filter
          (isJobOfNode tenantId record.nodeId)).map QueueRow.ungenerated =
      Table.insertNew (isJobOf tenantId record.nodeId record.messageId)
        (jobRow environment tenantId record).ungenerated
        ((rows.filter (isJobOfNode tenantId record.nodeId)).map QueueRow.ungenerated) := by
    intro environment rows
    rw [Table.filter_insertNew_of_owned (by simp [isJobOfNode, jobRow])]
    · exact Table.map_insertNew_of_blind (by exact fun _ => rfl)
    · intro job _ same
      simp only [isJobOf, isJobOfNode, Bool.and_eq_true] at same ⊢
      exact same.1
  let leftGrown : Database Digest := { left with
    telemetryMessages := left.telemetryMessages ++
      [messageRow service environment tenantId record observed] }
  let rightGrown : Database Digest := { right with
    telemetryMessages := right.telemetryMessages ++
      [messageRow service environment' tenantId record observed] }
  have grown : Agree tenantId record.nodeId leftGrown rightGrown := by
    refine ⟨agree.registry, NodeRows.ext ?_ agree.sequenceState agree.alerts agree.jobs
      agree.deliveries⟩
    show (List.filter _ (_ ++ _)).map _ = (List.filter _ (_ ++ _)).map _
    rw [List.filter_append, List.filter_append, List.map_append, List.map_append, agree.messages,
      List.filter_singleton, List.filter_singleton, ownMessage, ownMessage]
    rfl
  have leftReferencesGrown : References leftGrown := leftReferences
  have rightReferencesGrown : References rightGrown := rightReferences
  have leftOwnGrown : NamesOwnAlert leftGrown tenantId record := leftOwn
  have rightOwnGrown : NamesOwnAlert rightGrown tenantId record := rightOwn
  obtain ⟨alerts, deliveries⟩ := grown.alerts_admitEffect leftReferencesGrown
    rightReferencesGrown leftOwnGrown rightOwnGrown
  refine ⟨?_, NodeRows.ext ?_ ?_ alerts ?_ deliveries⟩
  · rw [registry_admitEffect, registry_admitEffect]
    exact agree.registry
  · simp only [NodeRows.ungenerated, nodeRows, admitEffect_messages]
    exact grown.messages
  · simp only [NodeRows.ungenerated, nodeRows, admitEffect_sequenceState]
    exact agree.sequenceState
  · simp only [NodeRows.ungenerated, nodeRows, admitEffect_jobs]
    split
    · exact agree.jobs
    · rw [ownJob, ownJob, agree.jobs]
      rfl

theorem Agree.filled (agree : Agree tenantId record.nodeId left right) :
    Agree tenantId record.nodeId (fillEffect service tenantId record left)
      (fillEffect service tenantId record right) := by
  have own : ∀ rows : List (MessageRow Digest),
      ((Table.update (fun row => row.isMessage tenantId record.nodeId record.messageId &&
          row.envelopeDigest.isNone)
        (fun row => { row with envelopeDigest := some (service.envelopeDigest record) })
        rows).filter (MessageRow.isOf tenantId record.nodeId)).map MessageRow.ungenerated =
      Table.update (fun row => row.isMessage tenantId record.nodeId record.messageId &&
          row.envelopeDigest.isNone)
        (fun row => { row with envelopeDigest := some (service.envelopeDigest record) })
        ((rows.filter (MessageRow.isOf tenantId record.nodeId)).map MessageRow.ungenerated) := by
    intro rows
    rw [Table.filter_update_of_owned (by exact fun _ _ => rfl)]
    exact Table.map_update_of_blind (by exact fun _ => rfl) (by exact fun _ => rfl)
  refine ⟨agree.registry, NodeRows.ext ?_ agree.sequenceState agree.alerts agree.jobs
    agree.deliveries⟩
  show ((Table.update _ _ left.telemetryMessages).filter _).map _ =
    ((Table.update _ _ right.telemetryMessages).filter _).map _
  rw [own, own]
  exact congrArg (Table.update _ _) agree.messages

theorem registry_batchState (environment : StatementEnvironment Digest) (nodeId : String)
    (highest : Option Nat) (db : Database Digest) :
    registry (batchStateEffect environment tenantId nodeId highest db) = registry db := by
  simp only [registry, batchStateEffect]
  congr 1
  rw [Table.update, List.map_map]
  apply List.map_congr_left
  intro row _
  simp only [Function.comp_apply]
  split <;> rfl

theorem Agree.batchState {nodeId : String} (agree : Agree tenantId nodeId left right)
    (highest : Option Nat) :
    Agree tenantId nodeId (batchStateEffect environment tenantId nodeId highest left)
      (batchStateEffect environment' tenantId nodeId highest right) := by
  have own : ∀ (environment : StatementEnvironment Digest) (value : Nat)
      (rows : List SequenceStateRow),
      ((Table.upsert (SequenceStateRow.isNode tenantId nodeId)
        (fun row => { row with
          highestAcceptedSequence := max row.highestAcceptedSequence value
          updatedAt := environment.now })
        ⟨tenantId, nodeId, value, .empty, environment.now⟩ rows).filter
          (SequenceStateRow.isNode tenantId nodeId)).map SequenceStateRow.ungenerated =
      Table.upsert (SequenceStateRow.isNode tenantId nodeId)
        (fun row => { row with
          highestAcceptedSequence := max row.highestAcceptedSequence value
          updatedAt := 0 })
        ⟨tenantId, nodeId, value, .empty, 0⟩
        ((rows.filter (SequenceStateRow.isNode tenantId nodeId)).map
          SequenceStateRow.ungenerated) := by
    intro environment value rows
    rw [Table.filter_upsert_of_owned (by simp [SequenceStateRow.isNode]) (by simp)
      (by exact fun _ _ => rfl)]
    exact Table.map_upsert_of_blind (by exact fun _ => rfl) (by exact fun _ => rfl)
  refine ⟨?_, NodeRows.ext agree.messages ?_ agree.alerts agree.jobs agree.deliveries⟩
  · rw [registry_batchState, registry_batchState]
    exact agree.registry
  · cases highest with
    | none => exact agree.sequenceState
    | some value =>
        simp only [NodeRows.ungenerated, nodeRows, batchStateEffect]
        rw [own, own, agree.sequenceState]

end Writes

/-! ## Two runs of one step -/

section Runs

variable [DecidableEq Digest]
variable {tenantId : Uuid} {record : TelemetryEnvelope} {left right : Database Digest}
variable {environment environment' : StatementEnvironment Digest}

theorem Agree.replayRecord (agree : Agree tenantId record.nodeId left right)
    (faults : environment'.raises = environment.raises) {leftAfter : Database Digest}
    {outcome : InsertOutcome}
    (ran : Cloud.replayRecord service environment (some tenantId) tenantId record left =
      .ok (leftAfter, outcome)) :
    ∃ rightAfter,
      Cloud.replayRecord service environment' (some tenantId) tenantId record right =
          .ok (rightAfter, outcome) ∧
        Agree tenantId record.nodeId leftAfter rightAfter := by
  have stored : (storedMessage left tenantId record.nodeId record.messageId).map
      MessageRow.ungenerated =
      (storedMessage right tenantId record.nodeId record.messageId).map
        MessageRow.ungenerated := by
    rw [storedMessage_rows, storedMessage_rows, agree.rows]
  unfold Cloud.replayRecord at ran ⊢
  rw [selectReplay_eq] at ran ⊢
  rw [faults]
  by_cases raised : environment.raises
      (.selectReplay tenantId record.nodeId record.messageId) = true
  · rw [if_pos raised] at ran
    contradiction
  · rw [if_neg raised] at ran ⊢
    simp only [bind, Except.bind] at ran ⊢
    cases leftFound : storedMessage left tenantId record.nodeId record.messageId with
    | none =>
        rw [leftFound, Option.map_none] at stored
        rw [Option.map_eq_none_iff.mp stored.symm]
        rw [leftFound] at ran
        cases ran
        exact ⟨right, rfl, agree⟩
    | some leftRow =>
        rw [leftFound, Option.map_some] at stored
        obtain ⟨rightRow, rightFound, same⟩ := Option.map_eq_some_iff.mp stored.symm
        have digest : rightRow.envelopeDigest = leftRow.envelopeDigest := by
          simpa using congrArg MessageRow.envelopeDigest same
        have envelope : rightRow.envelope = leftRow.envelope := by
          simpa using congrArg MessageRow.envelope same
        rw [rightFound]
        rw [leftFound] at ran
        simp only [digest, envelope]
        simp only at ran
        cases known : leftRow.envelopeDigest with
        | some value =>
            simp only [known] at ran ⊢
            split at ran
            · rename_i same
              cases ran
              exact ⟨right, by rw [if_pos same]; rfl, agree⟩
            · rename_i other
              cases ran
              exact ⟨right, by rw [if_neg other]; rfl, agree⟩
        | none =>
            simp only [known] at ran ⊢
            split at ran
            · rename_i same
              obtain ⟨filled, written, result⟩ := (bind_ok_iff _ _ _).mp ran
              obtain ⟨accepted, policy, _, rfl⟩ := (execute_ok_iff _ _ _ _ _ _ _).mp written
              cases result
              refine ⟨fillEffect service tenantId record right, ?_, agree.filled⟩
              have rightWritten : updateDigest environment' (some tenantId) tenantId record.nodeId
                  record.messageId (service.envelopeDigest record) right =
                    .ok (fillEffect service tenantId record right) :=
                (execute_ok_iff _ _ _ _ _ _ _).mpr ⟨by rw [faults, accepted], policy, rfl, rfl⟩
              rw [if_pos same, rightWritten]
              rfl
            · rename_i other
              cases ran
              exact ⟨right, by rw [if_neg other]; rfl, agree⟩

/-- What a record of the node meets on one side it meets on the other. -/
theorem Agree.insertEnvelope (agree : Agree tenantId record.nodeId left right)
    (faults : environment'.raises = environment.raises)
    (node : left.hasNode tenantId record.nodeId = true)
    (validated : validateRecord record = .ok ())
    (leftReferences : References left) (rightReferences : References right)
    (leftOwn : isTaken left tenantId record = false → NamesOwnAlert left tenantId record)
    (rightOwn : isTaken right tenantId record = false → NamesOwnAlert right tenantId record)
    {leftAfter : Database Digest} {outcome : InsertOutcome}
    (ran : Cloud.insertEnvelope service environment (some tenantId) tenantId record left =
      .ok (leftAfter, outcome)) :
    ∃ rightAfter,
      Cloud.insertEnvelope service environment' (some tenantId) tenantId record right =
          .ok (rightAfter, outcome) ∧
        Agree tenantId record.nodeId leftAfter rightAfter := by
  obtain ⟨_, _, observed, timestamp⟩ := (validateRecord_ok_iff record).mp validated
  have rightNode : right.hasNode tenantId record.nodeId = true := by
    rw [← agree.hasNode, node]
  have keys : isTaken right tenantId record = isTaken left tenantId record := by
    rw [isTaken_rows, isTaken_rows, agree.rows]
  rw [insertEnvelope_eq (fun _ => rfl) node observed timestamp] at ran
  rw [insertEnvelope_eq (fun statement => congrFun faults statement) rightNode observed timestamp,
    keys]
  split at ran
  · contradiction
  · rename_i bigint
    rw [if_neg bigint]
    split at ran
    · contradiction
    · rename_i accepted
      rw [if_neg accepted]
      cases taken : isTaken left tenantId record with
      | true =>
          rw [taken, if_pos rfl] at ran
          rw [if_pos rfl]
          exact agree.replayRecord faults ran
      | false =>
          rw [taken, if_neg Bool.false_ne_true] at ran
          rw [if_neg Bool.false_ne_true]
          obtain ⟨admitted, admits, result⟩ := (bind_ok_iff _ _ _).mp ran
          cases result
          obtain ⟨rfl, _⟩ := admitRecord_ok _ _ _ _ _ _ admits
          -- whether a record can be admitted depends on the record alone
          have admittable := (admitInserted_isOk_iff service (fun _ => rfl) node observed).mp
            ⟨_, admits⟩
          obtain ⟨rightAdmitted, rightAdmits⟩ := (admitInserted_isOk_iff service
            (fun statement => congrFun faults statement) rightNode observed).mpr admittable
          refine ⟨rightAdmitted, (bind_ok_iff _ _ _).mpr ⟨_, rightAdmits, rfl⟩, ?_⟩
          obtain ⟨rfl, _⟩ := admitRecord_ok _ _ _ _ _ _ rightAdmits
          exact agree.inserted leftReferences rightReferences (leftOwn taken)
            (rightOwn (keys.trans taken)) observed

/-- The loop over the node's records takes the same course on both sides. -/
theorem Agree.ingestLoop {nodeId : String} (environments environments' :
      Nat → StatementEnvironment Digest)
    (faults : ∀ index, (environments' index).raises = (environments index).raises)
    (batch : List TelemetryEnvelope) (index : Nat) {left right leftAfter : Database Digest}
    (start : IngestionAcknowledgement) {acknowledgement : IngestionAcknowledgement}
    (agree : Agree tenantId nodeId left right)
    (node : left.hasNode tenantId nodeId = true)
    (ownNode : ∀ record ∈ batch, record.nodeId = nodeId)
    (validated : ∀ record ∈ batch, validateRecord record = .ok ())
    (leftReferences : References left) (rightReferences : References right)
    (leftOwn : NamesOwnAlerts left tenantId batch) (rightOwn : NamesOwnAlerts right tenantId batch)
    (ran : Cloud.ingestLoop service environments (some tenantId) tenantId batch index left start =
      .ok (leftAfter, acknowledgement)) :
    ∃ rightAfter,
      Cloud.ingestLoop service environments' (some tenantId) tenantId batch index right start =
          .ok (rightAfter, acknowledgement) ∧
        Agree tenantId nodeId leftAfter rightAfter := by
  induction batch generalizing index left right start with
  | nil =>
      cases ran
      exact ⟨right, rfl, agree⟩
  | cons record rest inductionHypothesis =>
      have recordNode := ownNode record (by simp)
      have sameNode : ∀ later ∈ rest, later.nodeId = record.nodeId := by
        intro later member
        rw [recordNode, ownNode later (by simp [member])]
      rw [Cloud.ingestLoop] at ran
      obtain ⟨⟨leftMiddle, outcome⟩, leftInserted, ran⟩ := (bind_ok_iff _ _ _).mp ran
      have leftChange := insertEnvelope_ok service _ _ _ _ _ _ leftInserted
      have freshOwn : ∀ db : Database Digest, NamesOwnAlerts db tenantId (record :: rest) →
          isTaken db tenantId record = false → NamesOwnAlert db tenantId record := by
        intro db own free
        exact own record (by simp [freshRecords, free])
      obtain ⟨rightMiddle, rightInserted, middleAgree⟩ :=
        Agree.insertEnvelope (by rw [recordNode]; exact agree) (faults index)
          (by rw [recordNode]; exact node) (validated record (by simp)) leftReferences
          rightReferences (freshOwn left leftOwn) (freshOwn right rightOwn) leftInserted
      have rightChange := insertEnvelope_ok service _ _ _ _ _ _ rightInserted
      rw [recordNode] at middleAgree
      have middleNode : leftMiddle.hasNode tenantId nodeId = true := by
        have steps : RecordSteps service tenantId [(record, outcome)] left leftMiddle :=
          .step record outcome [] left leftMiddle leftMiddle leftChange (.done leftMiddle)
        rw [Database.hasNode, steps.nodes]
        exact node
      obtain ⟨rightAfter, rightRan, finalAgree⟩ := inductionHypothesis (index + 1)
        (recordOutcome record start outcome) middleAgree middleNode
        (fun later member => ownNode later (by simp [member]))
        (fun later member => validated later (by simp [member]))
        (leftChange.references leftReferences) (rightChange.references rightReferences)
        (leftOwn.cons leftChange sameNode).2 (rightOwn.cons rightChange sameNode).2 ran
      refine ⟨rightAfter, ?_, finalAgree⟩
      rw [Cloud.ingestLoop]
      exact (bind_ok_iff _ _ _).mpr ⟨_, rightInserted, rightRan⟩

end Runs

/-! ## Requests -/

/-- The statements of a step without what the database generates for it. -/
def StatementEnvironment.faults (environment : StatementEnvironment Digest) :
    StatementEnvironment Digest where
  raises := environment.raises

/-- The request as it was submitted, with the faults it met. -/
def Request.submitted (request : Request Digest) : Request Digest :=
  { request with
    environment := { request.environment with
      record := fun index => (request.environment.record index).faults
      batchState := request.environment.batchState.faults } }

section Requests

variable [DecidableEq Digest] (service)

/-- The database after a request. -/
def requestStep (db : Database Digest) (request : Request Digest) : Database Digest :=
  (ingest service db request).1

/-- A request materializes no alert that has a row of another node. -/
def RespectsOwners (db : Database Digest) (request : Request Digest) : Prop :=
  ∀ tenantId nodeId, requestIdentity service db request = some (tenantId, nodeId) →
    NamesOwnAlerts db tenantId request.batch

/-- A request leaves the rows of every node but its own as they were. -/
def LeavesOthers (db : Database Digest) (request : Request Digest) : Prop :=
  ∀ tenantId nodeId, requestIdentity service db request ≠ some (tenantId, nodeId) →
    nodeRows tenantId nodeId (requestStep service db request) = nodeRows tenantId nodeId db

variable {service}

omit [DecidableEq Digest] in
theorem RecordSteps.registry {tenantId : Uuid} {decisions : List Decision}
    {db after : Database Digest} (steps : RecordSteps service tenantId decisions db after) :
    Cloud.registry after = Cloud.registry db := by
  induction steps with
  | done db => rfl
  | step record outcome rest db middle after change later inductionHypothesis =>
      rw [inductionHypothesis]
      cases change with
      | inserted environment observed checks bigint timestamp fresh node alert =>
          rw [registry_admitEffect]
          rfl
      | replayed stored found same => rfl
      | filled stored found legacy same => rfl
      | differs stored found content legacy => rfl
      | taken absent conflict => rfl

/-- The step lemma: what a request that respects the owners leaves alone. -/
theorem requestStep_frame (db : Database Digest) (request : Request Digest)
    (references : References db) (respects : RespectsOwners service db request) :
    References (requestStep service db request) ∧
      registry (requestStep service db request) = registry db ∧
      LeavesOthers service db request := by
  unfold LeavesOthers requestStep
  rcases ingest_cases service db request with ⟨failure, failed⟩ | ⟨after, answer, ran, ⟨committed⟩⟩
  · rw [failed]
    exact ⟨references, rfl, fun _ _ _ => rfl⟩
  · rw [ran]
    obtain ⟨tenantId, nodeId, recorded, _, identity, ownNode, records, steps, _, rfl⟩ := committed
    have own : NamesOwnAlerts db tenantId
        ((requestDecisions service db request).map Prod.fst) := by
      rw [records]
      exact respects tenantId nodeId identity
    obtain ⟨referencesAfter, others⟩ := steps.foreign references
      (fun decision member => ownNode decision.1 (by
        rw [← records]
        exact List.mem_map_of_mem member)) own
    refine ⟨referencesAfter, ?_, ?_⟩
    · rw [registry_batchState, steps.registry]
    · intro other otherNode foreign
      have different : (tenantId, nodeId) ≠ (other, otherNode) := by
        rintro same
        rw [identity, same] at foreign
        exact foreign rfl
      rw [batchStateEffect_foreign _ _ different, others other otherNode different]

theorem requestIdentity_registry {left right : Database Digest} {request request' : Request Digest}
    (same : registry left = registry right) (submitted : request.submitted = request'.submitted) :
    requestIdentity service left request = requestIdentity service right request' := by
  have authorization : request.authorization = request'.authorization := by
    simpa [Request.submitted] using congrArg Request.authorization submitted
  have now : request.environment.now = request'.environment.now := by
    simpa [Request.submitted] using
      congrArg (fun request : Request Digest => request.environment.now) submitted
  unfold requestIdentity
  rw [authorization, now]
  congr 1
  funext token
  exact authenticate_registry same

/-- A request of the node is answered alike on both sides, and acts on the view. -/
theorem Agree.ingest {tenantId : Uuid} {nodeId : String} {left right leftAfter : Database Digest}
    {request request' : Request Digest} {acknowledgement : IngestionAcknowledgement}
    (agree : Agree tenantId nodeId left right)
    (submitted : request.submitted = request'.submitted)
    (identity : requestIdentity service left request = some (tenantId, nodeId))
    (leftReferences : References left) (rightReferences : References right)
    (leftRespects : RespectsOwners service left request)
    (rightRespects : RespectsOwners service right request')
    (answered : Cloud.ingest service left request = (leftAfter, .ok acknowledgement)) :
    ∃ rightAfter, Cloud.ingest service right request' = (rightAfter, .ok acknowledgement) ∧
      Agree tenantId nodeId leftAfter rightAfter := by
  have identity' : requestIdentity service right request' = some (tenantId, nodeId) := by
    rw [← identity]
    exact (requestIdentity_registry agree.registry submitted).symm
  have batch : request'.batch = request.batch := (congrArg Request.batch submitted).symm
  have environment := congrArg Request.environment submitted
  have faults : ∀ index, (request'.environment.record index).raises =
      (request.environment.record index).raises := by
    intro index
    exact (congrArg (fun environment : RequestEnvironment Digest =>
      (environment.record index).raises) environment).symm
  have stateFaults : request'.environment.batchState.raises =
      request.environment.batchState.raises :=
    (congrArg (fun environment : RequestEnvironment Digest => environment.batchState.raises)
      environment).symm
  obtain ⟨ownTenant, ownNode, recorded, transacted⟩ := (ingest_ok_iff _ _ _ _ _).mp answered
  have same := transacted.identity
  rw [identity] at same
  cases same
  obtain ⟨token, _, authenticated⟩ := Option.bind_eq_some_iff.mp identity
  have node := authenticate_hasNode authenticated
  obtain ⟨_, _, validated⟩ := (validateBatch_ok_iff _).mp transacted.checked
  have rightOwn := rightRespects tenantId nodeId identity'
  rw [batch] at rightOwn
  obtain ⟨rightRecorded, rightLooped, recordedAgree⟩ := Agree.ingestLoop _
    request'.environment.record faults request.batch 0 {} agree node transacted.ownNode validated
    leftReferences rightReferences (leftRespects tenantId nodeId identity) rightOwn
    transacted.looped
  have recordedNode : recorded.hasNode tenantId nodeId = true := by
    rw [Database.hasNode, (ingestLoop_ok _ _ _ _ _ _ _ _ _ transacted.looped).2.1.nodes]
    exact node
  obtain ⟨touches, counts, marks, rfl⟩ := (recordBatchState_ok_iff recordedNode).mp
    transacted.stated
  have rightNode : rightRecorded.hasNode tenantId nodeId = true := by
    rw [← recordedAgree.hasNode, recordedNode]
  refine ⟨batchStateEffect request'.environment.batchState tenantId nodeId
    acknowledgement.highestAcceptedSequence rightRecorded,
    (ingest_ok_iff _ _ _ _ _).mpr ⟨tenantId, nodeId, rightRecorded, ?_⟩,
    recordedAgree.batchState _⟩
  constructor
  · rw [batch]
    exact transacted.checked
  · exact (congrArg RequestEnvironment.beginFails environment).symm.trans transacted.begins
  · exact (congrArg RequestEnvironment.authenticationFails environment).symm.trans
      transacted.authenticates
  · exact identity'
  · rw [batch]
    exact transacted.ownNode
  · exact (congrArg RequestEnvironment.admits environment).symm.trans transacted.admits
  · exact (congrArg RequestEnvironment.tenantFails environment).symm.trans transacted.tenant
  · rw [batch]
    exact rightLooped
  · rw [recordBatchState_ok_iff rightNode, stateFaults]
    exact ⟨touches, counts, marks, rfl⟩
  · exact (congrArg RequestEnvironment.commitFails environment).symm.trans transacted.commits

theorem Agree.requestStep {tenantId : Uuid} {nodeId : String} {left right : Database Digest}
    {request request' : Request Digest} (agree : Agree tenantId nodeId left right)
    (submitted : request.submitted = request'.submitted)
    (identity : requestIdentity service left request = some (tenantId, nodeId))
    (leftReferences : References left) (rightReferences : References right)
    (leftRespects : RespectsOwners service left request)
    (rightRespects : RespectsOwners service right request') :
    Agree tenantId nodeId (Cloud.requestStep service left request)
      (Cloud.requestStep service right request') := by
  have identity' : requestIdentity service right request' = some (tenantId, nodeId) := by
    rw [← identity]
    exact (requestIdentity_registry agree.registry submitted).symm
  unfold Cloud.requestStep
  rcases ingest_cases service left request with ⟨_, leftFailed⟩ | ⟨_, _, leftRan, _⟩
  · rcases ingest_cases service right request' with ⟨_, rightFailed⟩ | ⟨_, _, rightRan, _⟩
    · rw [leftFailed, rightFailed]
      exact agree
    · -- an answer on the right would be an answer on the left
      obtain ⟨_, leftRan, _⟩ := agree.symm.ingest submitted.symm identity' rightReferences
        leftReferences rightRespects leftRespects rightRan
      rw [leftRan] at leftFailed
      cases leftFailed
  · obtain ⟨rightAfter, rightRan, after⟩ := agree.ingest submitted identity leftReferences
      rightReferences leftRespects rightRespects leftRan
    rw [leftRan, rightRan]
    exact after

variable (service)

/-- The requests of a history that authenticate as one node. -/
def requestsOf (db : Database Digest) (tenantId : Uuid) (nodeId : String)
    (requests : List (Request Digest)) : List (Request Digest) :=
  requests.filter fun request => requestIdentity service db request == some (tenantId, nodeId)

/-- In every history whose requests respect the owners of alerts, no request
changes a row of another node, and a node's rows depend on its own requests
only. -/
theorem node_isolation (start : Database Digest) (references : References start)
    (requests : List (Request Digest))
    (respects : Machine.EveryStep (requestStep service) (RespectsOwners service) start requests) :
    Machine.EveryStep (requestStep service) (LeavesOthers service) start requests ∧
      ∀ requests' tenantId nodeId,
        Machine.EveryStep (requestStep service) (RespectsOwners service) start requests' →
        (requestsOf service start tenantId nodeId requests).map Request.submitted =
          (requestsOf service start tenantId nodeId requests').map Request.submitted →
        (nodeRows tenantId nodeId
            (Machine.run (requestStep service) start requests)).ungenerated =
          (nodeRows tenantId nodeId
            (Machine.run (requestStep service) start requests')).ungenerated := by
  let invariant := fun db : Database Digest => References db ∧ registry db = registry start
  have preserved : ∀ db request, invariant db → RespectsOwners service db request →
      invariant (requestStep service db request) := by
    intro db request holds respectsNow
    obtain ⟨referencesAfter, sameRegistry, _⟩ := requestStep_frame db request holds.1 respectsNow
    exact ⟨referencesAfter, sameRegistry.trans holds.2⟩
  have initial : invariant start := ⟨references, rfl⟩
  refine ⟨?_, ?_⟩
  · exact Machine.everyStep_of_invariant (requestStep service) invariant (RespectsOwners service)
      (LeavesOthers service) preserved
      (fun db request holds respectsNow => (requestStep_frame db request holds.1 respectsNow).2.2)
      start requests initial respects
  · intro requests' tenantId nodeId respects' agree
    -- a registry that never changes authenticates a request alike in every state
    have identity : ∀ db request, registry db = registry start →
        requestIdentity service db request = requestIdentity service start request :=
      fun db request same => requestIdentity_registry same rfl
    have views := Machine.unwinding (requestStep service)
      (fun db => (registry db, (nodeRows tenantId nodeId db).ungenerated))
      (fun request => requestIdentity service start request == some (tenantId, nodeId))
      Request.submitted invariant (RespectsOwners service) preserved
      (by
        intro db request holds respectsNow foreign
        obtain ⟨_, sameRegistry, others⟩ := requestStep_frame db request holds.1 respectsNow
        have other : requestIdentity service db request ≠ some (tenantId, nodeId) := by
          rw [identity db request holds.2]
          simpa using foreign
        rw [sameRegistry, others tenantId nodeId other])
      (by
        intro left right request request' leftHolds rightHolds leftRespects rightRespects mine _
          submitted same
        have own : requestIdentity service left request = some (tenantId, nodeId) := by
          rw [identity left request leftHolds.2]
          simpa using mine
        have views : Agree tenantId nodeId left right :=
          ⟨congrArg Prod.fst same, congrArg Prod.snd same⟩
        have after := views.requestStep submitted own leftHolds.1 rightHolds.1 leftRespects
          rightRespects
        exact Prod.ext after.registry after.rows)
      start start requests requests' initial initial respects respects' rfl agree
    exact congrArg Prod.snd views

end Requests

end View

/-! ## An alert two nodes name -/

/-- A firing alert of a node under a given instance. -/
def plainAlert (nodeId : String) (sequence : Nat) (state : String) : TelemetryEnvelope :=
  { plainRecord nodeId sequence with
    kind := .processAlert
    payload := .object [("event_type", .string "FORK"), ("instance_id", .string "rule-42"),
      ("labels", .object []), ("observed_at_unix_nanos", .number (.posInt 1700000000000000000)),
      ("pid", .number (.posInt 7)), ("ppid", .number (.posInt 1)),
      ("process_name", .string "sshd"), ("rule_id", .string "rule"), ("state", .string state)] }

theorem node_isolation_plain :
    let requests := [plainRequest "nodea" [plainAlert "nodea" 1 "firing"],
      plainRequest "nodeb" [plainRecord "nodeb" 1]]
    Machine.EveryStep (requestStep plainService) (LeavesOthers plainService) plainDatabase
      requests :=
  (node_isolation plainService plainDatabase (by simp [References, plainDatabase])
    [plainRequest "nodea" [plainAlert "nodea" 1 "firing"],
      plainRequest "nodeb" [plainRecord "nodeb" 1]] (by
    rw [Machine.everyStep_cons, Machine.everyStep_cons]
    refine ⟨?_, ?_, by simp [Machine.EveryStep, Machine.visited]⟩
    · -- no alert has a row yet
      intro tenantId nodeId _ record _ _ alert observed _ row member
      simp [plainDatabase] at member
    · -- a health record materializes no alert
      intro tenantId nodeId _ record member kind
      have known : record = plainRecord "nodeb" 1 :=
        List.mem_singleton.mp (mem_of_freshRecords member)
      rw [known] at kind
      contradiction)).1

/-- A node that names the alert of another node of its tenant changes it. -/
theorem alert_of_another_node_changes :
    let first := requestStep plainService plainDatabase
      (plainRequest "nodea" [plainAlert "nodea" 1 "firing"])
    let second := requestStep plainService first
      (plainRequest "nodeb" [plainAlert "nodeb" 1 "resolved"])
    requestIdentity plainService first (plainRequest "nodeb" [plainAlert "nodeb" 1 "resolved"]) =
        some (1, "nodeb") ∧
      (nodeRows 1 "nodea" first).alerts.map AlertRow.state = ["firing"] ∧
      (nodeRows 1 "nodea" second).alerts.map AlertRow.state = ["resolved"] ∧
      ¬LeavesOthers plainService first (plainRequest "nodeb" [plainAlert "nodeb" 1 "resolved"]) := by
  intro first second
  have identity : requestIdentity plainService first
      (plainRequest "nodeb" [plainAlert "nodeb" 1 "resolved"]) = some (1, "nodeb") := by
    decide
  have before : (nodeRows 1 "nodea" first).alerts.map AlertRow.state = ["firing"] := by
    decide
  have after : (nodeRows 1 "nodea" second).alerts.map AlertRow.state = ["resolved"] := by
    decide
  refine ⟨identity, before, after, ?_⟩
  intro leaves
  have same := leaves 1 "nodea" (by
    rw [identity]
    decide)
  have states := congrArg (fun rows => rows.alerts.map AlertRow.state) same
  rw [show (nodeRows 1 "nodea" (requestStep plainService first
    (plainRequest "nodeb" [plainAlert "nodeb" 1 "resolved"]))).alerts.map AlertRow.state =
      ["resolved"] from after] at states
  simp only [before] at states
  exact absurd states (by decide)

end SystemPilot.Cloud
