import Mathlib.Tactic
import SystemPilot.Cloud.BatchFaults

/-!
# The rows of a node

Which rows of the shared tables belong to a node, and what a request leaves of
the rows of the other nodes.  Every table the handler writes has the node in
its key except `alerts`: a request leaves the others alone as long as the
alerts it materializes have no row of another node.
-/

set_option autoImplicit false

namespace SystemPilot.Cloud

open SystemPilot.Text
open SystemPilot.Json
open SystemPilot.Library
open SystemPilot.Telemetry

section Rows

variable {Bytes Digest : Type} {service : Service Bytes Digest}

def MessageRow.isOf (tenantId : Uuid) (nodeId : String) (row : MessageRow Digest) : Bool :=
  row.tenantId == tenantId && row.nodeId == nodeId

def AlertRow.isOf (tenantId : Uuid) (nodeId : String) (row : AlertRow) : Bool :=
  row.tenantId == tenantId && row.nodeId == nodeId

def isJobOfNode (tenantId : Uuid) (nodeId : String) (row : JobRow) : Bool :=
  row.tenantId == tenantId && row.subject.nodeId == nodeId

/-- A delivery belongs to the node of its alert. -/
def isDeliveryOf (alerts : List AlertRow) (tenantId : Uuid) (nodeId : String)
    (row : DeliveryRow) : Bool :=
  row.tenantId == tenantId && alerts.any fun alert =>
    alert.isAlert tenantId row.subject.alertInstanceId && alert.nodeId == nodeId

/-- The rows of one node in the tables the handler writes. -/
@[ext]
structure NodeRows (Digest : Type) where
  messages : List (MessageRow Digest)
  sequenceState : List SequenceStateRow
  alerts : List AlertRow
  jobs : List JobRow
  deliveries : List DeliveryRow
  deriving DecidableEq

def nodeRows (tenantId : Uuid) (nodeId : String) (db : Database Digest) : NodeRows Digest where
  messages := db.telemetryMessages.filter (MessageRow.isOf tenantId nodeId)
  sequenceState := db.nodeSequenceState.filter (SequenceStateRow.isNode tenantId nodeId)
  alerts := db.alerts.filter (AlertRow.isOf tenantId nodeId)
  jobs := db.reasoningJobs.filter (isJobOfNode tenantId nodeId)
  deliveries := db.notificationDeliveries.filter (isDeliveryOf db.alerts tenantId nodeId)

/-- The foreign key of `notification_deliveries`. -/
def References (db : Database Digest) : Prop :=
  ∀ delivery ∈ db.notificationDeliveries, ∃ alert ∈ db.alerts,
    alert.isAlert delivery.tenantId delivery.subject.alertInstanceId = true

/-- The alert a record materializes has no row of another node. -/
def NamesOwnAlert (db : Database Digest) (tenantId : Uuid) (record : TelemetryEnvelope) : Prop :=
  record.kind = .processAlert → ∀ alert observed, checkAlert record = .ok (alert, observed) →
    ∀ row ∈ db.alerts, row.isAlert tenantId alert.instanceId = true → row.nodeId = record.nodeId

theorem isAlert_iff (tenantId : Uuid) (alertInstanceId : String) (row : AlertRow) :
    row.isAlert tenantId alertInstanceId = true ↔
      row.tenantId = tenantId ∧ row.alertInstanceId = alertInstanceId := by
  simp [AlertRow.isAlert]

/-! ## One record -/

section Record

variable {environment : StatementEnvironment Digest} {tenantId : Uuid}
variable {record : TelemetryEnvelope} {db after : Database Digest} {outcome : InsertOutcome}

/-- An inserted record changes the alerts and the deliveries as its alert does,
or not at all. -/
theorem admitEffect_alerts :
    ((admitEffect environment tenantId record db).alerts = db.alerts ∧
      (admitEffect environment tenantId record db).notificationDeliveries =
        db.notificationDeliveries) ∨
    ∃ alert observed, record.kind = .processAlert ∧ checkAlert record = .ok (alert, observed) ∧
      (admitEffect environment tenantId record db).alerts =
        (alertEffect environment tenantId record alert observed db).alerts ∧
      (admitEffect environment tenantId record db).notificationDeliveries =
        (alertEffect environment tenantId record alert observed db).notificationDeliveries := by
  unfold admitEffect
  split
  · rename_i alert observed kind checked
    exact Or.inr ⟨alert, observed, kind, checked, rfl, rfl⟩
  · exact Or.inl ⟨rfl, rfl⟩

section Alert

variable {alert : ProcessAlert} {observed : UnixTimestamp}

/-- The rows of `alerts` keep their key and their node. -/
theorem mem_alertEffect {row : AlertRow}
    (member : row ∈ (alertEffect environment tenantId record alert observed db).alerts) :
    (∃ old ∈ db.alerts, old.tenantId = row.tenantId ∧
      old.alertInstanceId = row.alertInstanceId ∧ old.nodeId = row.nodeId) ∨
    (row.tenantId = tenantId ∧ row.alertInstanceId = alert.instanceId ∧
      row.nodeId = record.nodeId) := by
  simp only [alertEffect, Table.upsert] at member
  split at member
  · rcases Table.mem_update.mp member with ⟨old, _⟩ | ⟨old, oldMember, _, rfl⟩
    · exact Or.inl ⟨row, old, rfl, rfl, rfl⟩
    · exact Or.inl ⟨old, oldMember, rfl, rfl, rfl⟩
  · rcases List.mem_append.mp member with old | new
    · exact Or.inl ⟨row, old, rfl, rfl, rfl⟩
    · rw [List.mem_singleton.mp new]
      exact Or.inr ⟨rfl, rfl, rfl⟩

/-- Every alert is still there. -/
theorem alertEffect_keeps {row : AlertRow} (member : row ∈ db.alerts) :
    ∃ new ∈ (alertEffect environment tenantId record alert observed db).alerts,
      new.tenantId = row.tenantId ∧ new.alertInstanceId = row.alertInstanceId ∧
        new.nodeId = row.nodeId := by
  simp only [alertEffect, Table.upsert]
  split
  · by_cases selected : row.isAlert tenantId alert.instanceId = true
    · exact ⟨_, Table.mem_update.mpr (Or.inr ⟨row, member, selected, rfl⟩), rfl, rfl, rfl⟩
    · exact ⟨row, Table.mem_update.mpr (Or.inl ⟨member, (Bool.not_eq_true _).mp selected⟩), rfl, rfl,
        rfl⟩
  · exact ⟨row, List.mem_append_left _ member, rfl, rfl, rfl⟩

/-- The alert is there afterwards. -/
theorem alertEffect_stores :
    ∃ row ∈ (alertEffect environment tenantId record alert observed db).alerts,
      row.isAlert tenantId alert.instanceId = true := by
  have stored : (alertEffect environment tenantId record alert observed db).alerts.any
      (AlertRow.isAlert tenantId alert.instanceId) = true :=
    Table.any_upsert_self (by simp [AlertRow.isAlert, ProcessAlert.row]) fun _ same => same
  exact List.any_eq_true.mp stored

/-- The node of a delivery does not change with the alerts. -/
theorem isDeliveryOf_alertEffect (references : References db) {delivery : DeliveryRow}
    (member : delivery ∈ db.notificationDeliveries) (other : Uuid) (otherNode : String) :
    isDeliveryOf (alertEffect environment tenantId record alert observed db).alerts other otherNode
        delivery =
      isDeliveryOf db.alerts other otherNode delivery := by
  rw [Bool.eq_iff_iff]
  simp only [isDeliveryOf, Bool.and_eq_true, beq_iff_eq, List.any_eq_true, isAlert_iff]
  refine and_congr_right fun tenant => ⟨?_, ?_⟩
  · rintro ⟨row, rowMember, ⟨rowTenant, rowInstance⟩, rowNode⟩
    simp only [alertEffect, Table.upsert] at rowMember
    split at rowMember
    · rcases Table.mem_update.mp rowMember with ⟨old, _⟩ | ⟨old, oldMember, _, rfl⟩
      · exact ⟨row, old, ⟨rowTenant, rowInstance⟩, rowNode⟩
      · exact ⟨old, oldMember, ⟨rowTenant, rowInstance⟩, rowNode⟩
    · rename_i free
      rcases List.mem_append.mp rowMember with old | new
      · exact ⟨row, old, ⟨rowTenant, rowInstance⟩, rowNode⟩
      · -- a delivery of this alert refers to a row, so the alert is not new
        rw [List.mem_singleton.mp new] at rowTenant rowInstance
        obtain ⟨stored, storedMember, refers⟩ := references delivery member
        rw [isAlert_iff] at refers
        refine absurd (List.any_eq_true.mpr ⟨stored, storedMember, ?_⟩) free
        rw [isAlert_iff, refers.1, refers.2, tenant]
        exact ⟨rowTenant.symm, rowInstance.symm⟩
  · rintro ⟨row, rowMember, ⟨rowTenant, rowInstance⟩, rowNode⟩
    obtain ⟨new, newMember, newTenant, newInstance, newNode⟩ := alertEffect_keeps rowMember
    exact ⟨new, newMember, ⟨newTenant.trans rowTenant, newInstance.trans rowInstance⟩,
      newNode.trans rowNode⟩

/-- The deliveries of an alert belong to the node of the record. -/
theorem isDeliveryOf_new
    (own : ∀ row ∈ db.alerts, row.isAlert tenantId alert.instanceId = true →
      row.nodeId = record.nodeId)
    {delivery : DeliveryRow}
    (member : delivery ∈ deliveryRows environment tenantId alert.instanceId db)
    (other : Uuid) (otherNode : String) :
    isDeliveryOf (alertEffect environment tenantId record alert observed db).alerts other otherNode
        delivery = true ↔ (tenantId, record.nodeId) = (other, otherNode) := by
  have shape : delivery.tenantId = tenantId ∧
      delivery.subject.alertInstanceId = alert.instanceId := by
    obtain ⟨index, bound, rfl⟩ := List.mem_mapIdx.mp member
    exact ⟨rfl, rfl⟩
  have node : ∀ row ∈ (alertEffect environment tenantId record alert observed db).alerts,
      row.isAlert tenantId alert.instanceId = true → row.nodeId = record.nodeId := by
    intro row rowMember same
    rcases mem_alertEffect rowMember with ⟨old, oldMember, sameTenant, sameInstance, sameNode⟩ |
      ⟨_, _, new⟩
    · rw [← sameNode]
      apply own old oldMember
      rw [isAlert_iff] at same ⊢
      rw [sameTenant, sameInstance]
      exact same
    · exact new
  simp only [isDeliveryOf, shape.1, shape.2, Bool.and_eq_true, beq_iff_eq, List.any_eq_true,
    Prod.mk.injEq]
  constructor
  · rintro ⟨rfl, row, rowMember, same, rowNode⟩
    exact ⟨rfl, by rw [← node row rowMember same, rowNode]⟩
  · rintro ⟨rfl, rfl⟩
    obtain ⟨row, rowMember, same⟩ := alertEffect_stores
    exact ⟨rfl, row, rowMember, same, node row rowMember same⟩

theorem References.alertEffect (references : References db) :
    References (alertEffect environment tenantId record alert observed db) := by
  intro delivery member
  rcases List.mem_append.mp member with old | new
  · obtain ⟨row, rowMember, refers⟩ := references delivery old
    obtain ⟨kept, keptMember, sameTenant, sameInstance, _⟩ := alertEffect_keeps rowMember
    rw [isAlert_iff] at refers
    exact ⟨kept, keptMember, (isAlert_iff _ _ _).mpr
      ⟨sameTenant.trans refers.1, sameInstance.trans refers.2⟩⟩
  · split at new
    · obtain ⟨index, bound, rfl⟩ := List.mem_mapIdx.mp new
      exact alertEffect_stores
    · simp at new

end Alert

/-! ## What a record leaves of the others' rows -/

theorem admitEffect_references (references : References db) :
    References (admitEffect environment tenantId record db) := by
  rcases admitEffect_alerts with ⟨alerts, deliveries⟩ |
    ⟨alert, observed, _, _, alerts, deliveries⟩
  · intro delivery member
    rw [deliveries] at member
    rw [alerts]
    exact references delivery member
  · intro delivery member
    rw [deliveries] at member
    rw [alerts]
    exact references.alertEffect delivery member

theorem RecordChange.references (change : RecordChange service tenantId db record after outcome)
    (references : References db) : References after := by
  cases change with
  | inserted environment observed checks bigint timestamp fresh node alert =>
      exact admitEffect_references references
  | replayed stored found same => exact references
  | filled stored found legacy same => exact references
  | differs stored found content legacy => exact references
  | taken absent conflict => exact references

/-- The alerts and the deliveries of the other nodes after an insertion. -/
theorem admitEffect_foreign (references : References db)
    (own : NamesOwnAlert db tenantId record) {other : Uuid} {otherNode : String}
    (different : (tenantId, record.nodeId) ≠ (other, otherNode)) :
    (admitEffect environment tenantId record db).alerts.filter (AlertRow.isOf other otherNode) =
        db.alerts.filter (AlertRow.isOf other otherNode) ∧
      (admitEffect environment tenantId record db).notificationDeliveries.filter
          (isDeliveryOf (admitEffect environment tenantId record db).alerts other otherNode) =
        db.notificationDeliveries.filter (isDeliveryOf db.alerts other otherNode) := by
  rcases admitEffect_alerts with ⟨alerts, deliveries⟩ |
    ⟨alert, observed, kind, checked, alerts, deliveries⟩
  · rw [alerts, deliveries]
    exact ⟨rfl, rfl⟩
  · have ownRows := own kind alert observed checked
    rw [alerts, deliveries]
    constructor
    · apply Table.filter_upsert_of_foreign
      · rw [← Bool.not_eq_true]
        intro foreign
        simp only [AlertRow.isOf, ProcessAlert.row, Bool.and_eq_true, beq_iff_eq] at foreign
        exact different (by rw [foreign.1, foreign.2])
      · intro old member conflict
        have node := ownRows old member conflict
        have tenant := ((isAlert_iff _ _ _).mp conflict).1
        have foreign : AlertRow.isOf other otherNode old = false := by
          rw [← Bool.not_eq_true]
          intro foreign
          simp only [AlertRow.isOf, Bool.and_eq_true, beq_iff_eq] at foreign
          exact different (by rw [← tenant, ← node, foreign.1, foreign.2])
        exact ⟨foreign, foreign⟩
    · have others : ∀ delivery ∈ if alert.state = "firing" then
          deliveryRows environment tenantId alert.instanceId db else [],
          isDeliveryOf (alertEffect environment tenantId record alert observed db).alerts other
            otherNode delivery = false := by
        intro delivery member
        split at member
        · rw [← Bool.not_eq_true, isDeliveryOf_new ownRows member]
          exact different
        · simp at member
      have none := List.filter_eq_nil_iff.mpr fun delivery member =>
        Bool.eq_false_iff.mp (others delivery member)
      have kept : db.notificationDeliveries.filter (isDeliveryOf
          (alertEffect environment tenantId record alert observed db).alerts other otherNode) =
          db.notificationDeliveries.filter (isDeliveryOf db.alerts other otherNode) :=
        List.filter_congr fun delivery member =>
          isDeliveryOf_alertEffect references member other otherNode
      show (db.notificationDeliveries ++ _).filter _ = _
      rw [List.filter_append, none, List.append_nil, kept]

/-- A decided record leaves the rows of every other node as they were. -/
theorem RecordChange.foreign (change : RecordChange service tenantId db record after outcome)
    (references : References db)
    (own : isTaken db tenantId record = false → NamesOwnAlert db tenantId record)
    {other : Uuid} {otherNode : String}
    (different : (tenantId, record.nodeId) ≠ (other, otherNode)) :
    nodeRows other otherNode after = nodeRows other otherNode db := by
  cases change with
  | inserted environment observed checks bigint timestamp fresh node alert =>
      let grown : Database Digest := { db with
        telemetryMessages := db.telemetryMessages ++
          [messageRow service environment tenantId record observed] }
      have referencesGrown : References grown := references
      have ownGrown : NamesOwnAlert grown tenantId record := own fresh
      obtain ⟨alerts, deliveries⟩ :
          (admitEffect environment tenantId record grown).alerts.filter _ = _ ∧ _ :=
        admitEffect_foreign referencesGrown ownGrown different
      have message : (db.telemetryMessages ++
          [messageRow service environment tenantId record observed]).filter
          (MessageRow.isOf other otherNode) =
          db.telemetryMessages.filter (MessageRow.isOf other otherNode) := by
        have foreign : (messageRow service environment tenantId record observed).isOf other
            otherNode = false := by
          rw [← Bool.not_eq_true]
          intro foreign
          simp only [MessageRow.isOf, messageRow, Bool.and_eq_true, beq_iff_eq] at foreign
          exact different (by rw [foreign.1, foreign.2])
        simp [List.filter_append, foreign]
      have job : (if record.kind = .health then db.reasoningJobs else
          Table.insertNew (isJobOf tenantId record.nodeId record.messageId)
            (jobRow environment tenantId record) db.reasoningJobs).filter
            (isJobOfNode other otherNode) =
          db.reasoningJobs.filter (isJobOfNode other otherNode) := by
        split
        · rfl
        · apply Table.filter_insertNew_of_foreign
          rw [← Bool.not_eq_true]
          intro foreign
          simp only [isJobOfNode, jobRow, Bool.and_eq_true, beq_iff_eq] at foreign
          exact different (by rw [foreign.1, foreign.2])
      apply NodeRows.ext
      · simpa only [nodeRows, admitEffect_messages] using message
      · simp only [nodeRows, admitEffect_sequenceState]
      · exact alerts
      · simpa only [nodeRows, admitEffect_jobs] using job
      · exact deliveries
  | replayed stored found same => rfl
  | filled stored found legacy same =>
      have message : (fillEffect service tenantId record db).telemetryMessages.filter
          (MessageRow.isOf other otherNode) =
          db.telemetryMessages.filter (MessageRow.isOf other otherNode) := by
        apply Table.filter_update_of_foreign
        intro row _ selected
        have foreign : row.isOf other otherNode = false := by
          rw [← Bool.not_eq_true]
          intro foreign
          simp only [MessageRow.isOf, MessageRow.isMessage, Bool.and_eq_true, beq_iff_eq]
            at foreign selected
          exact different (by rw [← selected.1.1.1, ← selected.1.1.2, foreign.1, foreign.2])
        exact ⟨foreign, foreign⟩
      simp only [nodeRows, message]
      rfl
  | differs stored found content legacy => rfl
  | taken absent conflict => rfl

/-- The alerts of the other records stay their own. -/
theorem RecordChange.namesOwnAlert
    (change : RecordChange service tenantId db record after outcome)
    {later : TelemetryEnvelope} (sameNode : later.nodeId = record.nodeId)
    (own : NamesOwnAlert db tenantId later) : NamesOwnAlert after tenantId later := by
  have unchanged : after.alerts = db.alerts → NamesOwnAlert after tenantId later := by
    intro same kind alert observed checked
    rw [same]
    exact own kind alert observed checked
  cases change with
  | inserted environment observed checks bigint timestamp fresh node alert =>
      rcases admitEffect_alerts with ⟨alerts, _⟩ | ⟨alert, observed, _, _, alerts, _⟩
      · exact unchanged alerts
      · intro kind laterAlert laterObserved checked row member same
        rw [alerts] at member
        rcases mem_alertEffect member with ⟨old, oldMember, sameTenant, sameInstance, oldNode⟩ |
          ⟨_, _, new⟩
        · rw [← oldNode]
          apply own kind laterAlert laterObserved checked old oldMember
          rw [isAlert_iff] at same ⊢
          rw [sameTenant, sameInstance]
          exact same
        · rw [new, sameNode]
  | replayed stored found same => exact unchanged rfl
  | filled stored found legacy same => exact unchanged rfl
  | differs stored found content legacy => exact unchanged rfl
  | taken absent conflict => exact unchanged rfl

end Record

/-! ## A batch and a request -/

/-- Every alert a batch would materialize is its node's own. -/
def NamesOwnAlerts (db : Database Digest) (tenantId : Uuid) (batch : List TelemetryEnvelope) :
    Prop :=
  ∀ record ∈ freshRecords (isTaken db tenantId) batch, NamesOwnAlert db tenantId record

section Batch

variable {tenantId : Uuid} {nodeId : String} {db after : Database Digest}

theorem NamesOwnAlerts.cons {record : TelemetryEnvelope} {outcome : InsertOutcome}
    {rest : List TelemetryEnvelope} (own : NamesOwnAlerts db tenantId (record :: rest))
    (change : RecordChange service tenantId db record after outcome)
    (sameNode : ∀ later ∈ rest, later.nodeId = record.nodeId) :
    (isTaken db tenantId record = false → NamesOwnAlert db tenantId record) ∧
      NamesOwnAlerts after tenantId rest := by
  unfold NamesOwnAlerts at own ⊢
  rw [freshRecords_cons change] at own
  constructor
  · intro free
    exact own record (by simp [free])
  · intro later member
    refine change.namesOwnAlert (sameNode later (mem_of_freshRecords member)) (own later ?_)
    split
    · exact member
    · exact List.mem_cons_of_mem _ member

theorem RecordSteps.foreign {decisions : List Decision}
    (steps : RecordSteps service tenantId decisions db after) (references : References db)
    (ownNode : ∀ decision ∈ decisions, decision.1.nodeId = nodeId)
    (own : NamesOwnAlerts db tenantId (decisions.map Prod.fst)) :
    References after ∧ ∀ other otherNode, (tenantId, nodeId) ≠ (other, otherNode) →
      nodeRows other otherNode after = nodeRows other otherNode db := by
  induction steps with
  | done db => exact ⟨references, fun _ _ _ => rfl⟩
  | step record outcome rest db middle after change later inductionHypothesis =>
      have node := ownNode (record, outcome) (by simp)
      obtain ⟨head, tail⟩ := NamesOwnAlerts.cons own change fun other member => by
        obtain ⟨decision, decisionMember, rfl⟩ := List.mem_map.mp member
        rw [ownNode decision (by simp [decisionMember])]
        exact node.symm
      obtain ⟨referencesAfter, others⟩ := inductionHypothesis (change.references references)
        (fun decision member => ownNode decision (by simp [member])) tail
      refine ⟨referencesAfter, ?_⟩
      intro other otherNode different
      rw [others other otherNode different]
      exact change.foreign references head (by rw [show record.nodeId = nodeId from node]; exact different)

/-- The batch state writes the high-water mark of its node only. -/
theorem batchStateEffect_foreign (environment : StatementEnvironment Digest)
    (highest : Option Nat) {other : Uuid} {otherNode : String}
    (different : (tenantId, nodeId) ≠ (other, otherNode)) :
    nodeRows other otherNode (batchStateEffect environment tenantId nodeId highest db) =
      nodeRows other otherNode db := by
  cases highest with
  | none => rfl
  | some highest =>
      have marks : (batchStateEffect environment tenantId nodeId (some highest)
          db).nodeSequenceState.filter (SequenceStateRow.isNode other otherNode) =
          db.nodeSequenceState.filter (SequenceStateRow.isNode other otherNode) := by
        have apart : ∀ row : SequenceStateRow, row.tenantId = tenantId → row.nodeId = nodeId →
            row.isNode other otherNode = false := by
          intro row tenant node
          rw [← Bool.not_eq_true]
          intro foreign
          simp only [SequenceStateRow.isNode, Bool.and_eq_true, beq_iff_eq] at foreign
          exact different (by rw [← tenant, ← node, foreign.1, foreign.2])
        apply Table.filter_upsert_of_foreign
        · exact apart _ rfl rfl
        · intro old _ conflict
          simp only [SequenceStateRow.isNode, Bool.and_eq_true, beq_iff_eq] at conflict
          exact ⟨apart old conflict.1 conflict.2, apart _ conflict.1 conflict.2⟩
      simp only [nodeRows, marks]
      rfl

end Batch

end Rows

end SystemPilot.Cloud
