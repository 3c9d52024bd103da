import Mathlib.Tactic
import SystemPilot.Library.Machine
import SystemPilot.Cloud.MessageStore

/-!
# Ingestion is exactly once in effect

Over a consistent store: replays are accepted and change nothing but a missing
digest, conflicts are refused and change nothing, and the high-water mark of a
node is the highest sequence it ever had accepted.
-/

set_option autoImplicit false

namespace SystemPilot.Cloud

open SystemPilot.Text
open SystemPilot.Json
open SystemPilot.Library
open SystemPilot.Telemetry

section ExactlyOnce

variable {Bytes Digest : Type} {service : Service Bytes Digest}

/-! ## Replays -/

/-- The row with its digest filled in, if it was missing. -/
def FilledFrom (old new : MessageRow Digest) : Prop :=
  new = old ∨ (old.envelopeDigest = none ∧
    ∃ digest, new = { old with envelopeDigest := some digest })

theorem FilledFrom.trans {first second third : MessageRow Digest}
    (left : FilledFrom first second) (right : FilledFrom second third) :
    FilledFrom first third := by
  rcases left with rfl | ⟨missing, digest, rfl⟩
  · exact right
  · rcases right with rfl | ⟨stillMissing, _⟩
    · exact Or.inr ⟨missing, digest, rfl⟩
    · contradiction

/-- Nothing changed but digests that were missing. -/
structure OnlyDigests (db after : Database Digest) : Prop where
  messages : List.Forall₂ FilledFrom db.telemetryMessages after.telemetryMessages
  alerts : after.alerts = db.alerts
  jobs : after.reasoningJobs = db.reasoningJobs
  deliveries : after.notificationDeliveries = db.notificationDeliveries

theorem OnlyDigests.refl (db : Database Digest) : OnlyDigests db db :=
  ⟨List.forall₂_same.mpr fun _ _ => Or.inl rfl, rfl, rfl, rfl⟩

theorem forall₂_filledFrom_trans {first second third : List (MessageRow Digest)}
    (left : List.Forall₂ FilledFrom first second)
    (right : List.Forall₂ FilledFrom second third) : List.Forall₂ FilledFrom first third := by
  induction left generalizing third with
  | nil => exact right
  | cons head tail inductionHypothesis =>
      cases right with
      | cons next rest => exact .cons (head.trans next) (inductionHypothesis rest)

theorem OnlyDigests.trans {first second third : Database Digest}
    (left : OnlyDigests first second) (right : OnlyDigests second third) :
    OnlyDigests first third :=
  ⟨forall₂_filledFrom_trans left.messages right.messages, right.alerts.trans left.alerts,
    right.jobs.trans left.jobs, right.deliveries.trans left.deliveries⟩

theorem OnlyDigests.fill (tenantId : Uuid) (record : TelemetryEnvelope) (db : Database Digest) :
    OnlyDigests db (fillEffect service tenantId record db) := by
  refine ⟨?_, rfl, rfl, rfl⟩
  simp only [fillEffect, Table.update]
  rw [List.forall₂_map_right_iff, List.forall₂_same]
  intro row _
  split
  · rename_i selects
    simp only [Bool.and_eq_true, Option.isNone_iff_eq_none] at selects
    exact Or.inr ⟨selects.2, _, rfl⟩
  · exact Or.inl rfl

section Record

variable {db after : Database Digest} {accepted : List Acceptance} {tenantId : Uuid}
variable {record : TelemetryEnvelope} {outcome : InsertOutcome}

theorem StoreInvariant.row_of_accepted (store : StoreInvariant service db accepted)
    (member : (⟨tenantId, record⟩ : Acceptance) ∈ accepted) :
    ∃ row, storedMessage db tenantId record.nodeId record.messageId = some row ∧
      row ∈ db.telemetryMessages ∧ RecordedAs service ⟨tenantId, record⟩ row := by
  obtain ⟨row, rowMember, holds⟩ := store.kept _ member
  have found := store.storedMessage_of_mem rowMember
  rw [holds.tenantId, holds.nodeId, holds.messageId] at found
  exact ⟨row, found, rowMember, holds⟩

/-- A record that was accepted before is accepted again, in place. -/
theorem RecordChange.replay (change : RecordChange service tenantId db record after outcome)
    (store : StoreInvariant service db accepted)
    (member : (⟨tenantId, record⟩ : Acceptance) ∈ accepted) :
    outcome = .accepted ∧ OnlyDigests db after := by
  obtain ⟨row, found, rowMember, holds⟩ := store.row_of_accepted member
  cases change with
  | inserted environment observed checks bigint timestamp fresh node alert =>
      have conflict : row.conflicts tenantId record = true :=
        conflicts_of_messageKey (storedMessage_some found).2
      exact absurd (List.any_eq_true.mpr ⟨row, rowMember, conflict⟩) (by simp [fresh])
  | replayed stored found' same => exact ⟨rfl, .refl db⟩
  | filled stored found' legacy same => exact ⟨rfl, .fill tenantId record db⟩
  | differs stored found' content legacy =>
      rw [found] at found'
      cases found'
      cases digest : row.envelopeDigest with
      | none => exact absurd holds.envelope (legacy digest)
      | some value => exact absurd (holds.digest value digest) (content value digest)
  | taken absent conflict =>
      rw [found] at absent
      contradiction

/-! ## Conflicts -/

variable (accepted tenantId record) in
/-- The identity of the record was accepted with another content, or its
sequence was accepted under another identity. -/
def Conflicting : Prop :=
  ∃ acceptance ∈ accepted, acceptance.tenantId = tenantId ∧
    acceptance.record.nodeId = record.nodeId ∧
    ((acceptance.record.messageId = record.messageId ∧ acceptance.record ≠ record) ∨
      (acceptance.record.sequence = record.sequence ∧
        acceptance.record.messageId ≠ record.messageId))

/-- The row that holds a record is in conflict with no acceptance. -/
theorem StoreInvariant.not_conflicting (store : StoreInvariant service db accepted)
    {stored : MessageRow Digest} (member : stored ∈ db.telemetryMessages)
    (holds : RecordedAs service ⟨tenantId, record⟩ stored) :
    ¬Conflicting accepted tenantId record := by
  rintro ⟨acceptance, acceptedBefore, tenant, node, conflict⟩
  obtain ⟨row, rowMember, holdsOther⟩ := store.kept acceptance acceptedBefore
  rcases conflict with ⟨message, different⟩ | ⟨sequence, different⟩
  · have same : messageKey row = messageKey stored := by
      rw [messageKey, messageKey, holdsOther.tenantId, holdsOther.nodeId, holdsOther.messageId,
        holds.tenantId, holds.nodeId, holds.messageId, tenant, node, message]
    have one := store.keys.eq_of_mem messageKey rowMember member same
    subst one
    exact different (congrArg Acceptance.record (holdsOther.unique holds))
  · have same : sequenceKey row = sequenceKey stored := by
      rw [sequenceKey, sequenceKey, holdsOther.tenantId, holdsOther.nodeId, holdsOther.sequence,
        holds.tenantId, holds.nodeId, holds.sequence, tenant, node, sequence]
    have one := store.sequences.eq_of_mem sequenceKey rowMember member same
    subst one
    exact different (congrArg (fun acceptance => acceptance.record.messageId)
      (holdsOther.unique holds))

/-- A conflicting record is refused and changes nothing. -/
theorem RecordChange.conflict (injective : Function.Injective service.envelopeDigest)
    (change : RecordChange service tenantId db record after outcome)
    (store : StoreInvariant service db accepted)
    (conflicting : Conflicting accepted tenantId record) :
    outcome ≠ .accepted ∧ after = db := by
  cases change with
  | inserted environment observed checks bigint timestamp fresh node alert =>
      obtain ⟨acceptance, acceptedBefore, tenant, node, conflict⟩ := conflicting
      obtain ⟨row, rowMember, holds⟩ := store.kept acceptance acceptedBefore
      have conflicts : row.conflicts tenantId record = true := by
        rcases conflict with ⟨message, _⟩ | ⟨sequence, _⟩
        · apply conflicts_of_messageKey
          rw [messageKey, holds.tenantId, holds.nodeId, holds.messageId, tenant, node, message]
        · apply conflicts_of_sequenceKey
          rw [sequenceKey, holds.tenantId, holds.nodeId, holds.sequence, tenant, node, sequence]
      exact absurd (List.any_eq_true.mpr ⟨row, rowMember, conflicts⟩) (by simp [fresh])
  | replayed stored found same =>
      have holds := (store.replayed_accepted injective found (Or.inl same)).2
      exact absurd conflicting (store.not_conflicting (storedMessage_some found).1 holds)
  | filled stored found legacy same =>
      have holds := (store.replayed_accepted injective found (Or.inr ⟨legacy, same⟩)).2
      exact absurd conflicting (store.not_conflicting (storedMessage_some found).1 holds)
  | differs stored found content legacy => exact ⟨by simp, rfl⟩
  | taken absent conflict => exact ⟨by simp, rfl⟩

/-! ## Stored envelopes stay -/

/-- Every row is still there, with its digest filled in at most. -/
def Persists (db after : Database Digest) : Prop :=
  ∀ row ∈ db.telemetryMessages, ∃ row' ∈ after.telemetryMessages, FilledFrom row row'

theorem Persists.refl (db : Database Digest) : Persists db db :=
  fun row member => ⟨row, member, Or.inl rfl⟩

theorem Persists.trans {first second third : Database Digest} (left : Persists first second)
    (right : Persists second third) : Persists first third := by
  intro row member
  obtain ⟨middle, middleMember, filled⟩ := left row member
  obtain ⟨last, lastMember, refilled⟩ := right middle middleMember
  exact ⟨last, lastMember, filled.trans refilled⟩

theorem OnlyDigests.persists (only : OnlyDigests db after) : Persists db after := by
  intro row member
  obtain ⟨lengths, filled⟩ := List.forall₂_iff_get.mp only.messages
  obtain ⟨index, bound, rfl⟩ := List.getElem_of_mem member
  exact ⟨_, List.getElem_mem _, filled index bound (by omega)⟩

theorem RecordChange.persists (change : RecordChange service tenantId db record after outcome) :
    Persists db after := by
  cases change with
  | inserted environment observed checks bigint timestamp fresh node alert =>
      intro row member
      rw [admitEffect_messages]
      exact ⟨row, List.mem_append_left _ member, Or.inl rfl⟩
  | replayed stored found same => exact .refl db
  | filled stored found legacy same => exact (OnlyDigests.fill tenantId record db).persists
  | differs stored found content legacy => exact .refl db
  | taken absent conflict => exact .refl db

end Record

theorem RecordSteps.persists {tenantId : Uuid} {decisions : List Decision}
    {db after : Database Digest} (steps : RecordSteps service tenantId decisions db after) :
    Persists db after := by
  induction steps with
  | done db => exact .refl db
  | step record outcome rest db middle after change later inductionHypothesis =>
      exact change.persists.trans inductionHypothesis

/-- A batch of records accepted before is accepted as a whole, in place. -/
theorem RecordSteps.replay (injective : Function.Injective service.envelopeDigest)
    {tenantId : Uuid} {decisions : List Decision} {db after : Database Digest}
    {accepted : List Acceptance} (steps : RecordSteps service tenantId decisions db after)
    (store : StoreInvariant service db accepted)
    (known : ∀ decision ∈ decisions, (⟨tenantId, decision.1⟩ : Acceptance) ∈ accepted) :
    (∀ decision ∈ decisions, decision.2 = .accepted) ∧ OnlyDigests db after := by
  induction steps generalizing accepted with
  | done db => exact ⟨by simp, .refl db⟩
  | step record outcome rest db middle after change later inductionHypothesis =>
      have member := known (record, outcome) (by simp)
      obtain ⟨acceptedNow, inPlace⟩ := change.replay store member
      have next := change.store injective store (store.admissible _ member).validated
      obtain ⟨others, afterwards⟩ := inductionHypothesis next fun decision decisionMember =>
        List.mem_append_left _ (known decision (by simp [decisionMember]))
      refine ⟨?_, inPlace.trans afterwards⟩
      intro decision decisionMember
      rcases List.mem_cons.mp decisionMember with rfl | tail
      · exact acceptedNow
      · exact others decision tail

/-! ## The high-water mark -/

/-- The records of a node among the accepted ones. -/
def recordsOf (accepted : List Acceptance) (tenantId : Uuid) (nodeId : String) :
    List TelemetryEnvelope :=
  (accepted.filter fun acceptance =>
    acceptance.tenantId == tenantId && acceptance.record.nodeId == nodeId).map Acceptance.record

/-- The stored high-water mark of a node. -/
def highWaterMark (db : Database Digest) (tenantId : Uuid) (nodeId : String) : Option Nat :=
  (db.nodeSequenceState.find? (SequenceStateRow.isNode tenantId nodeId)).map
    SequenceStateRow.highestAcceptedSequence

/-- The high-water mark of every node is its highest accepted sequence. -/
def HighWater (state : Ingestion Digest) : Prop :=
  ∀ tenantId nodeId, highWaterMark state.db tenantId nodeId =
    highestSequence (recordsOf state.accepted tenantId nodeId)

theorem highWaterMark_batchState (environment : StatementEnvironment Digest) (tenantId : Uuid)
    (nodeId : String) (highest : Option Nat) (db : Database Digest) :
    highWaterMark (batchStateEffect environment tenantId nodeId highest db) tenantId nodeId =
      (highWaterMark db tenantId nodeId).merge max highest := by
  cases highest with
  | none => simp [highWaterMark, batchStateEffect]
  | some highest =>
      have own : ∀ row : SequenceStateRow, SequenceStateRow.isNode tenantId nodeId row =
          (row.tenantId == tenantId && row.nodeId == nodeId) := fun _ => rfl
      simp only [highWaterMark, batchStateEffect]
      rw [Table.find?_upsert_self (by simp [own]) (by simp [own])]
      cases db.nodeSequenceState.find? (SequenceStateRow.isNode tenantId nodeId) <;> rfl

theorem highWaterMark_batchState_of_ne (environment : StatementEnvironment Digest)
    (tenantId other : Uuid) (nodeId otherNode : String) (highest : Option Nat)
    (db : Database Digest) (different : (tenantId, nodeId) ≠ (other, otherNode)) :
    highWaterMark (batchStateEffect environment tenantId nodeId highest db) other otherNode =
      highWaterMark db other otherNode := by
  cases highest with
  | none => rfl
  | some highest =>
      have apart : ∀ row : SequenceStateRow, SequenceStateRow.isNode tenantId nodeId row = true →
          SequenceStateRow.isNode other otherNode row = false := by
        intro row own
        rw [← Bool.not_eq_true]
        intro foreign
        simp only [SequenceStateRow.isNode, Bool.and_eq_true, beq_iff_eq] at own foreign
        exact different (by rw [← own.1, ← own.2, foreign.1, foreign.2])
      have own : ∀ row : SequenceStateRow, SequenceStateRow.isNode tenantId nodeId row =
          (row.tenantId == tenantId && row.nodeId == nodeId) := fun _ => rfl
      simp only [highWaterMark, batchStateEffect]
      rw [Table.find?_upsert_of_foreign]
      · exact apart _ (by simp [own])
      · intro row conflict
        exact ⟨apart row conflict, apart _ conflict⟩

theorem RecordSteps.sequenceState {tenantId : Uuid} {decisions : List Decision}
    {db after : Database Digest} (steps : RecordSteps service tenantId decisions db after) :
    after.nodeSequenceState = db.nodeSequenceState := by
  induction steps with
  | done db => rfl
  | step record outcome rest db middle after change later inductionHypothesis =>
      rw [inductionHypothesis]
      cases change <;> first | rfl | rw [admitEffect_sequenceState]

theorem recordsOf_acceptancesOf (tenantId other : Uuid) (nodeId otherNode : String)
    (decisions : List Decision) (own : ∀ decision ∈ decisions, decision.1.nodeId = nodeId) :
    recordsOf (acceptancesOf tenantId decisions) other otherNode =
      if (tenantId, nodeId) = (other, otherNode) then acceptedOf decisions else [] := by
  have nodes : ∀ record ∈ acceptedOf decisions, record.nodeId = nodeId := by
    intro record member
    obtain ⟨decision, chosen, rfl⟩ := List.mem_map.mp member
    exact own decision (List.mem_filter.mp chosen).1
  rw [recordsOf, acceptancesOf, List.filter_map, List.map_map]
  split
  · rename_i same
    cases same
    rw [List.filter_eq_self.mpr]
    · exact List.map_id _
    · intro record member
      simp [nodes record member]
  · rename_i different
    rw [List.filter_eq_nil_iff.mpr]
    · rfl
    · intro record member
      simp only [Function.comp_apply, nodes record member, Bool.and_eq_true, beq_iff_eq]
      rintro ⟨rfl, rfl⟩
      exact different rfl

variable [DecidableEq Digest]

variable (service) in
theorem ingestStep_highWater (state : Ingestion Digest) (request : Request Digest)
    (water : HighWater state) : HighWater (ingestStep service state request) := by
  rcases ingestStep_cases service state request with
    ⟨_, _, unchanged⟩ | ⟨after, acknowledgement, _, committed, stepped⟩
  · rw [unchanged]
    exact water
  · intro tenantId nodeId
    obtain ⟨ownTenant, ownNode, recorded, _, _, sameNode, records, steps, answered, rfl⟩ :=
      committed
    rw [stepped]
    clear stepped
    simp only
    generalize requestDecisions service state.db request = decisions at records steps answered ⊢
    have own : ∀ decision ∈ decisions, decision.1.nodeId = ownNode := by
      intro decision member
      apply sameNode
      rw [← records]
      exact List.mem_map_of_mem member
    have answer : acknowledgement.highestAcceptedSequence =
        highestSequence (acceptedOf decisions) := by
      rw [answered, acknowledgementOf_fresh]
    have before : highWaterMark recorded tenantId nodeId =
        highestSequence (recordsOf state.accepted tenantId nodeId) := by
      rw [← water tenantId nodeId, highWaterMark, steps.sequenceState]
      rfl
    have split : recordsOf (state.accepted ++ acceptancesOf ownTenant decisions) tenantId nodeId =
        recordsOf state.accepted tenantId nodeId ++
          recordsOf (acceptancesOf ownTenant decisions) tenantId nodeId := by
      simp only [recordsOf, List.filter_append, List.map_append]
    rw [split, recordsOf_acceptancesOf _ _ _ _ _ own, highestSequence_append]
    by_cases same : (ownTenant, ownNode) = (tenantId, nodeId)
    · rw [if_pos same]
      cases same
      rw [highWaterMark_batchState, before, answer]
    · rw [if_neg same, highWaterMark_batchState_of_ne _ _ _ _ _ _ _ same, before]
      cases highestSequence (recordsOf state.accepted tenantId nodeId) <;> rfl

/-! ## A healthy replay is answered -/

/-- No statement raises an error of its own. -/
def StatementEnvironment.Healthy (environment : StatementEnvironment Digest) : Prop :=
  ∀ statement, environment.raises statement = false

/-- The request finds the database and the collector able to serve it, whatever
becomes of its records. -/
structure RequestEnvironment.Serving (environment : RequestEnvironment Digest) : Prop where
  begins : environment.beginFails = false
  authenticates : environment.authenticationFails = false
  admits : environment.admits = true
  tenant : environment.tenantFails = false
  batchState : environment.batchState.Healthy
  commits : environment.commitFails = false

/-- Nothing fails. -/
structure RequestEnvironment.Healthy (environment : RequestEnvironment Digest) : Prop
    extends environment.Serving where
  record : ∀ index, (environment.record index).Healthy

omit [DecidableEq Digest] in
theorem execute_of_healthy {environment : StatementEnvironment Digest}
    (healthy : environment.Healthy) (tenantId : Uuid) (statement : Statement Digest)
    (effect : Database Digest) :
    execute environment (some tenantId) tenantId statement true effect = .ok effect := by
  rw [execute_ok_iff]
  exact ⟨healthy statement, rowPolicy_some tenantId, rfl, rfl⟩

theorem replayRecord_of_recorded {environment : StatementEnvironment Digest}
    (healthy : environment.Healthy) {tenantId : Uuid} {record : TelemetryEnvelope}
    {db : Database Digest} {row : MessageRow Digest}
    (found : storedMessage db tenantId record.nodeId record.messageId = some row)
    (holds : RecordedAs service ⟨tenantId, record⟩ row) :
    ∃ after, replayRecord service environment (some tenantId) tenantId record db =
      .ok (after, .accepted) := by
  have selected : selectReplay environment (some tenantId) tenantId record.nodeId
      record.messageId db = .ok (some row) := by
    rw [selectReplay_eq environment tenantId, healthy, found]
    rfl
  unfold replayRecord
  rw [selected]
  cases digest : row.envelopeDigest with
  | some value =>
      refine ⟨db, ?_⟩
      simp [bind, Except.bind, digest, holds.digest value digest, pure, Except.pure]
  | none =>
      have written : updateDigest environment (some tenantId) tenantId record.nodeId
          record.messageId (service.envelopeDigest record) db =
            .ok (fillEffect service tenantId record db) :=
        execute_of_healthy healthy tenantId _ _
      have envelope : row.envelope = record.toValue := holds.envelope
      refine ⟨fillEffect service tenantId record db, ?_⟩
      simp only [bind, Except.bind, digest, envelope, if_true, written]
      rfl

theorem insertEnvelope_of_accepted {environment : StatementEnvironment Digest}
    (healthy : environment.Healthy) {tenantId : Uuid} {record : TelemetryEnvelope}
    {db : Database Digest} {accepted : List Acceptance}
    (store : StoreInvariant service db accepted)
    (member : (⟨tenantId, record⟩ : Acceptance) ∈ accepted) :
    ∃ after, insertEnvelope service environment (some tenantId) tenantId record db =
      .ok (after, .accepted) := by
  obtain ⟨validated, checks, bigint, _⟩ := store.admissible _ member
  obtain ⟨_, _, observed, timestamp⟩ := (validateRecord_ok_iff record).mp validated
  obtain ⟨row, found, rowMember, holds⟩ := store.row_of_accepted member
  have conflict : db.telemetryMessages.any (MessageRow.conflicts tenantId record) = true :=
    List.any_eq_true.mpr
      ⟨row, rowMember, conflicts_of_messageKey (storedMessage_some found).2⟩
  have refused : insertMessage environment (some tenantId) tenantId record
      (messageRow service environment tenantId record observed) db = .ok none := by
    unfold insertMessage
    rw [if_neg (by simp [healthy _, checks]), if_pos conflict]
  unfold insertEnvelope
  rw [if_neg (Nat.not_le.mpr bigint), timestamp]
  simp only [bind, Except.bind, refused]
  exact replayRecord_of_recorded healthy found holds

theorem ingestLoop_of_accepted (injective : Function.Injective service.envelopeDigest)
    (environments : Nat → StatementEnvironment Digest)
    (healthy : ∀ index, (environments index).Healthy) {tenantId : Uuid}
    (batch : List TelemetryEnvelope) (index : Nat) {db : Database Digest}
    {accepted : List Acceptance} (start : IngestionAcknowledgement)
    (store : StoreInvariant service db accepted)
    (known : ∀ record ∈ batch, (⟨tenantId, record⟩ : Acceptance) ∈ accepted) :
    ∃ after result, ingestLoop service environments (some tenantId) tenantId batch index db start =
      .ok (after, result) := by
  induction batch generalizing index db accepted start with
  | nil => exact ⟨db, start, rfl⟩
  | cons record rest inductionHypothesis =>
      have member := known record (by simp)
      obtain ⟨middle, inserted⟩ := insertEnvelope_of_accepted (healthy index) store member
      have change := insertEnvelope_ok service _ _ _ _ _ _ inserted
      have next := change.store injective store (store.admissible _ member).validated
      obtain ⟨after, result, ran⟩ := inductionHypothesis (index + 1)
        (recordOutcome record start .accepted) next fun other otherMember =>
          List.mem_append_left _ (known other (by simp [otherMember]))
      refine ⟨after, result, ?_⟩
      rw [ingestLoop, inserted]
      exact ran

omit [DecidableEq Digest] in
theorem RecordSteps.nodes {tenantId : Uuid} {decisions : List Decision}
    {db after : Database Digest} (steps : RecordSteps service tenantId decisions db after) :
    after.nodes = db.nodes := by
  induction steps with
  | done db => rfl
  | step record outcome rest db middle after change later inductionHypothesis =>
      rw [inductionHypothesis]
      cases change <;> first | rfl | rw [admitEffect_nodes]

theorem authenticate_hasNode {now : Nat} {db : Database Digest} {digest : Digest}
    {tenantId : Uuid} {nodeId : String}
    (authenticated : authenticate now db digest = some (tenantId, nodeId)) :
    db.hasNode tenantId nodeId = true := by
  unfold authenticate at authenticated
  obtain ⟨credential, found, identity⟩ := Option.map_eq_some_iff.mp authenticated
  cases identity
  have live := List.find?_some found
  simp only [Bool.and_eq_true] at live
  obtain ⟨node, member, facts⟩ := List.any_eq_true.mp live.2
  simp only [Bool.and_eq_true] at facts
  exact List.any_eq_true.mpr ⟨node, member, by simpa using facts.1⟩

omit [DecidableEq Digest] in
theorem recordBatchState_ok_iff {environment : StatementEnvironment Digest} {tenantId : Uuid}
    {nodeId : String} {highest : Option Nat} {db after : Database Digest}
    (node : db.hasNode tenantId nodeId = true) :
    recordBatchState environment (some tenantId) tenantId nodeId highest db = .ok after ↔
      environment.raises (.touchNode tenantId nodeId) = false ∧
        environment.raises (.upsertActiveDay tenantId nodeId) = false ∧
        (∀ value, highest = some value → value < 2 ^ 63 ∧
          environment.raises (.upsertSequenceState tenantId nodeId value) = false) ∧
        after = batchStateEffect environment tenantId nodeId highest db := by
  -- the node is still there after its row was touched
  have stillNode : (Table.update (fun row => row.tenantId == tenantId && row.nodeId == nodeId)
      (fun row : NodeRow => { row with lastSeenAt := some environment.now }) db.nodes).any
      (fun row => row.tenantId == tenantId && row.nodeId == nodeId) = true := by
    exact (Table.any_update_of_blind (by simp)).trans node
  constructor
  · intro ran
    have effect := recordBatchState_ok _ _ _ _ _ _ _ ran
    unfold recordBatchState at ran
    obtain ⟨_, first, ran⟩ := (bind_ok_iff _ _ _).mp ran
    obtain ⟨_, second, ran⟩ := (bind_ok_iff _ _ _).mp ran
    refine ⟨((execute_ok_iff _ _ _ _ _ _ _).mp first).1, ((execute_ok_iff _ _ _ _ _ _ _).mp second).1,
      ?_, effect⟩
    rintro value rfl
    simp only at ran
    split at ran
    · contradiction
    · exact ⟨by omega, ((execute_ok_iff _ _ _ _ _ _ _).mp ran).1⟩
  · rintro ⟨touches, counts, marks, rfl⟩
    unfold recordBatchState
    rw [bind_ok_iff]
    refine ⟨_, (execute_ok_iff _ _ _ _ _ _ _).mpr ⟨touches, rowPolicy_some _, rfl, rfl⟩, ?_⟩
    rw [bind_ok_iff]
    refine ⟨_, (execute_ok_iff _ _ _ _ _ _ _).mpr ⟨counts, rowPolicy_some _, stillNode, rfl⟩, ?_⟩
    cases highest with
    | none => rfl
    | some value =>
        obtain ⟨bigint, accepted⟩ := marks value rfl
        simp only [if_neg (Nat.not_le.mpr bigint)]
        exact (execute_ok_iff _ _ _ _ _ _ _).mpr ⟨accepted, rowPolicy_some _, stillNode, rfl⟩

theorem ingest_of_loop {db recorded : Database Digest} {request : Request Digest}
    {acknowledgement : IngestionAcknowledgement} {tenantId : Uuid} {nodeId : String}
    (serving : request.environment.Serving)
    (identity : requestIdentity service db request = some (tenantId, nodeId))
    (checked : validateBatch request.batch = .ok ())
    (ownNode : ∀ record ∈ request.batch, record.nodeId = nodeId)
    (bigint : ∀ record ∈ request.batch, record.sequence < 2 ^ 63)
    (looped : ingestLoop service request.environment.record (some tenantId) tenantId request.batch
      0 db {} = .ok (recorded, acknowledgement)) :
    ∃ after, ingest service db request = (after, .ok acknowledgement) := by
  obtain ⟨_, _, authenticated⟩ := Option.bind_eq_some_iff.mp identity
  obtain ⟨records, steps, answered⟩ := ingestLoop_ok _ _ _ _ _ _ _ _ _ looped
  have node : recorded.hasNode tenantId nodeId = true := by
    rw [Database.hasNode, steps.nodes]
    exact authenticate_hasNode authenticated
  have highest : ∀ value, acknowledgement.highestAcceptedSequence = some value →
      value < 2 ^ 63 := by
    intro value highest
    rw [answered, acknowledgementOf_fresh] at highest
    obtain ⟨record, member, rfl⟩ := List.mem_map.mp (List.max?_mem highest)
    obtain ⟨decision, chosen, rfl⟩ := List.mem_map.mp member
    apply bigint
    rw [← records]
    exact List.mem_map_of_mem (List.mem_filter.mp chosen).1
  have healthy := serving.batchState
  refine ⟨batchStateEffect request.environment.batchState tenantId nodeId
    acknowledgement.highestAcceptedSequence recorded,
    (ingest_ok_iff _ _ _ _ _).mpr ⟨tenantId, nodeId, recorded, ?_⟩⟩
  have stated := (recordBatchState_ok_iff node).mpr
    ⟨healthy _, healthy _, fun value found => ⟨highest value found, healthy _⟩, rfl⟩
  exact ⟨checked, serving.begins, serving.authenticates, identity, ownNode, serving.admits,
    serving.tenant, looped, stated, serving.commits⟩

/-- A healthy resubmission of accepted records is answered. -/
theorem ingest_of_accepted (injective : Function.Injective service.envelopeDigest)
    {db : Database Digest} {accepted : List Acceptance} {request : Request Digest}
    {tenantId : Uuid} {nodeId : String} (store : StoreInvariant service db accepted)
    (healthy : request.environment.Healthy)
    (identity : requestIdentity service db request = some (tenantId, nodeId))
    (sized : request.batch ≠ [] ∧ request.batch.length ≤ maxBatch)
    (ownNode : ∀ record ∈ request.batch, record.nodeId = nodeId)
    (known : ∀ record ∈ request.batch, (⟨tenantId, record⟩ : Acceptance) ∈ accepted) :
    ∃ after acknowledgement, ingest service db request = (after, .ok acknowledgement) := by
  have checked : validateBatch request.batch = .ok () :=
    (validateBatch_ok_iff _).mpr ⟨sized.1, sized.2,
      fun record member => (store.admissible _ (known record member)).validated⟩
  obtain ⟨recorded, acknowledgement, looped⟩ := ingestLoop_of_accepted injective
    request.environment.record healthy.record request.batch 0 {} store known
  obtain ⟨after, answered⟩ := ingest_of_loop healthy.toServing identity checked ownNode
    (fun record member => (store.admissible _ (known record member)).bigint) looped
  exact ⟨after, acknowledgement, answered⟩

/-! ## The guarantee -/

variable (service) in
/-- A database whose rows are the accepted records and whose marks are theirs. -/
structure Consistent (state : Ingestion Digest) : Prop where
  store : StoreInvariant service state.db state.accepted
  water : HighWater state

variable (service) in
/-- What every request finds in a database that only requests have changed. -/
structure ExactlyOnce (state : Ingestion Digest) : Prop where
  /-- Accepted records that are submitted again are accepted, in any grouping,
  and nothing changes but missing digests. -/
  replays : ∀ request tenantId nodeId,
    requestIdentity service state.db request = some (tenantId, nodeId) →
    (∀ record ∈ request.batch, (⟨tenantId, record⟩ : Acceptance) ∈ state.accepted) →
      (∀ after acknowledgement, ingest service state.db request = (after, .ok acknowledgement) →
        acknowledgement.acceptedMessageIds = request.batch.map TelemetryEnvelope.messageId ∧
          acknowledgement.rejectedRecords = [] ∧ OnlyDigests state.db after) ∧
      (request.environment.Healthy →
        request.batch ≠ [] ∧ request.batch.length ≤ maxBatch →
        (∀ record ∈ request.batch, record.nodeId = nodeId) →
        ∃ after acknowledgement,
          ingest service state.db request = (after, .ok acknowledgement))
  /-- A record in conflict with what was accepted, also earlier in its batch, is
  refused, and the batch goes on from the same database. -/
  conflicts : ∀ request after acknowledgement tenantId nodeId before record outcome rest,
    ingest service state.db request = (after, .ok acknowledgement) →
    requestIdentity service state.db request = some (tenantId, nodeId) →
    requestDecisions service state.db request = before ++ (record, outcome) :: rest →
    Conflicting (state.accepted ++ acceptancesOf tenantId before) tenantId record →
      outcome ≠ .accepted ∧
        ⟨record.messageId, refusalReason outcome⟩ ∈ acknowledgement.rejectedRecords ∧
        ∃ middle recorded,
          RecordSteps service tenantId before state.db middle ∧
            RecordSteps service tenantId [(record, outcome)] middle middle ∧
            RecordSteps service tenantId rest middle recorded ∧
            after = batchStateEffect request.environment.batchState tenantId nodeId
              acknowledgement.highestAcceptedSequence recorded
  /-- One reasoning job for each stored message, none for a health message. -/
  jobs : ∀ row ∈ state.db.telemetryMessages,
    (jobsOf state.db row).length = if row.kind = TelemetryKind.health.name then 0 else 1
  /-- An error leaves every table as it was. -/
  errors : ∀ request after failure,
    ingest service state.db request = (after, .error failure) → after = state.db
  /-- The high-water mark of a node is the highest sequence it had accepted. -/
  highest : ∀ tenantId nodeId, highWaterMark state.db tenantId nodeId =
    highestSequence (recordsOf state.accepted tenantId nodeId)

theorem Consistent.exactlyOnce (injective : Function.Injective service.envelopeDigest)
    {state : Ingestion Digest} (consistent : Consistent service state) :
    ExactlyOnce service state := by
  have store := consistent.store
  constructor
  · intro request tenantId nodeId identity known
    refine ⟨?_, ?_⟩
    · intro after acknowledgement answered
      rcases ingest_cases service state.db request with
        ⟨failure, failed⟩ | ⟨after', answer, ran, ⟨committed⟩⟩
      · rw [failed] at answered
        cases answered
      · rw [ran] at answered
        cases answered
        obtain ⟨ownTenant, ownNode, recorded, _, identity', _, records, steps, answered, rfl⟩ :=
          committed
        rw [identity] at identity'
        cases identity'
        generalize requestDecisions service state.db request = decisions at records steps answered
        obtain ⟨all, only⟩ := steps.replay injective store fun decision member =>
          known decision.1 (by rw [← records]; exact List.mem_map_of_mem member)
        have accepted : decisions.filter isAccepted = decisions :=
          List.filter_eq_self.mpr fun decision member => by simp [isAccepted, all decision member]
        have refused : decisions.filter (fun decision => !isAccepted decision) = [] :=
          List.filter_eq_nil_iff.mpr fun decision member => by
            simp [isAccepted, all decision member]
        rw [answered, acknowledgementOf_fresh]
        refine ⟨?_, ?_, ⟨only.messages, only.alerts, only.jobs, only.deliveries⟩⟩
        · simp only [acceptedOf, accepted, records]
        · simp only [rejectedOf, refused, List.map_nil]
    · intro healthy sized ownNode
      exact ingest_of_accepted injective store healthy identity sized ownNode known
  · intro request after acknowledgement tenantId nodeId before record outcome rest answered
      identity split conflicting
    rcases ingest_cases service state.db request with
      ⟨failure, failed⟩ | ⟨after', answer, ran, ⟨committed⟩⟩
    · rw [failed] at answered
      cases answered
    · rw [ran] at answered
      cases answered
      have validated := committed.validated
      obtain ⟨ownTenant, ownNode, recorded, _, identity', _, records, steps, answered, rfl⟩ :=
        committed
      rw [identity] at identity'
      cases identity'
      rw [split] at validated steps answered
      obtain ⟨middle, first, second⟩ := steps.split
      have reached := first.store injective store fun decision member =>
        validated decision (List.mem_append_left _ member)
      cases second with
      | step _ _ _ _ next _ change later =>
          obtain ⟨refused, unchanged⟩ := change.conflict injective reached conflicting
          subst unchanged
          refine ⟨refused, ?_, next, recorded, first,
            .step record outcome [] next next next change (.done next), later, rfl⟩
          rw [answered, acknowledgementOf_fresh]
          refine List.mem_map.mpr ⟨(record, outcome), List.mem_filter.mpr ⟨by simp, ?_⟩, rfl⟩
          simp [isAccepted, refused]
  · exact store.jobs
  · intro request after failure failed
    rcases ingest_cases service state.db request with
      ⟨failure', failed'⟩ | ⟨after', answer, ran, _⟩
    · rw [failed'] at failed
      cases failed
      rfl
    · rw [ran] at failed
      cases failed
  · exact consistent.water

theorem ingestStep_persists (state : Ingestion Digest) (request : Request Digest) :
    Persists state.db (ingestStep service state request).db := by
  rcases ingestStep_cases service state request with
    ⟨_, _, unchanged⟩ | ⟨after, acknowledgement, _, committed, stepped⟩
  · rw [unchanged]
    exact .refl _
  · rw [stepped]
    obtain ⟨ownTenant, ownNode, recorded, _, _, _, _, steps, _, rfl⟩ := committed
    exact steps.persists

theorem run_persists (state : Ingestion Digest) (requests : List (Request Digest)) :
    Persists state.db (Machine.run (ingestStep service) state requests).db := by
  induction requests generalizing state with
  | nil => exact .refl _
  | cons request rest inductionHypothesis =>
      exact (ingestStep_persists state request).trans
        (inductionHypothesis (ingestStep service state request))

theorem run_consistent (injective : Function.Injective service.envelopeDigest)
    (start : Ingestion Digest) (requests : List (Request Digest))
    (consistent : Consistent service start) :
    Consistent service (Machine.run (ingestStep service) start requests) :=
  Machine.run_invariant_always (ingestStep service) (Consistent service)
    (fun state request holds => ⟨ingestStep_store injective state request holds.store,
      ingestStep_highWater service state request holds.water⟩) start requests consistent

variable (service) in
omit [DecidableEq Digest] in
theorem envelopeDigest_injective (encoding : service.codec.Faithful)
    (sha256 : Function.Injective service.sha256) :
    Function.Injective service.envelopeDigest :=
  sha256.comp encoding.toVec_injective

end ExactlyOnce

theorem plainDatabase_consistent : Consistent plainService ⟨plainDatabase, []⟩ :=
  ⟨.empty plainService plainDatabase rfl rfl, fun _ _ => rfl⟩

end SystemPilot.Cloud
