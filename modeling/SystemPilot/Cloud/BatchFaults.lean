import Mathlib.Tactic
import SystemPilot.Cloud.ExactlyOnce

/-!
# Records that fail their batch

The handler ends the whole request at the first record it cannot insert.  For a
database that raises errors for statements of records only, a request is
answered exactly when none of its records is such a record; the rest of the
batch does not matter.
-/

set_option autoImplicit false

namespace SystemPilot.Cloud

open SystemPilot.Text
open SystemPilot.Json
open SystemPilot.Library
open SystemPilot.Telemetry

section Faults

variable {Bytes Digest : Type} {service : Service Bytes Digest}

/-! ## What a record has to pass -/

/-- The database serves the request and raises errors for the insertions of
records only, for the values bound to them: `refuses` tells which. -/
structure ValueFaults (refuses : Statement Digest → Bool)
    (environment : RequestEnvironment Digest) : Prop where
  serving : environment.Serving
  record : ∀ index statement, (environment.record index).raises statement = refuses statement
  select : ∀ tenantId nodeId messageId, refuses (.selectReplay tenantId nodeId messageId) = false
  update : ∀ tenantId nodeId messageId digest,
    refuses (.updateDigest tenantId nodeId messageId digest) = false

/-- The record passes what comes before the unique keys decide. -/
structure Submittable (refuses : Statement Digest → Bool) (tenantId : Uuid)
    (record : TelemetryEnvelope) : Prop where
  bigint : record.sequence < 2 ^ 63
  checks : messageChecks record = true
  insert : refuses (.insertMessage tenantId record) = false

/-- The record passes what follows its first insertion. -/
structure Admittable (refuses : Statement Digest → Bool) (tenantId : Uuid)
    (record : TelemetryEnvelope) : Prop where
  alert : record.kind = .processAlert →
    ∃ alert observed, checkAlert record = .ok (alert, observed) ∧ record.payload.isObject = true ∧
      refuses (.upsertAlert tenantId record.nodeId alert record.payload) = false ∧
      (alert.state = "firing" → refuses (.insertDeliveries tenantId alert.instanceId) = false)
  job : record.kind ≠ .health →
    refuses (.insertJob tenantId record.nodeId record.messageId) = false

/-- A unique key of the record is taken. -/
def isTaken (db : Database Digest) (tenantId : Uuid) (record : TelemetryEnvelope) : Bool :=
  db.telemetryMessages.any (MessageRow.conflicts tenantId record)

/-- Two records share a unique key. -/
def sharesKey (record other : TelemetryEnvelope) : Bool :=
  record.nodeId == other.nodeId &&
    (record.messageId == other.messageId || record.sequence == other.sequence)

/-- The records of a batch that are the first to claim their keys. -/
def freshRecords : (TelemetryEnvelope → Bool) → List TelemetryEnvelope → List TelemetryEnvelope
  | _, [] => []
  | taken, record :: rest =>
      if taken record then freshRecords taken rest
      else record :: freshRecords (fun other => taken other || sharesKey record other) rest

theorem mem_of_freshRecords {taken : TelemetryEnvelope → Bool} {batch : List TelemetryEnvelope}
    {record : TelemetryEnvelope} (member : record ∈ freshRecords taken batch) :
    record ∈ batch := by
  induction batch generalizing taken with
  | nil => simp [freshRecords] at member
  | cons head rest inductionHypothesis =>
      rw [freshRecords] at member
      split at member
      · exact List.mem_cons_of_mem _ (inductionHypothesis member)
      · rcases List.mem_cons.mp member with rfl | member
        · exact List.mem_cons_self
        · exact List.mem_cons_of_mem _ (inductionHypothesis member)

/-- Every record of the batch passes what the handler asks of it. -/
structure AllPass (refuses : Statement Digest → Bool) (db : Database Digest) (tenantId : Uuid)
    (batch : List TelemetryEnvelope) : Prop where
  submittable : ∀ record ∈ batch, Submittable refuses tenantId record
  admittable : ∀ record ∈ freshRecords (isTaken db tenantId) batch,
    Admittable refuses tenantId record

/-! ## One record -/

section Record

variable {refuses : Statement Digest → Bool} {environment : StatementEnvironment Digest}
variable {tenantId : Uuid} {record : TelemetryEnvelope} {db : Database Digest}

theorem execute_isOk_iff (raised : ∀ statement, environment.raises statement = refuses statement)
    (statement : Statement Digest) (constraints : Bool) (effect : Database Digest) :
    (∃ after, execute environment (some tenantId) tenantId statement constraints effect =
      .ok after) ↔ refuses statement = false ∧ constraints = true := by
  simp only [execute_ok_iff, rowPolicy_some, raised, true_and]
  constructor
  · rintro ⟨_, accepted, satisfied, _⟩
    exact ⟨accepted, satisfied⟩
  · rintro ⟨accepted, satisfied⟩
    exact ⟨effect, accepted, satisfied, rfl⟩

theorem materializeAlert_isOk_iff
    (raised : ∀ statement, environment.raises statement = refuses statement)
    (node : db.hasNode tenantId record.nodeId = true) :
    (∃ after, materializeAlert environment (some tenantId) tenantId record db = .ok after) ↔
      ∃ alert observed, checkAlert record = .ok (alert, observed) ∧
        record.payload.isObject = true ∧
        refuses (.upsertAlert tenantId record.nodeId alert record.payload) = false ∧
        (alert.state = "firing" →
          refuses (.insertDeliveries tenantId alert.instanceId) = false) := by
  unfold materializeAlert
  cases checked : checkAlert record with
  | error failure => simp [bind, Except.bind]
  | ok pair =>
      obtain ⟨alert, observed⟩ := pair
      have state := (checkAlert_ok record alert observed checked).2.2.2.1
      -- the upserted alert satisfies the foreign key of its deliveries
      have stored : ∀ row : AlertRow, row.isAlert tenantId alert.instanceId = true →
          ((Table.upsert (AlertRow.isAlert tenantId alert.instanceId) (AlertRow.transition row) row
            db.alerts).any (AlertRow.isAlert tenantId alert.instanceId)) = true :=
        fun row own => Table.any_upsert_self own fun _ same => same
      have own : (alert.row tenantId record.nodeId record.payload observed.timestamptz).isAlert
          tenantId alert.instanceId = true := by
        simp [AlertRow.isAlert, ProcessAlert.row]
      constructor
      · rintro ⟨after, ran⟩
        obtain ⟨_, same, ran⟩ := (bind_ok_iff _ _ _).mp ran
        cases same
        obtain ⟨upserted, written, ran⟩ := (bind_ok_iff _ _ _).mp ran
        obtain ⟨accepted, satisfied⟩ := (execute_isOk_iff raised _ _ _).mp ⟨_, written⟩
        simp only [Bool.and_eq_true] at satisfied
        refine ⟨alert, observed, rfl, satisfied.1.2, accepted, ?_⟩
        intro firing
        simp only [if_pos firing] at ran
        exact ((execute_isOk_iff raised _ _ _).mp ⟨_, ran⟩).1
      · rintro ⟨alert', observed', same, object, accepted, deliveries⟩
        cases same
        simp only [bind, Except.bind, upsertAlert]
        rw [(execute_ok_iff _ _ _ _ _ _ _).mpr ⟨by rw [raised, accepted], rowPolicy_some tenantId,
          by rw [state, object, node]; simp, rfl⟩]
        by_cases firing : alert.state = "firing"
        · simp only [if_pos firing, insertDeliveries]
          exact (execute_isOk_iff raised _ _ _).mpr
            ⟨deliveries firing, by rw [stored _ own, Bool.or_true]⟩
        · simp only [if_neg firing]
          exact ⟨_, rfl⟩

theorem admitRecord_isOk_iff
    (raised : ∀ statement, environment.raises statement = refuses statement)
    (node : db.hasNode tenantId record.nodeId = true)
    (message : db.telemetryMessages.any
      (MessageRow.isMessage tenantId record.nodeId record.messageId) = true) :
    (∃ after, admitRecord environment (some tenantId) tenantId record db = .ok after) ↔
      Admittable refuses tenantId record := by
  have job : ∀ after : Database Digest, after.telemetryMessages = db.telemetryMessages →
      ((∃ final, insertJob environment (some tenantId) tenantId record.nodeId record.messageId
        after = .ok final) ↔
          refuses (.insertJob tenantId record.nodeId record.messageId) = false) := by
    intro after same
    unfold insertJob
    rw [execute_isOk_iff raised, same, message, Bool.or_true]
    simp
  have plain : record.kind ≠ .health → record.kind ≠ .processAlert →
      (Admittable refuses tenantId record ↔
        refuses (.insertJob tenantId record.nodeId record.messageId) = false) := by
    intro other noAlert
    exact ⟨fun admittable => admittable.job other,
      fun accepted => ⟨fun same => absurd same noAlert, fun _ => accepted⟩⟩
  unfold admitRecord
  cases kind : record.kind with
  | health =>
      simp only [bind, Except.bind]
      exact ⟨fun _ => ⟨fun same => by simp [kind] at same, fun other => absurd kind other⟩,
        fun _ => ⟨db, rfl⟩⟩
  | processAlert =>
      simp only [bind_ok_iff]
      constructor
      · rintro ⟨after, materialized, ran, inserted⟩
        refine ⟨fun _ => (materializeAlert_isOk_iff raised node).mp ⟨_, ran⟩, fun _ => ?_⟩
        obtain ⟨alert, observed, _, _, rfl⟩ := materializeAlert_ok _ _ _ _ _ _ ran
        exact (job _ (by simp [alertEffect])).mp ⟨_, inserted⟩
      · intro admittable
        obtain ⟨materialized, ran⟩ :=
          (materializeAlert_isOk_iff raised node).mpr (admittable.alert kind)
        have same : materialized.telemetryMessages = db.telemetryMessages := by
          obtain ⟨alert, observed, _, _, rfl⟩ := materializeAlert_ok _ _ _ _ _ _ ran
          simp [alertEffect]
        obtain ⟨after, inserted⟩ := (job materialized same).mpr (admittable.job (by simp [kind]))
        exact ⟨after, materialized, ran, inserted⟩
  | processLifecycle | processSnapshot | systemSnapshot | causalGraph =>
      simp only [bind, Except.bind]
      rw [plain (by simp [kind]) (by simp [kind])]
      exact job db rfl

theorem insertMessage_eq
    (raised : ∀ statement, environment.raises statement = refuses statement)
    (node : db.hasNode tenantId record.nodeId = true) (row : MessageRow Digest) :
    insertMessage environment (some tenantId) tenantId record row db =
      if refuses (.insertMessage tenantId record) || !messageChecks record then .error .database
      else if isTaken db tenantId record then .ok none
      else .ok (some { db with telemetryMessages := db.telemetryMessages ++ [row] }) := by
  simp [insertMessage, raised, node, isTaken]

section Decide

variable [DecidableEq Digest]

theorem replayRecord_isOk (raised : ∀ statement, environment.raises statement = refuses statement)
    (select : ∀ tenantId nodeId messageId,
      refuses (.selectReplay tenantId nodeId messageId) = false)
    (update : ∀ tenantId nodeId messageId digest,
      refuses (.updateDigest tenantId nodeId messageId digest) = false) :
    ∃ result, replayRecord service environment (some tenantId) tenantId record db = .ok result := by
  unfold replayRecord
  rw [selectReplay_eq, raised, select]
  simp only [bind, Except.bind, Bool.false_eq_true, if_false]
  cases storedMessage db tenantId record.nodeId record.messageId with
  | none => exact ⟨_, rfl⟩
  | some stored =>
      cases digest : stored.envelopeDigest with
      | some value =>
          simp only [digest]
          split <;> exact ⟨_, rfl⟩
      | none =>
          simp only [digest]
          split
          · obtain ⟨after, written⟩ := (execute_isOk_iff raised
              (.updateDigest tenantId record.nodeId record.messageId
                (service.envelopeDigest record)) true (fillEffect service tenantId record db)).mpr
              ⟨update _ _ _ _, rfl⟩
            have ran : updateDigest environment (some tenantId) tenantId record.nodeId
                record.messageId (service.envelopeDigest record) db = .ok after := written
            rw [ran]
            exact ⟨_, rfl⟩
          · exact ⟨_, rfl⟩

variable (service) in
omit [DecidableEq Digest] in
/-- The message of an inserted record satisfies the foreign key of its job. -/
theorem admitInserted_isOk_iff
    (raised : ∀ statement, environment.raises statement = refuses statement)
    (node : db.hasNode tenantId record.nodeId = true) (observed : UnixTimestamp) :
    (∃ after, admitRecord environment (some tenantId) tenantId record { db with
      telemetryMessages := db.telemetryMessages ++
        [messageRow service environment tenantId record observed] } = .ok after) ↔
      Admittable refuses tenantId record :=
  admitRecord_isOk_iff raised node (by simp [MessageRow.isMessage, messageRow])

theorem insertEnvelope_eq
    (raised : ∀ statement, environment.raises statement = refuses statement)
    (node : db.hasNode tenantId record.nodeId = true) (observed : UnixTimestamp)
    (timestamp : UnixTimestamp.fromNanos record.observedAtUnixNanos = .ok observed) :
    insertEnvelope service environment (some tenantId) tenantId record db =
      if 2 ^ 63 ≤ record.sequence then .error (.invalid "sequence exceeds PostgreSQL bigint")
      else if refuses (.insertMessage tenantId record) || !messageChecks record then
        .error .database
      else if isTaken db tenantId record then
        replayRecord service environment (some tenantId) tenantId record db
      else do
        let db ← admitRecord environment (some tenantId) tenantId record { db with
          telemetryMessages := db.telemetryMessages ++
            [messageRow service environment tenantId record observed] }
        return (db, .accepted) := by
  unfold insertEnvelope
  split
  · rfl
  · rw [timestamp]
    simp only [bind, Except.bind, insertMessage_eq raised node]
    by_cases refused : (refuses (.insertMessage tenantId record) || !messageChecks record) = true
    · simp only [if_pos refused]
    · simp only [if_neg refused]
      by_cases taken : isTaken db tenantId record = true
      · simp only [if_pos taken]
      · simp only [if_neg taken]

theorem insertEnvelope_isOk_iff
    (raised : ∀ statement, environment.raises statement = refuses statement)
    (node : db.hasNode tenantId record.nodeId = true)
    (validated : validateRecord record = .ok ()) :
    (∃ result, insertEnvelope service environment (some tenantId) tenantId record db =
      .ok result) ↔
      Submittable refuses tenantId record ∧
        (isTaken db tenantId record = false → Admittable refuses tenantId record) ∧
        (isTaken db tenantId record = true →
          ∃ result, replayRecord service environment (some tenantId) tenantId record db =
            .ok result) := by
  obtain ⟨_, _, observed, timestamp⟩ := (validateRecord_ok_iff record).mp validated
  rw [insertEnvelope_eq raised node observed timestamp]
  by_cases overflow : 2 ^ 63 ≤ record.sequence
  · rw [if_pos overflow]
    constructor
    · rintro ⟨result, failed⟩
      contradiction
    · rintro ⟨submittable, _⟩
      have bigint := submittable.bigint
      omega
  · rw [if_neg overflow]
    by_cases refused : (refuses (.insertMessage tenantId record) || !messageChecks record) = true
    · rw [if_pos refused]
      constructor
      · rintro ⟨result, failed⟩
        contradiction
      · rintro ⟨submittable, _⟩
        simp [submittable.insert, submittable.checks] at refused
    · rw [if_neg refused]
      simp only [Bool.or_eq_true, not_or, Bool.not_eq_true, Bool.not_eq_false'] at refused
      have submittable : Submittable refuses tenantId record :=
        ⟨by omega, refused.2, refused.1⟩
      cases taken : isTaken db tenantId record with
      | true =>
          rw [if_pos rfl]
          exact ⟨fun ran => ⟨submittable, fun free => by contradiction, fun _ => ran⟩,
            fun facts => facts.2.2 rfl⟩
      | false =>
          rw [if_neg Bool.false_ne_true]
          rw [← admitInserted_isOk_iff service raised node observed]
          constructor
          · rintro ⟨result, ran⟩
            obtain ⟨after, admits, _⟩ := (bind_ok_iff _ _ _).mp ran
            exact ⟨submittable, fun _ => ⟨after, admits⟩, fun taken => by contradiction⟩
          · rintro ⟨_, admits, _⟩
            obtain ⟨after, admits⟩ := admits rfl
            exact ⟨_, (bind_ok_iff _ _ _).mpr ⟨after, admits, rfl⟩⟩

end Decide

end Record

/-! ## A batch -/

section Batch

variable {tenantId : Uuid} {record : TelemetryEnvelope} {db after : Database Digest}
variable {outcome : InsertOutcome}

/-- What a decided record leaves of the unique keys: a fresh one takes its own. -/
theorem RecordChange.takenKeys (change : RecordChange service tenantId db record after outcome)
    (other : TelemetryEnvelope) :
    isTaken after tenantId other =
      (isTaken db tenantId other ||
        (!isTaken db tenantId record && sharesKey record other)) := by
  have found : ∀ stored, storedMessage db tenantId record.nodeId record.messageId = some stored →
      isTaken db tenantId record = true := by
    intro stored found
    obtain ⟨member, key⟩ := storedMessage_some found
    exact List.any_eq_true.mpr ⟨stored, member, conflicts_of_messageKey key⟩
  cases change with
  | inserted environment observed checks bigint timestamp fresh node alert =>
      have free : isTaken db tenantId record = false := fresh
      have own : MessageRow.conflicts tenantId other
          (messageRow service environment tenantId record observed) = sharesKey record other := by
        simp [MessageRow.conflicts, messageRow, sharesKey]
      rw [free, isTaken, admitEffect_messages, List.any_append]
      simp [isTaken, own]
  | replayed stored found' same => simp [found stored found']
  | filled stored found' legacy same =>
      rw [found stored found', Bool.not_true, Bool.false_and, Bool.or_false]
      simp only [isTaken, fillEffect, Table.update, List.any_map]
      congr 1
      funext row
      simp only [Function.comp_apply]
      split <;> rfl
  | differs stored found' content legacy => simp [found stored found']
  | taken absent conflict =>
      have taken : isTaken db tenantId record = true := conflict
      simp [taken]

theorem freshRecords_cons (change : RecordChange service tenantId db record after outcome)
    (rest : List TelemetryEnvelope) :
    freshRecords (isTaken db tenantId) (record :: rest) =
      if isTaken db tenantId record then freshRecords (isTaken after tenantId) rest
      else record :: freshRecords (isTaken after tenantId) rest := by
  have keys : isTaken after tenantId = fun other =>
      isTaken db tenantId other || (!isTaken db tenantId record && sharesKey record other) :=
    funext change.takenKeys
  rw [freshRecords, keys]
  cases isTaken db tenantId record <;> simp

/-- Whether a loop comes through depends on these conditions only. -/
theorem allPass_cons {refuses : Statement Digest → Bool} {rest : List TelemetryEnvelope}
    (change : RecordChange service tenantId db record after outcome) :
    AllPass refuses db tenantId (record :: rest) ↔
      (Submittable refuses tenantId record ∧
        (isTaken db tenantId record = false → Admittable refuses tenantId record)) ∧
      AllPass refuses after tenantId rest := by
  have fresh := freshRecords_cons change rest
  constructor
  · rintro ⟨submittable, admittable⟩
    rw [fresh] at admittable
    refine ⟨⟨submittable record (by simp), ?_⟩, fun other member => submittable other
      (by simp [member]), ?_⟩
    · intro free
      exact admittable record (by simp [free])
    · intro other member
      exact admittable other (by split <;> simp [member])
  · rintro ⟨⟨submittable, admittable⟩, ⟨others, freshOthers⟩⟩
    refine ⟨?_, ?_⟩
    · intro other member
      rcases List.mem_cons.mp member with rfl | member
      · exact submittable
      · exact others other member
    · rw [fresh]
      intro other member
      split at member
      · exact freshOthers other member
      · rename_i free
        rcases List.mem_cons.mp member with rfl | member
        · exact admittable (by simpa using free)
        · exact freshOthers other member

variable [DecidableEq Digest]

/-- The loop comes through exactly when every record passes. -/
theorem ingestLoop_isOk_iff {refuses : Statement Digest → Bool}
    (environments : Nat → StatementEnvironment Digest)
    (raised : ∀ index statement, (environments index).raises statement = refuses statement)
    (select : ∀ tenantId nodeId messageId,
      refuses (.selectReplay tenantId nodeId messageId) = false)
    (update : ∀ tenantId nodeId messageId digest,
      refuses (.updateDigest tenantId nodeId messageId digest) = false)
    (batch : List TelemetryEnvelope) (index : Nat) (db : Database Digest)
    (start : IngestionAcknowledgement)
    (node : ∀ record ∈ batch, db.hasNode tenantId record.nodeId = true)
    (validated : ∀ record ∈ batch, validateRecord record = .ok ()) :
    (∃ result, ingestLoop service environments (some tenantId) tenantId batch index db start =
      .ok result) ↔ AllPass refuses db tenantId batch := by
  induction batch generalizing index db start with
  | nil => exact ⟨fun _ => ⟨by simp, by simp [freshRecords]⟩, fun _ => ⟨_, rfl⟩⟩
  | cons record rest inductionHypothesis =>
      have decided : (∃ result, insertEnvelope service (environments index) (some tenantId) tenantId
          record db = .ok result) ↔ Submittable refuses tenantId record ∧
            (isTaken db tenantId record = false → Admittable refuses tenantId record) := by
        rw [insertEnvelope_isOk_iff (raised index) (node record (by simp))
          (validated record (by simp))]
        exact ⟨fun facts => ⟨facts.1, facts.2.1⟩, fun facts => ⟨facts.1, facts.2, fun _ =>
          replayRecord_isOk (raised index) select update⟩⟩
      cases ran : insertEnvelope service (environments index) (some tenantId) tenantId record db with
      | error failure =>
          rw [ingestLoop, ran]
          constructor
          · rintro ⟨result, failed⟩
            contradiction
          rintro ⟨submittable, admittable⟩
          rw [ran] at decided
          obtain ⟨result, failed⟩ := decided.mpr ⟨submittable record (by simp), fun free =>
            admittable record (by simp [freshRecords, free])⟩
          contradiction
      | ok result =>
          obtain ⟨middle, outcome⟩ := result
          have change := insertEnvelope_ok service _ _ _ _ _ _ ran
          have nodes : ∀ other ∈ rest, middle.hasNode tenantId other.nodeId = true := by
            intro other member
            have steps : RecordSteps service tenantId [(record, outcome)] db middle :=
              .step record outcome [] db middle middle change (.done middle)
            rw [Database.hasNode, steps.nodes]
            exact node other (by simp [member])
          have later := inductionHypothesis (index + 1) middle (recordOutcome record start outcome)
            nodes fun other member => validated other (by simp [member])
          rw [allPass_cons change, ← later, ← decided, ingestLoop, ran]
          exact ⟨fun through => ⟨⟨_, rfl⟩, through⟩, fun through => through.2⟩

end Batch

/-! ## The accepted records -/

/-- The records of a batch that are accepted: those first to claim their keys,
and the replays of known ones. -/
def acceptedIn : (TelemetryEnvelope → Bool) → (TelemetryEnvelope → Bool) →
    List TelemetryEnvelope → List TelemetryEnvelope
  | _, _, [] => []
  | taken, known, record :: rest =>
      if taken record then
        if known record then record :: acceptedIn taken known rest
        else acceptedIn taken known rest
      else
        record :: acceptedIn (fun other => taken other || sharesKey record other)
          (fun other => known other || decide (other = record)) rest

def isKnown (accepted : List Acceptance) (tenantId : Uuid) (record : TelemetryEnvelope) : Bool :=
  decide ((⟨tenantId, record⟩ : Acceptance) ∈ accepted)

section Accepted

variable {tenantId : Uuid} {record : TelemetryEnvelope} {db after : Database Digest}
variable {outcome : InsertOutcome} {accepted : List Acceptance}

theorem RecordChange.isAccepted_iff (injective : Function.Injective service.envelopeDigest)
    (change : RecordChange service tenantId db record after outcome)
    (store : StoreInvariant service db accepted) :
    outcome = .accepted ↔
      isTaken db tenantId record = false ∨ isKnown accepted tenantId record = true := by
  have keys : ∀ stored, storedMessage db tenantId record.nodeId record.messageId = some stored →
      isTaken db tenantId record = true := by
    intro stored found
    obtain ⟨member, key⟩ := storedMessage_some found
    exact List.any_eq_true.mpr ⟨stored, member, conflicts_of_messageKey key⟩
  have again : isKnown accepted tenantId record = true → outcome = .accepted := by
    intro known
    exact (change.replay store (by simpa [isKnown] using known)).1
  cases change with
  | inserted environment observed checks bigint timestamp fresh node alert =>
      exact ⟨fun _ => Or.inl fresh, fun _ => rfl⟩
  | replayed stored found same =>
      refine ⟨fun _ => Or.inr ?_, fun _ => rfl⟩
      simpa [isKnown] using (store.replayed_accepted injective found (Or.inl same)).1
  | filled stored found legacy same =>
      refine ⟨fun _ => Or.inr ?_, fun _ => rfl⟩
      simpa [isKnown] using (store.replayed_accepted injective found (Or.inr ⟨legacy, same⟩)).1
  | differs stored found content legacy =>
      refine ⟨fun same => by contradiction, ?_⟩
      rintro (free | known)
      · rw [keys stored found] at free
        contradiction
      · exact again known
  | taken absent conflict =>
      refine ⟨fun same => by contradiction, ?_⟩
      rintro (free | known)
      · rw [show isTaken db tenantId record = true from conflict] at free
        contradiction
      · exact again known

theorem RecordSteps.acceptedOf_eq (injective : Function.Injective service.envelopeDigest)
    {decisions : List Decision} (steps : RecordSteps service tenantId decisions db after)
    (store : StoreInvariant service db accepted)
    (validated : ∀ decision ∈ decisions, validateRecord decision.1 = .ok ()) :
    acceptedOf decisions =
      acceptedIn (isTaken db tenantId) (isKnown accepted tenantId) (decisions.map Prod.fst) := by
  induction steps generalizing accepted with
  | done db => rfl
  | step record outcome rest db middle after change later inductionHypothesis =>
      have next := inductionHypothesis
        (change.store injective store (validated (record, outcome) (by simp)))
        fun decision member => validated decision (by simp [member])
      have decided := change.isAccepted_iff injective store
      have keys : isTaken middle tenantId = fun other => isTaken db tenantId other ||
          (!isTaken db tenantId record && sharesKey record other) := funext change.takenKeys
      rw [List.map_cons, acceptedIn]
      cases outcome with
      | accepted =>
          have known : isKnown (accepted ++ acceptancesOf tenantId [(record, .accepted)]) tenantId =
              fun other => isKnown accepted tenantId other || decide (other = record) := by
            funext other
            simp [isKnown, acceptancesOf, acceptedOf, isAccepted]
          have head : acceptedOf ((record, .accepted) :: rest) = record :: acceptedOf rest := rfl
          rw [head, next, known, keys]
          cases taken : isTaken db tenantId record with
          | false => simp
          | true =>
              have replay : isKnown accepted tenantId record = true := by
                simpa [taken] using decided
              have same : (fun other => isKnown accepted tenantId other || decide (other = record)) =
                  isKnown accepted tenantId := by
                funext other
                by_cases equal : other = record
                · simp [equal, replay]
                · simp [equal]
              simp [replay, same]
      | sequenceConflict | replayConflict =>
          simp only [reduceCtorEq, false_iff, not_or, Bool.not_eq_false, Bool.not_eq_true]
            at decided
          rw [show acceptancesOf tenantId [(record, _)] = [] from rfl, List.append_nil, keys] at next
          rw [show acceptedOf ((record, _) :: rest) = acceptedOf rest from rfl, next]
          simp [decided.1, decided.2]

/-- Records that are neither fresh nor known can be left out. -/
theorem acceptedIn_filter (sound : TelemetryEnvelope → Bool)
    (taken known : TelemetryEnvelope → Bool) (batch : List TelemetryEnvelope)
    (fresh : ∀ record ∈ freshRecords taken batch, sound record = true)
    (knownSound : ∀ record, known record = true → sound record = true) :
    acceptedIn taken known (batch.filter sound) = acceptedIn taken known batch := by
  induction batch generalizing taken known with
  | nil => rfl
  | cons record rest inductionHypothesis =>
      rw [List.filter_cons]
      rw [freshRecords] at fresh
      cases claimed : taken record with
      | true =>
          rw [claimed, if_pos rfl] at fresh
          have tail := inductionHypothesis taken known fresh knownSound
          by_cases soundRecord : sound record = true
          · simp only [soundRecord, if_true, acceptedIn, claimed, tail]
          · have unknown : known record = false := by
              rw [← Bool.not_eq_true]
              exact fun replay => soundRecord (knownSound record replay)
            simpa [soundRecord, acceptedIn, claimed, unknown] using tail
      | false =>
          simp only [claimed, Bool.false_eq_true, if_false] at fresh
          have soundRecord := fresh record (by simp)
          simp only [soundRecord, if_true, acceptedIn, claimed, Bool.false_eq_true, if_false]
          rw [inductionHypothesis _ _ fun other member => fresh other (by simp [member])]
          intro other replay
          rcases (Bool.or_eq_true _ _).mp replay with old | same
          · exact knownSound other old
          · rw [of_decide_eq_true same]
            exact soundRecord

theorem freshRecords_filter (sound taken : TelemetryEnvelope → Bool)
    (batch : List TelemetryEnvelope)
    (fresh : ∀ record ∈ freshRecords taken batch, sound record = true) :
    freshRecords taken (batch.filter sound) = freshRecords taken batch := by
  induction batch generalizing taken with
  | nil => rfl
  | cons record rest inductionHypothesis =>
      rw [List.filter_cons]
      rw [freshRecords] at fresh
      cases claimed : taken record with
      | true =>
          rw [claimed, if_pos rfl] at fresh
          have tail := inductionHypothesis taken fresh
          split
          · simp only [freshRecords, claimed, if_true, tail]
          · simp only [freshRecords, claimed, if_true, tail]
      | false =>
          simp only [claimed, Bool.false_eq_true, if_false] at fresh
          have soundRecord := fresh record (by simp)
          simp only [soundRecord, if_true, freshRecords, claimed, Bool.false_eq_true, if_false]
          rw [inductionHypothesis _ fun other member => fresh other (by simp [member])]

end Accepted

/-! ## The request -/

/-- No field of the record is out of range and its payload is what its kind
asks for. -/
def wellFormed (record : TelemetryEnvelope) : Bool :=
  decide (record.sequence < 2 ^ 63) && messageChecks record &&
    (record.kind != .processAlert ||
      match checkAlert record with
      | .ok _ => record.payload.isObject
      | .error _ => false)

theorem wellFormed_iff (record : TelemetryEnvelope) :
    wellFormed record = true ↔
      record.sequence < 2 ^ 63 ∧ messageChecks record = true ∧
        (record.kind = .processAlert → ∃ alert observed,
          checkAlert record = .ok (alert, observed) ∧ record.payload.isObject = true) := by
  unfold wellFormed
  rw [Bool.and_eq_true, Bool.and_eq_true, decide_eq_true_iff, and_assoc]
  refine and_congr_right fun _ => and_congr_right fun _ => ?_
  by_cases kind : record.kind = .processAlert
  · cases checkAlert record with
    | error failure => simp [kind]
    | ok pair =>
        obtain ⟨alert, observed⟩ := pair
        simp [kind]
  · simp [kind]

variable [DecidableEq Digest]

variable (service) in
/-- The answer decides every record, refuses the malformed ones and accepts what
it would accept without them. -/
structure DecidesEach (db : Database Digest) (request : Request Digest) (after : Database Digest)
    (acknowledgement : IngestionAcknowledgement) : Prop where
  answered : ingest service db request = (after, .ok acknowledgement)
  decided : acknowledgement.decidedIds.Perm (request.batch.map TelemetryEnvelope.messageId)
  refused : ∀ record ∈ request.batch, wellFormed record = false →
    record.messageId ∈ acknowledgement.rejectedRecords.map RejectedRecord.messageId
  apart : request.batch.filter wellFormed ≠ [] →
    ∃ after' acknowledgement',
      ingest service db { request with batch := request.batch.filter wellFormed } =
          (after', .ok acknowledgement') ∧
        acknowledgement'.acceptedMessageIds = acknowledgement.acceptedMessageIds

section Request

variable {db : Database Digest} {request : Request Digest}
variable {refuses : Statement Digest → Bool} {tenantId : Uuid} {nodeId : String}

/-- A request with such faults is answered exactly when its records pass, and
then accepts the records `acceptedIn` tells. -/
theorem ingest_isOk_iff (faults : ValueFaults refuses request.environment)
    (identity : requestIdentity service db request = some (tenantId, nodeId))
    (checked : validateBatch request.batch = .ok ())
    (ownNode : ∀ record ∈ request.batch, record.nodeId = nodeId) :
    (∃ after acknowledgement, ingest service db request = (after, .ok acknowledgement)) ↔
      AllPass refuses db tenantId request.batch := by
  obtain ⟨_, _, validated⟩ := (validateBatch_ok_iff _).mp checked
  obtain ⟨_, _, authenticated⟩ := Option.bind_eq_some_iff.mp identity
  have node : ∀ record ∈ request.batch, db.hasNode tenantId record.nodeId = true := by
    intro record member
    rw [ownNode record member]
    exact authenticate_hasNode authenticated
  have loop : (∃ result, ingestLoop service request.environment.record (some tenantId) tenantId
      request.batch 0 db {} = .ok result) ↔ AllPass refuses db tenantId request.batch :=
    ingestLoop_isOk_iff request.environment.record faults.record faults.select faults.update
      request.batch 0 db {} node validated
  constructor
  · rintro ⟨after, acknowledgement, answered⟩
    rw [← loop]
    obtain ⟨_, _, recorded, transacted⟩ := (ingest_ok_iff _ _ _ _ _).mp answered
    have same := transacted.identity
    rw [identity] at same
    cases same
    exact ⟨_, transacted.looped⟩
  · intro pass
    obtain ⟨⟨recorded, acknowledgement⟩, looped⟩ := loop.mpr pass
    obtain ⟨after, answered⟩ := ingest_of_loop faults.serving identity checked ownNode
      (fun record member => (pass.submittable record member).bigint) looped
    exact ⟨after, acknowledgement, answered⟩

theorem acceptedMessageIds_of_ingest (injective : Function.Injective service.envelopeDigest)
    {accepted : List Acceptance} (store : StoreInvariant service db accepted)
    (identity : requestIdentity service db request = some (tenantId, nodeId))
    {after : Database Digest} {acknowledgement : IngestionAcknowledgement}
    (answered : ingest service db request = (after, .ok acknowledgement)) :
    acknowledgement.acceptedMessageIds =
      (acceptedIn (isTaken db tenantId) (isKnown accepted tenantId) request.batch).map
        TelemetryEnvelope.messageId := by
  rcases ingest_cases service db request with ⟨_, failed⟩ | ⟨_, _, ran, ⟨committed⟩⟩
  · rw [failed] at answered
    cases answered
  · rw [ran] at answered
    cases answered
    have validated := committed.validated
    obtain ⟨ownTenant, ownNode, recorded, _, identity', _, records, steps, rfl, _⟩ := committed
    rw [identity] at identity'
    cases identity'
    rw [acknowledgementOf_fresh, ← records]
    exact congrArg (List.map _) (steps.acceptedOf_eq injective store validated)

omit [DecidableEq Digest] in
/-- What passes at the head of its keys is well formed. -/
theorem AllPass.wellFormed_of_fresh {batch : List TelemetryEnvelope}
    (pass : AllPass refuses db tenantId batch) :
    ∀ record ∈ freshRecords (isTaken db tenantId) batch, wellFormed record = true := by
  intro record member
  obtain ⟨bigint, checks, _⟩ := pass.submittable record (mem_of_freshRecords member)
  rw [wellFormed_iff]
  refine ⟨bigint, checks, fun kind => ?_⟩
  obtain ⟨alert, observed, checked, object, _⟩ := (pass.admittable record member).alert kind
  exact ⟨alert, observed, checked, object⟩

end Request

end Faults

/-! ## One bad record -/

theorem plainFaults : ValueFaults (fun _ => false)
    ({} : RequestEnvironment (TelemetryEnvelope ⊕ String)) :=
  ⟨⟨rfl, rfl, rfl, rfl, fun _ => rfl, rfl⟩, fun _ _ => rfl, fun _ _ _ => rfl, fun _ _ _ _ => rfl⟩

/-- An alert without any of its fields. -/
def emptyAlert : TelemetryEnvelope :=
  { plainRecord "nodea" 2 with
    kind := .processAlert
    payload := .object [] }

end SystemPilot.Cloud
