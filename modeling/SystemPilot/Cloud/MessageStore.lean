import Mathlib.Tactic
import SystemPilot.Library.Machine
import SystemPilot.Cloud.Answer

/-!
# The message store

The database beside the records it accepted.  `StoreInvariant` ties the two
together: every row of `telemetry_messages` is an accepted record, every
accepted record has its row, keys are unique, and each row has the reasoning
jobs its kind asks for.  Digests identify records, which is where the
injectivity of SHA-256 and of the encoding enters.
-/

set_option autoImplicit false

namespace SystemPilot.Cloud

open SystemPilot.Text
open SystemPilot.Json
open SystemPilot.Library
open SystemPilot.Telemetry

/-- A record the collector accepted for a tenant. -/
structure Acceptance where
  tenantId : Uuid
  record : TelemetryEnvelope
  deriving DecidableEq

/-- The acceptances among the decisions of one request. -/
def acceptancesOf (tenantId : Uuid) (decisions : List Decision) : List Acceptance :=
  (acceptedOf decisions).map fun record => ⟨tenantId, record⟩

/-- The database with everything it ever acknowledged as accepted. -/
structure Ingestion (Digest : Type) where
  db : Database Digest
  accepted : List Acceptance := []

section Store

variable {Bytes Digest : Type} (service : Service Bytes Digest)

/-- The row holds the record of an acceptance; its digest may still be missing. -/
structure RecordedAs (acceptance : Acceptance) (row : MessageRow Digest) : Prop where
  tenantId : row.tenantId = acceptance.tenantId
  nodeId : row.nodeId = acceptance.record.nodeId
  messageId : row.messageId = acceptance.record.messageId
  sequence : row.sequence = acceptance.record.sequence
  kind : row.kind = acceptance.record.kind.name
  envelope : row.envelope = acceptance.record.toValue
  digest : ∀ digest, row.envelopeDigest = some digest →
    digest = service.envelopeDigest acceptance.record

def messageKey (row : MessageRow Digest) : Uuid × String × String :=
  (row.tenantId, row.nodeId, row.messageId)

def sequenceKey (row : MessageRow Digest) : Uuid × String × Nat :=
  (row.tenantId, row.nodeId, row.sequence)

/-- The reasoning jobs about the message of a row. -/
def jobsOf (db : Database Digest) (row : MessageRow Digest) : List JobRow :=
  db.reasoningJobs.filter (isJobOf row.tenantId row.nodeId row.messageId)

/-- The checks a record passed before it was inserted. -/
structure Admissible (record : TelemetryEnvelope) : Prop where
  validated : validateRecord record = .ok ()
  checks : messageChecks record = true
  bigint : record.sequence < 2 ^ 63
  alert : record.kind = .processAlert →
    ∃ alert observed, checkAlert record = .ok (alert, observed) ∧ record.payload.isObject = true

/-- What holds between the database and the records it accepted. -/
structure StoreInvariant (db : Database Digest) (accepted : List Acceptance) : Prop where
  keys : Table.KeysUnique messageKey db.telemetryMessages
  sequences : Table.KeysUnique sequenceKey db.telemetryMessages
  rows : ∀ row ∈ db.telemetryMessages, ∃ acceptance ∈ accepted, RecordedAs service acceptance row
  kept : ∀ acceptance ∈ accepted, ∃ row ∈ db.telemetryMessages, RecordedAs service acceptance row
  admissible : ∀ acceptance ∈ accepted, Admissible acceptance.record
  jobs : ∀ row ∈ db.telemetryMessages,
    (jobsOf db row).length = if row.kind = TelemetryKind.health.name then 0 else 1
  owned : ∀ job ∈ db.reasoningJobs, ∃ row ∈ db.telemetryMessages,
    isJobOf row.tenantId row.nodeId row.messageId job = true

theorem StoreInvariant.empty (db : Database Digest) (messages : db.telemetryMessages = [])
    (jobs : db.reasoningJobs = []) : StoreInvariant service db [] := by
  constructor <;> simp [messages, jobs, Table.KeysUnique]

variable {service}

theorem RecordedAs.unique {first second : Acceptance} {row : MessageRow Digest}
    (left : RecordedAs service first row) (right : RecordedAs service second row) :
    first = second := by
  obtain ⟨firstTenant, firstRecord⟩ := first
  obtain ⟨secondTenant, secondRecord⟩ := second
  have tenants : firstTenant = secondTenant := left.tenantId.symm.trans right.tenantId
  have records : firstRecord = secondRecord :=
    TelemetryEnvelope.toValue_injective (left.envelope.symm.trans right.envelope)
  rw [tenants, records]

theorem isMessage_iff (tenantId : Uuid) (nodeId messageId : String) (row : MessageRow Digest) :
    row.isMessage tenantId nodeId messageId = true ↔
      messageKey row = (tenantId, nodeId, messageId) := by
  simp [MessageRow.isMessage, messageKey, and_assoc]

theorem isJobOf_iff (tenantId : Uuid) (nodeId messageId : String) (job : JobRow) :
    isJobOf tenantId nodeId messageId job = true ↔
      job.tenantId = tenantId ∧ job.subject.nodeId = nodeId ∧
        job.subject.messageId = messageId := by
  simp [isJobOf, and_assoc]

theorem conflicts_of_messageKey {tenantId : Uuid} {record : TelemetryEnvelope}
    {row : MessageRow Digest}
    (same : messageKey row = (tenantId, record.nodeId, record.messageId)) :
    row.conflicts tenantId record = true := by
  simp only [messageKey, Prod.mk.injEq] at same
  simp [MessageRow.conflicts, same.1, same.2.1, same.2.2]

theorem conflicts_of_sequenceKey {tenantId : Uuid} {record : TelemetryEnvelope}
    {row : MessageRow Digest}
    (same : sequenceKey row = (tenantId, record.nodeId, record.sequence)) :
    row.conflicts tenantId record = true := by
  simp only [sequenceKey, Prod.mk.injEq] at same
  simp [MessageRow.conflicts, same.1, same.2.1, same.2.2]

theorem storedMessage_some {db : Database Digest} {tenantId : Uuid} {nodeId messageId : String}
    {row : MessageRow Digest} (found : storedMessage db tenantId nodeId messageId = some row) :
    row ∈ db.telemetryMessages ∧ messageKey row = (tenantId, nodeId, messageId) :=
  ⟨List.mem_of_find?_eq_some found,
    (isMessage_iff _ _ _ _).mp (by simpa using List.find?_some found)⟩

theorem storedMessage_none {db : Database Digest} {tenantId : Uuid} {nodeId messageId : String}
    (absent : storedMessage db tenantId nodeId messageId = none) :
    ∀ row ∈ db.telemetryMessages, messageKey row ≠ (tenantId, nodeId, messageId) := by
  intro row member same
  have selects := List.find?_eq_none.mp absent row member
  exact selects ((isMessage_iff _ _ _ _).mpr same)

theorem StoreInvariant.storedMessage_of_mem {db : Database Digest} {accepted : List Acceptance}
    (store : StoreInvariant service db accepted) {row : MessageRow Digest}
    (member : row ∈ db.telemetryMessages) :
    storedMessage db row.tenantId row.nodeId row.messageId = some row := by
  cases found : storedMessage db row.tenantId row.nodeId row.messageId with
  | none => exact absurd rfl (storedMessage_none found row member)
  | some other =>
      obtain ⟨otherMember, same⟩ := storedMessage_some found
      rw [store.keys.eq_of_mem messageKey otherMember member same]

/-- A digest that matches identifies the stored record. -/
theorem RecordedAs.record_of_digest (injective : Function.Injective service.envelopeDigest)
    {acceptance : Acceptance} {row : MessageRow Digest}
    (recorded : RecordedAs service acceptance row) {record : TelemetryEnvelope}
    (same : row.envelopeDigest = some (service.envelopeDigest record)) :
    acceptance.record = record :=
  (injective (recorded.digest _ same)).symm

/-! ## One record -/

section Step

variable {db after : Database Digest} {accepted : List Acceptance} {tenantId : Uuid}
variable {record : TelemetryEnvelope} {outcome : InsertOutcome}

theorem messageKey_ne_of_fresh
    (fresh : db.telemetryMessages.any (MessageRow.conflicts tenantId record) = false) :
    ∀ row ∈ db.telemetryMessages,
      messageKey row ≠ (tenantId, record.nodeId, record.messageId) := by
  intro row member same
  have apart := List.any_eq_false.mp fresh row member
  exact apart (conflicts_of_messageKey same)

theorem sequenceKey_ne_of_fresh
    (fresh : db.telemetryMessages.any (MessageRow.conflicts tenantId record) = false) :
    ∀ row ∈ db.telemetryMessages,
      sequenceKey row ≠ (tenantId, record.nodeId, record.sequence) := by
  intro row member same
  have apart := List.any_eq_false.mp fresh row member
  exact apart (conflicts_of_sequenceKey same)

/-- A message that is not stored has no job. -/
theorem StoreInvariant.no_job (store : StoreInvariant service db accepted)
    {nodeId messageId : String} (absent : ∀ row ∈ db.telemetryMessages,
      messageKey row ≠ (tenantId, nodeId, messageId)) :
    ∀ job ∈ db.reasoningJobs, isJobOf tenantId nodeId messageId job = false := by
  intro job member
  rw [← Bool.not_eq_true, isJobOf_iff]
  intro ⟨tenant, node, message⟩
  obtain ⟨owner, ownerMember, owns⟩ := store.owned job member
  obtain ⟨ownerTenant, ownerNode, ownerMessage⟩ := (isJobOf_iff _ _ _ _).mp owns
  exact absent owner ownerMember
    (by rw [messageKey, ← ownerTenant, ← ownerNode, ← ownerMessage, tenant, node, message])

/-- A first insertion adds one row, and its job unless it is a health record. -/
theorem StoreInvariant.inserted (store : StoreInvariant service db accepted)
    (environment : StatementEnvironment Digest) (observed : UnixTimestamp)
    (admissible : Admissible record)
    (fresh : db.telemetryMessages.any (MessageRow.conflicts tenantId record) = false) :
    StoreInvariant service
      (admitEffect environment tenantId record { db with
        telemetryMessages := db.telemetryMessages ++
          [messageRow service environment tenantId record observed] })
      (accepted ++ [⟨tenantId, record⟩]) := by
  have otherKey := messageKey_ne_of_fresh fresh
  have recorded : RecordedAs service ⟨tenantId, record⟩
      (messageRow service environment tenantId record observed) :=
    ⟨rfl, rfl, rfl, rfl, rfl, rfl, fun digest same => (Option.some.inj same).symm⟩
  constructor
  · rw [admitEffect_messages]
    exact store.keys.append messageKey otherKey
  · rw [admitEffect_messages]
    exact store.sequences.append sequenceKey (sequenceKey_ne_of_fresh fresh)
  · rw [admitEffect_messages]
    intro row member
    rcases List.mem_append.mp member with old | new
    · obtain ⟨acceptance, acceptedBefore, holds⟩ := store.rows row old
      exact ⟨acceptance, List.mem_append_left _ acceptedBefore, holds⟩
    · rw [List.mem_singleton.mp new]
      exact ⟨_, List.mem_append_right _ (List.mem_singleton_self _), recorded⟩
  · rw [admitEffect_messages]
    intro acceptance member
    rcases List.mem_append.mp member with old | new
    · obtain ⟨row, rowMember, holds⟩ := store.kept acceptance old
      exact ⟨row, List.mem_append_left _ rowMember, holds⟩
    · rw [List.mem_singleton.mp new]
      exact ⟨_, List.mem_append_right _ (List.mem_singleton_self _), recorded⟩
  · intro acceptance member
    rcases List.mem_append.mp member with old | new
    · exact store.admissible acceptance old
    · rw [List.mem_singleton.mp new]
      exact admissible
  · rw [admitEffect_messages]
    intro row member
    simp only [jobsOf, admitEffect_jobs]
    rcases List.mem_append.mp member with old | new
    · have foreign : isJobOf row.tenantId row.nodeId row.messageId
          (jobRow environment tenantId record) = false := by
        rw [← Bool.not_eq_true, isJobOf_iff]
        rintro ⟨tenant, node, message⟩
        exact otherKey row old (by rw [messageKey, ← tenant, ← node, ← message]; rfl)
      have unchanged := store.jobs row old
      split
      · exact unchanged
      · rw [Table.filter_insertNew_of_foreign foreign]
        exact unchanged
    · rw [List.mem_singleton.mp new]
      have noJob := store.no_job otherKey
      have none : db.reasoningJobs.filter (isJobOf tenantId record.nodeId record.messageId) = [] :=
        List.filter_eq_nil_iff.mpr fun job jobMember => by simp [noJob job jobMember]
      have kind : (messageRow service environment tenantId record observed).kind =
          TelemetryKind.health.name ↔ record.kind = .health :=
        TelemetryKind.name_injective.eq_iff
      simp only [kind]
      by_cases health : record.kind = .health
      · rw [if_pos health, if_pos health]
        exact List.length_eq_zero_iff.mpr none
      · have free : db.reasoningJobs.any (isJobOf tenantId record.nodeId record.messageId) =
            false := by
          simpa using noJob
        have own : isJobOf tenantId record.nodeId record.messageId
            (jobRow environment tenantId record) = true := by
          simp [isJobOf, jobRow]
        rw [if_neg health, if_neg health, Table.insertNew, free]
        show ((db.reasoningJobs ++ [jobRow environment tenantId record]).filter
          (isJobOf tenantId record.nodeId record.messageId)).length = 1
        rw [List.filter_append, none, List.filter_singleton, own]
        rfl
  · rw [admitEffect_messages, admitEffect_jobs]
    intro job member
    have ownedBefore : ∀ job ∈ db.reasoningJobs,
        ∃ row ∈ db.telemetryMessages ++ [messageRow service environment tenantId record observed],
          isJobOf row.tenantId row.nodeId row.messageId job = true := by
      intro job old
      obtain ⟨row, rowMember, owns⟩ := store.owned job old
      exact ⟨row, List.mem_append_left _ rowMember, owns⟩
    split at member
    · exact ownedBefore job member
    · unfold Table.insertNew at member
      split at member
      · exact ownedBefore job member
      · rcases List.mem_append.mp member with old | new
        · exact ownedBefore job old
        · rw [List.mem_singleton.mp new]
          exact ⟨_, List.mem_append_right _ (List.mem_singleton_self _),
            by simp [isJobOf, jobRow, messageRow]⟩

theorem StoreInvariant.again (store : StoreInvariant service db accepted)
    {acceptance : Acceptance} (member : acceptance ∈ accepted) :
    StoreInvariant service db (accepted ++ [acceptance]) := by
  have same : ∀ other, other ∈ accepted ++ [acceptance] ↔ other ∈ accepted := by
    intro other
    rw [List.mem_append, List.mem_singleton]
    constructor
    · rintro (old | rfl)
      · exact old
      · exact member
    · exact Or.inl
  constructor
  · exact store.keys
  · exact store.sequences
  · intro row rowMember
    obtain ⟨holder, holderMember, holds⟩ := store.rows row rowMember
    exact ⟨holder, (same holder).mpr holderMember, holds⟩
  · exact fun other otherMember => store.kept other ((same other).mp otherMember)
  · exact fun other otherMember => store.admissible other ((same other).mp otherMember)
  · exact store.jobs
  · exact store.owned

/-- The stored row of a replay holds the replayed record. -/
theorem StoreInvariant.replayed_accepted (injective : Function.Injective service.envelopeDigest)
    (store : StoreInvariant service db accepted) {stored : MessageRow Digest}
    (found : storedMessage db tenantId record.nodeId record.messageId = some stored)
    (same : stored.envelopeDigest = some (service.envelopeDigest record) ∨
      (stored.envelopeDigest = none ∧ stored.envelope = record.toValue)) :
    (⟨tenantId, record⟩ : Acceptance) ∈ accepted ∧ RecordedAs service ⟨tenantId, record⟩ stored := by
  obtain ⟨member, key⟩ := storedMessage_some found
  obtain ⟨acceptance, acceptedBefore, holds⟩ := store.rows stored member
  have tenant : acceptance.tenantId = tenantId := by
    simp only [messageKey, Prod.mk.injEq] at key
    rw [← holds.tenantId, key.1]
  have sameRecord : acceptance.record = record := by
    rcases same with digest | ⟨_, envelope⟩
    · exact holds.record_of_digest injective digest
    · exact TelemetryEnvelope.toValue_injective (holds.envelope.symm.trans envelope)
  have whole : acceptance = ⟨tenantId, record⟩ := by
    rw [← tenant, ← sameRecord]
  rw [← whole]
  exact ⟨acceptedBefore, holds⟩

/-- Filling in a missing digest changes no column but that one. -/
theorem StoreInvariant.filled (injective : Function.Injective service.envelopeDigest)
    (store : StoreInvariant service db accepted) {stored : MessageRow Digest}
    (found : storedMessage db tenantId record.nodeId record.messageId = some stored)
    (legacy : stored.envelopeDigest = none) (same : stored.envelope = record.toValue) :
    StoreInvariant service (fillEffect service tenantId record db) accepted := by
  obtain ⟨acceptedBefore, holds⟩ :=
    store.replayed_accepted injective found (Or.inr ⟨legacy, same⟩)
  obtain ⟨storedMember, storedKey⟩ := storedMessage_some found
  -- the update selects the stored row only
  have selected : ∀ row ∈ db.telemetryMessages,
      (row.isMessage tenantId record.nodeId record.messageId && row.envelopeDigest.isNone) = true →
        row = stored := by
    intro row member selects
    rw [Bool.and_eq_true, isMessage_iff] at selects
    exact store.keys.eq_of_mem messageKey member storedMember (selects.1.trans storedKey.symm)
  have recorded : ∀ acceptance row, row ∈ db.telemetryMessages →
      RecordedAs service acceptance row →
      ∃ row' ∈ (fillEffect service tenantId record db).telemetryMessages,
        RecordedAs service acceptance row' := by
    intro acceptance row member holdsRow
    by_cases selects :
        (row.isMessage tenantId record.nodeId record.messageId && row.envelopeDigest.isNone) = true
    · have isStored := selected row member selects
      subst isStored
      have whole := holdsRow.unique holds
      subst whole
      refine ⟨{ row with envelopeDigest := some (service.envelopeDigest record) },
        Table.mem_update.mpr (Or.inr ⟨row, member, selects, rfl⟩), ?_⟩
      exact ⟨holds.tenantId, holds.nodeId, holds.messageId, holds.sequence, holds.kind,
        holds.envelope, fun digest found => (Option.some.inj found).symm⟩
    · exact ⟨row, Table.mem_update.mpr (Or.inl ⟨member, (Bool.not_eq_true _).mp selects⟩), holdsRow⟩
  have origin : ∀ row ∈ (fillEffect service tenantId record db).telemetryMessages,
      ∃ old ∈ db.telemetryMessages, messageKey old = messageKey row ∧ old.kind = row.kind ∧
        ∀ acceptance, RecordedAs service acceptance old → RecordedAs service acceptance row := by
    intro row member
    rcases Table.mem_update.mp member with ⟨old, _⟩ | ⟨old, oldMember, selects, rfl⟩
    · exact ⟨row, old, rfl, rfl, fun _ holdsRow => holdsRow⟩
    · refine ⟨old, oldMember, rfl, rfl, ?_⟩
      intro acceptance holdsOld
      have isStored := selected old oldMember selects
      subst isStored
      have whole := holdsOld.unique holds
      subst whole
      exact ⟨holds.tenantId, holds.nodeId, holds.messageId, holds.sequence, holds.kind,
        holds.envelope, fun digest found => (Option.some.inj found).symm⟩
  constructor
  · exact store.keys.update messageKey fun _ => rfl
  · exact store.sequences.update sequenceKey fun _ => rfl
  · intro row member
    obtain ⟨old, oldMember, _, _, carries⟩ := origin row member
    obtain ⟨acceptance, acceptedMember, holdsOld⟩ := store.rows old oldMember
    exact ⟨acceptance, acceptedMember, carries acceptance holdsOld⟩
  · intro acceptance member
    obtain ⟨row, rowMember, holdsRow⟩ := store.kept acceptance member
    exact recorded acceptance row rowMember holdsRow
  · exact store.admissible
  · intro row member
    obtain ⟨old, oldMember, key, kind, _⟩ := origin row member
    simp only [messageKey, Prod.mk.injEq] at key
    have jobs := store.jobs old oldMember
    simp only [jobsOf, key.1, key.2.1, key.2.2, kind] at jobs
    exact jobs
  · intro job member
    obtain ⟨owner, ownerMember, owns⟩ := store.owned job member
    by_cases selects : (owner.isMessage tenantId record.nodeId record.messageId &&
        owner.envelopeDigest.isNone) = true
    · exact ⟨_, Table.mem_update.mpr (Or.inr ⟨owner, ownerMember, selects, rfl⟩), owns⟩
    · exact ⟨owner, Table.mem_update.mpr (Or.inl ⟨ownerMember, (Bool.not_eq_true _).mp selects⟩), owns⟩

/-- The step lemma for one record. -/
theorem RecordChange.store (injective : Function.Injective service.envelopeDigest)
    (change : RecordChange service tenantId db record after outcome)
    (store : StoreInvariant service db accepted) (validated : validateRecord record = .ok ()) :
    StoreInvariant service after (accepted ++ acceptancesOf tenantId [(record, outcome)]) := by
  cases change with
  | inserted environment observed checks bigint timestamp fresh node alert =>
      exact store.inserted environment observed ⟨validated, checks, bigint, alert⟩ fresh
  | replayed stored found same =>
      exact store.again (store.replayed_accepted injective found (Or.inl same)).1
  | filled stored found legacy same =>
      exact (store.filled injective found legacy same).again
        (store.replayed_accepted injective found (Or.inr ⟨legacy, same⟩)).1
  | differs stored found content legacy =>
      rw [show acceptancesOf tenantId [(record, InsertOutcome.replayConflict)] = [] from rfl,
        List.append_nil]
      exact store
  | taken absent conflict =>
      rw [show acceptancesOf tenantId [(record, InsertOutcome.sequenceConflict)] = [] from rfl,
        List.append_nil]
      exact store

end Step

/-! ## Batches and requests -/

theorem acceptancesOf_cons (tenantId : Uuid) (decision : Decision) (rest : List Decision) :
    acceptancesOf tenantId (decision :: rest) =
      acceptancesOf tenantId [decision] ++ acceptancesOf tenantId rest := by
  obtain ⟨record, outcome⟩ := decision
  cases outcome <;> rfl

/-- The run lemma for the records of a batch. -/
theorem RecordSteps.store (injective : Function.Injective service.envelopeDigest)
    {tenantId : Uuid} {decisions : List Decision} {db after : Database Digest}
    {accepted : List Acceptance}
    (steps : RecordSteps service tenantId decisions db after)
    (store : StoreInvariant service db accepted)
    (validated : ∀ decision ∈ decisions, validateRecord decision.1 = .ok ()) :
    StoreInvariant service after (accepted ++ acceptancesOf tenantId decisions) := by
  induction steps generalizing accepted with
  | done db =>
      rw [show acceptancesOf tenantId [] = [] from rfl, List.append_nil]
      exact store
  | step record outcome rest db middle after change later inductionHypothesis =>
      rw [acceptancesOf_cons, ← List.append_assoc]
      exact inductionHypothesis
        (change.store injective store (validated (record, outcome) (by simp)))
        fun decision member => validated decision (by simp [member])

theorem validateBatch_ok_iff (batch : List TelemetryEnvelope) :
    validateBatch batch = .ok () ↔
      batch ≠ [] ∧ batch.length ≤ maxBatch ∧
        ∀ record ∈ batch, validateRecord record = .ok () := by
  have loop : ∀ records : List TelemetryEnvelope, records.forM validateRecord = .ok () ↔
      ∀ record ∈ records, validateRecord record = .ok () := by
    intro records
    induction records with
    | nil => simp [pure, Except.pure]
    | cons record rest inductionHypothesis =>
        show (validateRecord record >>= fun _ => rest.forM validateRecord) = .ok () ↔ _
        rw [bind_ok_iff, List.forall_mem_cons, ← inductionHypothesis]
        constructor
        · rintro ⟨_, head, tail⟩
          exact ⟨head, tail⟩
        · rintro ⟨head, tail⟩
          exact ⟨(), head, tail⟩
  unfold validateBatch
  split
  · rename_i refused
    refine ⟨fun accepted => by contradiction, ?_⟩
    rintro ⟨nonempty, bound, _⟩
    rcases refused with empty | large
    · exact absurd (List.isEmpty_iff.mp empty) nonempty
    · omega
  · rename_i sized
    rw [not_or, not_lt, List.isEmpty_iff] at sized
    rw [loop]
    exact ⟨fun all => ⟨sized.1, sized.2, all⟩, fun facts => facts.2.2⟩

theorem StoreInvariant.batchState {db : Database Digest} {accepted : List Acceptance}
    (store : StoreInvariant service db accepted) (environment : StatementEnvironment Digest)
    (tenantId : Uuid) (nodeId : String) (highest : Option Nat) :
    StoreInvariant service (batchStateEffect environment tenantId nodeId highest db) accepted :=
  ⟨store.keys, store.sequences, store.rows, store.kept, store.admissible, store.jobs, store.owned⟩

variable [DecidableEq Digest]

variable (service) in
/-- One request on the database and its acceptances. -/
def ingestStep (state : Ingestion Digest) (request : Request Digest) : Ingestion Digest :=
  match ingest service state.db request, requestIdentity service state.db request with
  | (db, .ok _), some (tenantId, _) => {
      db
      accepted := state.accepted ++
        acceptancesOf tenantId (requestDecisions service state.db request) }
  | (db, _), _ => { state with db }

variable (service) in
/-- A request leaves everything as it was, or commits its decisions. -/
theorem ingestStep_cases (state : Ingestion Digest) (request : Request Digest) :
    (∃ failure, ingest service state.db request = (state.db, .error failure) ∧
      ingestStep service state request = state) ∨
    ∃ after acknowledgement,
      ingest service state.db request = (after, .ok acknowledgement) ∧
      ∃ committed : Committed service state.db request after acknowledgement,
        ingestStep service state request = {
          db := after
          accepted := state.accepted ++
            acceptancesOf committed.tenantId (requestDecisions service state.db request) } := by
  rcases ingest_cases service state.db request with
    ⟨failure, failed⟩ | ⟨after, acknowledgement, ran, ⟨committed⟩⟩
  · refine Or.inl ⟨failure, failed, ?_⟩
    unfold ingestStep
    rw [failed]
  · refine Or.inr ⟨after, acknowledgement, ran, committed, ?_⟩
    unfold ingestStep
    rw [ran, committed.identity]

theorem Committed.validated {db after : Database Digest} {request : Request Digest}
    {acknowledgement : IngestionAcknowledgement}
    (committed : Committed service db request after acknowledgement) :
    ∀ decision ∈ requestDecisions service db request, validateRecord decision.1 = .ok () := by
  intro decision member
  obtain ⟨_, _, validated⟩ := (validateBatch_ok_iff _).mp committed.checked
  apply validated
  rw [← committed.records]
  exact List.mem_map_of_mem member

/-- The step lemma for a request. -/
theorem ingestStep_store (injective : Function.Injective service.envelopeDigest)
    (state : Ingestion Digest) (request : Request Digest)
    (store : StoreInvariant service state.db state.accepted) :
    StoreInvariant service (ingestStep service state request).db
      (ingestStep service state request).accepted := by
  rcases ingestStep_cases service state request with
    ⟨_, _, unchanged⟩ | ⟨after, acknowledgement, _, committed, stepped⟩
  · rw [unchanged]
    exact store
  · rw [stepped]
    have recorded := committed.steps.store injective store committed.validated
    have stated := recorded.batchState request.environment.batchState committed.tenantId
      committed.nodeId acknowledgement.highestAcceptedSequence
    rw [← committed.committed] at stated
    exact stated

/-- The run lemma: the store stays consistent over every history of requests. -/
theorem run_store (injective : Function.Injective service.envelopeDigest)
    (start : Ingestion Digest) (requests : List (Request Digest))
    (store : StoreInvariant service start.db start.accepted) :
    let reached := Machine.run (ingestStep service) start requests
    StoreInvariant service reached.db reached.accepted :=
  Machine.run_invariant_always (ingestStep service)
    (fun state => StoreInvariant service state.db state.accepted)
    (fun state request => ingestStep_store injective state request) start requests store

end Store

end SystemPilot.Cloud
