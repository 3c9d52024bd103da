import Mathlib.Tactic
import SystemPilot.Agent.SpoolLedger
import SystemPilot.Delivery.Network

/-!
# No record is lost between agent and collector

The invariant `Sound` ties an answer in flight to the acceptances the collector
committed for it, and the worker's attempt to the request it sent.  From it a
record file leaves the agent's spool only when its record is a committed row,
and the collector never stores two rows for one message.
-/

set_option autoImplicit false

namespace SystemPilot.Delivery

open SystemPilot.Library
open SystemPilot.Telemetry
open SystemPilot.Spool
open SystemPilot.Agent
open SystemPilot.Cloud

section Delivery

variable {Bytes Digest : Type}

/-- The collector decided every record of a batch and committed what it
accepted. -/
structure Backed (collector : Ingestion Digest) (batch : List TelemetryEnvelope)
    (acknowledgement : IngestionAcknowledgement) : Prop where
  decided : ∃ decisions : List Decision,
    decisions.map Prod.fst = batch ∧ acknowledgement = acknowledgementOf decisions {} ∧
      ∀ record ∈ acceptedOf decisions,
        ∃ tenantId, (⟨tenantId, record⟩ : Acceptance) ∈ collector.accepted

/-- What holds of the system between any two steps. -/
structure Sound (codec : Codec Bytes) (service : Service Bytes Digest)
    (system : System Bytes Digest) : Prop where
  coherent : Coherent codec system.agent
  store : StoreInvariant service system.collector.db system.collector.accepted
  answers : ∀ position acknowledgement,
    (position, Response.answered acknowledgement) ∈ system.answers →
      ∃ request, system.sent[position]? = some request ∧
        Backed system.collector request.batch acknowledgement
  nonempty : ∀ answer ∈ system.answers, answer.2 ≠ .empty
  waiting : ∀ position, system.waiting = some position →
    ∃ request attempt, system.sent[position]? = some request ∧
      system.agent.worker = .exporting request.batch attempt

variable {codec : Codec Bytes} {service : Service Bytes Digest}

/-- A system before its first request: the agent has a well-formed spool, the
collector a consistent store. -/
theorem Sound.start (system : System Bytes Digest) (coherent : Coherent codec system.agent)
    (store : StoreInvariant service system.collector.db system.collector.accepted)
    (answers : system.answers = []) (waiting : system.waiting = none) :
    Sound codec service system := by
  refine ⟨coherent, store, ?_, ?_, ?_⟩
  · simp [answers]
  · simp [answers]
  · simp [waiting]

theorem Backed.mono {collector after : Ingestion Digest} {batch : List TelemetryEnvelope}
    {acknowledgement : IngestionAcknowledgement}
    (backed : Backed collector batch acknowledgement)
    (grows : ∀ acceptance ∈ collector.accepted, acceptance ∈ after.accepted) :
    Backed after batch acknowledgement := by
  obtain ⟨decisions, records, answer, accepted⟩ := backed.decided
  refine ⟨decisions, records, answer, ?_⟩
  intro record member
  obtain ⟨tenantId, old⟩ := accepted record member
  exact ⟨tenantId, grows _ old⟩

/-- The records a valid answer accepts were accepted by the collector. -/
theorem Backed.accepted_of_valid {collector : Ingestion Digest}
    {batch : List TelemetryEnvelope} {acknowledgement : IngestionAcknowledgement}
    (backed : Backed collector batch acknowledgement)
    (valid : acknowledgement.validate batch = .ok ()) (record : TelemetryEnvelope)
    (member : record ∈ acknowledgement.acceptedRecords batch) :
    ∃ tenantId, (⟨tenantId, record⟩ : Acceptance) ∈ collector.accepted := by
  obtain ⟨decisions, rfl, rfl, accepted⟩ := backed.decided
  -- a valid answer decides no identifier twice, so the identifiers of the batch are distinct
  have once := ((IngestionAcknowledgement.validate_ok_iff _ _).mp valid).distinct
  rw [(decidedIds_perm decisions).nodup_iff] at once
  rw [acceptedRecords_acknowledgementOf decisions once] at member
  exact accepted record member

variable [DecidableEq Digest]

/-! ## The step lemmas -/

theorem ingestStep_grows (collector : Ingestion Digest) (request : Request Digest) :
    ∀ acceptance ∈ collector.accepted,
      acceptance ∈ (ingestStep service collector request).accepted := by
  intro acceptance member
  rcases ingestStep_cases service collector request with
    ⟨_, _, unchanged⟩ | ⟨_, _, _, _, stepped⟩
  · rw [unchanged]
    exact member
  · rw [stepped]
    exact List.mem_append_left _ member

/-- The answer of the collector is backed by what it committed for it. -/
theorem ingestStep_backed (collector : Ingestion Digest) (request : Request Digest)
    (acknowledgement : IngestionAcknowledgement)
    (answered : (ingest service collector.db request).2 = .ok acknowledgement) :
    Backed (ingestStep service collector request) request.batch acknowledgement := by
  rcases ingestStep_cases service collector request with
    ⟨failure, failed, _⟩ | ⟨after, answer, ran, committed, stepped⟩
  · rw [failed] at answered
    contradiction
  · rw [ran] at answered
    cases answered
    rw [stepped]
    refine ⟨requestDecisions service collector.db request, committed.records, committed.answer, ?_⟩
    intro record member
    exact ⟨committed.tenantId, List.mem_append_right _ (List.mem_map_of_mem member)⟩

/-- A request the collector handles leaves the agent alone. -/
theorem Sound.ingested (injective : Function.Injective service.envelopeDigest)
    {system : System Bytes Digest} (sound : Sound codec service system)
    (request : Request Digest) :
    Sound codec service
      { system with collector := ingestStep service system.collector request } := by
  refine ⟨sound.coherent, ingestStep_store injective _ _ sound.store, ?_, sound.nonempty,
    sound.waiting⟩
  intro position acknowledgement member
  obtain ⟨sent, found, backed⟩ := sound.answers position acknowledgement member
  exact ⟨sent, found, backed.mono (ingestStep_grows system.collector request)⟩

theorem Sound.arrives (injective : Function.Injective service.envelopeDigest)
    {system : System Bytes Digest} (sound : Sound codec service system) (position : Nat)
    (environment : RequestEnvironment Digest) :
    Sound codec service (system.arrives service position environment) := by
  unfold System.arrives
  split
  · exact sound
  · rename_i authorization batch found
    have handled := sound.ingested injective ⟨authorization, batch, environment⟩
    refine ⟨handled.coherent, handled.store, ?_, ?_, handled.waiting⟩
    · intro answered acknowledgement member
      rcases List.mem_append.mp member with old | new
      · exact handled.answers answered acknowledgement old
      · obtain ⟨rfl, same⟩ := Prod.mk.inj (List.mem_singleton.mp new)
        refine ⟨_, found, ingestStep_backed _ ⟨authorization, batch, environment⟩ _ ?_⟩
        cases result : (ingest service system.collector.db ⟨authorization, batch, environment⟩).2
            with
        | ok value =>
            rw [result] at same
            cases same
            rfl
        | error failure =>
            rw [result] at same
            contradiction
    · intro answer member
      rcases List.mem_append.mp member with old | new
      · exact handled.nonempty answer old
      · rw [List.mem_singleton.mp new]
        cases (ingest service system.collector.db ⟨authorization, batch, environment⟩).2 with
        | ok value => simp [Response.ofResult]
        | error failure => simp [Response.ofResult]

/-- The worker's attempt over a batch outlives every local step it survives. -/
theorem local_worker (agent : AgentState Bytes) (event : AgentEvent)
    (ownStep : isLocal event = true) (batch other : List TelemetryEnvelope)
    (attempt next : Nat) (exporting : agent.worker = .exporting batch attempt)
    (continued : (agentStep codec agent event).1.worker = .exporting other next) :
    other = batch := by
  have change := agentStep_change codec agent event
  generalize (agentStep codec agent event).1 = after at change continued
  generalize (agentStep codec agent event).2 = effects at change
  cases change with
  | kept records quarantine counter drafts worker =>
      obtain ⟨earlier, exported⟩ := worker other next continued
      rw [exporting] at exported
      cases exported
      rfl
  | reserved moment observed kind payload current asked records quarantine counter advanced
      bound drafts worker =>
      rw [worker, exporting] at continued
      cases continued
      rfl
  | appended envelope index clock draft valid fresh files drafts worker =>
      rw [worker, exporting] at continued
      cases continued
      rfl
  | quarantined moment crashAfter asked waiting moves drafts worker =>
      rw [exporting] at waiting
      contradiction
  | removed batch' attempt' acknowledgement records moment crashAfter answered exporting' valid
      accepted removes drafts worker =>
      rw [answered] at ownStep
      contradiction

omit [DecidableEq Digest] in
theorem Sound.acts (identity : KeepsIdentity codec) {system : System Bytes Digest}
    (sound : Sound codec service system) (event : LocalEvent) :
    Sound codec service (system.acts codec event.1) := by
  have coherent := (agentStep_change codec system.agent event.1).coherent identity sound.coherent
  have same : ∃ sink, system.acts codec event.1 = { system with
      agent := (agentStep codec system.agent event.1).1
      sink
      waiting := (system.withAgent (agentStep codec system.agent event.1).1).waiting } := by
    unfold System.acts
    split
    · exact ⟨_, rfl⟩
    · exact ⟨_, rfl⟩
  obtain ⟨sink, same⟩ := same
  rw [same]
  refine ⟨coherent, sound.store, sound.answers, sound.nonempty, ?_⟩
  intro position waits
  simp only [System.withAgent] at waits
  split at waits
  · contradiction
  · rename_i batch attempt exporting
    obtain ⟨request, earlier, found, exported⟩ := sound.waiting position waits
    have unchanged := local_worker system.agent event.1 event.2 _ _ _ _ exported exporting
    exact ⟨request, attempt, found, by rw [← unchanged]; exact exporting⟩

omit [DecidableEq Digest] in
theorem Sound.exports {system : System Bytes Digest} (sound : Sound codec service system) :
    Sound codec service system.exports := by
  unfold System.exports
  split
  · rename_i batch attempt exporting free
    refine ⟨sound.coherent, sound.store, ?_, sound.nonempty, ?_⟩
    · intro position acknowledgement member
      obtain ⟨request, found, backed⟩ := sound.answers position acknowledgement member
      exact ⟨request, List.getElem?_append_left
        (List.getElem?_eq_some_iff.mp found).1 ▸ found, backed⟩
    · intro position waits
      cases waits
      exact ⟨⟨system.sink.authorization, batch⟩, attempt, by simp, exporting⟩
  · exact sound

omit [DecidableEq Digest] in
theorem Sound.finish (identity : KeepsIdentity codec) {system : System Bytes Digest}
    (sound : Sound codec service system) (result : AppResult IngestionAcknowledgement)
    (moment : Moment) (crashAfter : Option Nat) :
    Sound codec service (system.finish codec result moment crashAfter) :=
  ⟨(agentStep_change codec system.agent _).coherent identity sound.coherent, sound.store,
    sound.answers, sound.nonempty, by simp [System.finish]⟩

/-- Every step of the system keeps it sound. -/
theorem systemStep_sound (identity : KeepsIdentity codec)
    (injective : Function.Injective service.envelopeDigest) (system : System Bytes Digest)
    (event : Event Digest) (sound : Sound codec service system) :
    Sound codec service (systemStep codec service system event) := by
  cases event with
  | acts event => exact sound.acts identity event
  | exports => exact sound.exports
  | arrives request environment => exact sound.arrives injective request environment
  | others request => exact sound.ingested injective request
  | delivers answer moment crashAfter =>
      show Sound codec service (system.delivers codec answer moment crashAfter)
      unfold System.delivers
      split
      · split
        · exact sound.finish identity _ moment crashAfter
        · exact sound
      · exact sound
  | fails failure moment =>
      show Sound codec service (system.fails codec failure moment)
      unfold System.fails
      split
      · exact sound.finish identity _ moment none
      · exact sound
  | collectorRestarts =>
      exact ⟨sound.coherent, sound.store, by simp [systemStep], by simp [systemStep],
        sound.waiting⟩

/-! ## What leaves the spool -/

/-- A row the collector committed holds exactly the record of a file. -/
def CommittedRow (codec : Codec Bytes) (db : Database Digest) (sequence : Nat)
    (file : StoredFile Bytes) : Prop :=
  ∃ record, decodeRecord codec file.content = some record ∧ record.sequence = sequence ∧
    ∃ row ∈ db.telemetryMessages, row.nodeId = record.nodeId ∧
      row.messageId = record.messageId ∧ row.envelope = record.toValue

/-- A record file leaves the records directory into the quarantine of a worker
that could not decode it, or because an answer arrived and the collector has
committed its record. -/
def LeavesCommitted (codec : Codec Bytes) (service : Service Bytes Digest)
    (system : System Bytes Digest) (event : Event Digest) : Prop :=
  let after := systemStep codec service system event
  ∀ (sequence : Nat) (file : StoredFile Bytes),
    system.agent.files.records[recordName sequence]? = some file →
    after.agent.files.records[recordName sequence]? = none →
      (decodeRecord codec file.content = none ∧
        after.agent.files.quarantine[recordName sequence]? = some file ∧
        ∃ moment crashAfter, event = .acts ⟨.snapshot moment crashAfter, rfl⟩) ∨
      ((∃ answer moment crashAfter, event = .delivers answer moment crashAfter) ∧
        CommittedRow codec system.collector.db sequence file)

omit [DecidableEq Digest] in
/-- A file leaves the records directory in a `pending` that could not decode it,
or through a valid answer that accepts a record with its sequence. -/
theorem AgentChange.leaves {agent after : AgentState Bytes} {event : AgentEvent}
    {effects : List Effect} (change : AgentChange codec agent event after effects)
    (sequence : Nat) (file : StoredFile Bytes)
    (present : agent.files.records[recordName sequence]? = some file)
    (absent : after.files.records[recordName sequence]? = none) :
    (decodeRecord codec file.content = none ∧
      after.files.quarantine[recordName sequence]? = some file ∧
      ∃ moment crashAfter, event = .snapshot moment crashAfter) ∨
    ∃ acknowledgement moment crashAfter batch attempt record,
      event = .answer (.ok acknowledgement) moment crashAfter ∧
        agent.worker = .exporting batch attempt ∧ acknowledgement.validate batch = .ok () ∧
        record ∈ acknowledgement.acceptedRecords batch ∧ record.sequence = sequence := by
  cases change with
  | kept records quarantine counter drafts worker =>
      rw [lookup_of_kept records _ (isRecordName_recordName _), present] at absent
      contradiction
  | reserved moment observed kind payload current asked records quarantine counter advanced
      bound drafts worker =>
      rw [records, present] at absent
      contradiction
  | appended envelope index clock draft valid fresh files drafts worker =>
      simp only [files, SortedMap.getElem?_insert] at absent
      split at absent
      · contradiction
      · rw [present] at absent
        contradiction
  | quarantined moment crashAfter asked waiting moves drafts worker =>
      refine Or.inl ⟨?_, ?_, moment, crashAfter, asked⟩
      · cases decoded : decodeRecord codec file.content with
        | none => rfl
        | some record =>
            rw [moves.decoded_stays _ file record present decoded] at absent
            contradiction
      · rcases moves.kept_or_moved _ file present with stays | moved
        · rw [absent] at stays
          contradiction
        · exact moved
  | removed batch attempt acknowledgement records moment crashAfter answered exporting valid
      accepted removes drafts worker =>
      rw [removes.lookup] at absent
      split at absent
      · rename_i removed
        obtain ⟨record, member, same⟩ := List.mem_map.mp removed
        exact Or.inr ⟨acknowledgement, moment, crashAfter, batch, attempt, record, answered,
          exporting, valid, accepted.subset member, recordName_injective same⟩
      · rw [present] at absent
        contradiction

omit [DecidableEq Digest] in
/-- What the worker removes after an answer of the collector is committed. -/
theorem Sound.answer_commits {system : System Bytes Digest}
    (sound : Sound codec service system) {batch : List TelemetryEnvelope} {attempt : Nat}
    {acknowledgement : IngestionAcknowledgement}
    (exporting : system.agent.worker = .exporting batch attempt)
    (backed : Backed system.collector batch acknowledgement)
    (valid : acknowledgement.validate batch = .ok ()) {record : TelemetryEnvelope}
    (member : record ∈ acknowledgement.acceptedRecords batch) {file : StoredFile Bytes}
    (present : system.agent.files.records[recordName record.sequence]? = some file) :
    CommittedRow codec system.collector.db record.sequence file := by
  obtain ⟨submitted, _⟩ := (mem_acceptedRecords _ _ _).mp member
  obtain ⟨inPlace, found, decoded⟩ :=
    sound.coherent.inPlace batch attempt exporting record submitted
  rw [present] at found
  cases found
  obtain ⟨tenantId, accepted⟩ := backed.accepted_of_valid valid record member
  obtain ⟨row, rowMember, holds⟩ := sound.store.kept _ accepted
  exact ⟨record, decoded, rfl, row, rowMember, holds.nodeId, holds.messageId, holds.envelope⟩

theorem systemStep_leavesCommitted (system : System Bytes Digest) (event : Event Digest)
    (sound : Sound codec service system) : LeavesCommitted codec service system event := by
  unfold LeavesCommitted
  generalize stepped : systemStep codec service system event = after
  dsimp only
  intro sequence file present absent
  have untouched : after.agent = system.agent →
      (decodeRecord codec file.content = none ∧
        after.agent.files.quarantine[recordName sequence]? = some file ∧
        ∃ moment crashAfter, event = .acts ⟨.snapshot moment crashAfter, rfl⟩) ∨
      ((∃ answer moment crashAfter, event = .delivers answer moment crashAfter) ∧
        CommittedRow codec system.collector.db sequence file) := by
    intro same
    rw [same, present] at absent
    contradiction
  cases event with
  | acts event =>
      obtain ⟨event, ownStep⟩ := event
      have agent : after.agent = (agentStep codec system.agent event).1 := by
        rw [← stepped]
        cases event <;> rfl
      rw [agent] at absent ⊢
      rcases AgentChange.leaves (agentStep_change codec system.agent event) sequence file present
        absent with ⟨undecoded, moved, moment, crashAfter, rfl⟩ | ⟨_, _, _, _, _, _, rfl, _⟩
      · exact Or.inl ⟨undecoded, moved, moment, crashAfter, rfl⟩
      · contradiction
  | exports =>
      apply untouched
      rw [← stepped]
      show system.exports.agent = system.agent
      unfold System.exports
      split <;> rfl
  | arrives request environment =>
      apply untouched
      rw [← stepped]
      show (system.arrives service request environment).agent = system.agent
      unfold System.arrives
      split <;> rfl
  | others request => exact untouched (by rw [← stepped]; rfl)
  | delivers answer moment crashAfter =>
      have unfolded : after = system.delivers codec answer moment crashAfter := stepped.symm
      unfold System.delivers at unfolded
      split at unfolded
      · rename_i batch attempt request answered response exporting waits found
        split at unfolded
        · rename_i own
          rw [unfolded] at absent
          have change := agentStep_change codec system.agent
            (.answer (exportResult batch response) moment crashAfter)
          rcases AgentChange.leaves change sequence file present absent with
            ⟨_, _, _, _, asked⟩ | ⟨acknowledgement, _, _, batch', attempt', record, asked,
              exporting', valid, member, rfl⟩
          · contradiction
          · rw [exporting] at exporting'
            cases exporting'
            simp only [AgentEvent.answer.injEq] at asked
            have inFlight := List.mem_of_getElem? found
            refine Or.inr ⟨⟨answer, moment, crashAfter, rfl⟩, ?_⟩
            obtain ⟨sent, earlier, sentFound, exported⟩ := sound.waiting request waits
            rw [exporting] at exported
            cases exported
            -- only an acknowledgement of the collector makes an export succeed
            cases response with
            | answered acknowledgement' =>
                have same := exportResult_answered _ _ _ asked.1
                subst same
                obtain ⟨sent', sentFound', backed⟩ := sound.answers answered _ inFlight
                rw [own, sentFound] at sentFound'
                cases sentFound'
                exact sound.answer_commits exporting backed valid member present
            | empty => exact absurd rfl (sound.nonempty _ inFlight)
            | failed reason | refused answer | unread reason | malformed reason =>
                simp [exportResult] at asked
        · exact untouched (by rw [unfolded])
      · exact untouched (by rw [unfolded])
  | fails failure moment =>
      have unfolded : after = system.fails codec failure moment := stepped.symm
      unfold System.fails at unfolded
      split at unfolded
      · rw [unfolded] at absent
        have change := agentStep_change codec system.agent (.answer (.error failure) moment none)
        rcases AgentChange.leaves change sequence file present absent with
          ⟨_, _, _, _, asked⟩ | ⟨_, _, _, _, _, _, asked, _⟩
        · contradiction
        · simp at asked
      · exact untouched (by rw [unfolded])
  | collectorRestarts => exact untouched (by rw [← stepped]; rfl)

/-! ## One row for each message -/

theorem systemStep_persists (system : System Bytes Digest) (event : Event Digest) :
    Persists system.collector.db (systemStep codec service system event).collector.db := by
  have same : ∀ after : System Bytes Digest, after.collector = system.collector →
      Persists system.collector.db after.collector.db := by
    intro after collector
    rw [collector]
    exact .refl _
  cases event with
  | acts event =>
      apply same
      show (system.acts codec event.1).collector = system.collector
      unfold System.acts
      split <;> rfl
  | exports =>
      apply same
      show system.exports.collector = system.collector
      unfold System.exports
      split <;> rfl
  | arrives request environment =>
      show Persists _ (system.arrives service request environment).collector.db
      unfold System.arrives
      split
      · exact .refl _
      · exact ingestStep_persists system.collector _
  | others request => exact ingestStep_persists system.collector request
  | delivers answer moment crashAfter =>
      apply same
      show (system.delivers codec answer moment crashAfter).collector = system.collector
      unfold System.delivers
      split
      · split <;> rfl
      · rfl
  | fails failure moment =>
      apply same
      show (system.fails codec failure moment).collector = system.collector
      unfold System.fails
      split <;> rfl
  | collectorRestarts => exact same _ rfl

theorem run_systemPersists (system : System Bytes Digest) (events : List (Event Digest)) :
    Persists system.collector.db
      (Machine.run (systemStep codec service) system events).collector.db := by
  induction events generalizing system with
  | nil => exact .refl _
  | cons event rest inductionHypothesis =>
      exact (systemStep_persists system event).trans
        (inductionHypothesis (systemStep codec service system event))

theorem run_sound (identity : KeepsIdentity codec)
    (injective : Function.Injective service.envelopeDigest) (start : System Bytes Digest)
    (events : List (Event Digest)) (sound : Sound codec service start) :
    Sound codec service (Machine.run (systemStep codec service) start events) :=
  Machine.run_invariant_always (systemStep codec service) (Sound codec service)
    (systemStep_sound identity injective) start events sound

variable (codec service) in
/-- Over every interleaving of publishing, attempts, losses, late and repeated
messages and restarts: a record leaves the agent only when the collector has
committed it as it is, and for one message the collector only ever stores one
row. -/
theorem delivery_loses_nothing (agentEncoding : codec.Faithful)
    (collectorEncoding : service.codec.Faithful)
    (sha256 : Function.Injective service.sha256) (start : System Bytes Digest)
    (coherent : Coherent codec start.agent)
    (store : StoreInvariant service start.collector.db start.collector.accepted)
    (quiet : start.answers = [] ∧ start.waiting = none) (events later : List (Event Digest)) :
    let reached := Machine.run (systemStep codec service) start events
    let final := Machine.run (systemStep codec service) reached later
    Machine.EveryStep (systemStep codec service) (LeavesCommitted codec service) start events ∧
      Table.KeysUnique messageKey reached.collector.db.telemetryMessages ∧
      Persists reached.collector.db final.collector.db ∧
      ∀ row ∈ reached.collector.db.telemetryMessages,
        ∀ row' ∈ final.collector.db.telemetryMessages,
          messageKey row' = messageKey row → FilledFrom row row' := by
  intro reached final
  have identity := KeepsIdentity.of_faithful agentEncoding
  have injective := envelopeDigest_injective service collectorEncoding sha256
  have sound : Sound codec service start := .start start coherent store quiet.1 quiet.2
  have soundReached := run_sound identity injective start events sound
  have soundFinal := run_sound identity injective reached later soundReached
  have persists : Persists reached.collector.db final.collector.db :=
    run_systemPersists reached later
  refine ⟨?_, soundReached.store.keys, persists, ?_⟩
  · exact Machine.everyStep_of_invariant (systemStep codec service) (Sound codec service)
      (fun _ _ => True) (LeavesCommitted codec service)
      (fun system event holds _ => systemStep_sound identity injective system event holds)
      (fun system event holds _ => systemStep_leavesCommitted system event holds)
      start events sound (fun _ _ => trivial)
  · intro row member row' member' same
    obtain ⟨kept, keptMember, filled⟩ := persists row member
    have keptKey : messageKey kept = messageKey row := by
      rcases filled with rfl | ⟨_, digest, rfl⟩
      · rfl
      · rfl
    rw [soundFinal.store.keys.eq_of_mem messageKey member' keptMember (same.trans keptKey.symm)]
    exact filled

end Delivery

/-! ## A run -/

/-- An agent and a collector nothing was sent between. -/
def plainSystem : System TelemetryEnvelope (TelemetryEnvelope ⊕ String) where
  collector := ⟨plainDatabase, []⟩

/-- A record is published and sent; the answer to the first attempt is lost, the
one to the second arrives. -/
def plainDelivery : List (Event (TelemetryEnvelope ⊕ String)) :=
  let config := { plainConfig "nodea" with bearerToken := plainToken "nodea" }
  [.acts ⟨.restart plainStartup config, rfl⟩,
    .acts ⟨.reserve plainMoment 1700000000000000000 .health (.ok (.bool true)), rfl⟩,
    .acts ⟨.append 0 plainMoment, rfl⟩,
    .acts ⟨.snapshot plainMoment none, rfl⟩,
    .exports, .arrives 0 {}, .fails (.protocol "timed out") plainMoment,
    .exports, .arrives 1 {}, .delivers 1 plainMoment none]

theorem delivery_loses_nothing_plain :
    let reached := Machine.run (systemStep plainCodec plainService) plainSystem plainDelivery
    (reached.agent.files.records[recordName 1]? = none ∧
        reached.collector.db.telemetryMessages.length = 1) ∧
      Machine.EveryStep (systemStep plainCodec plainService)
        (LeavesCommitted plainCodec plainService) plainSystem plainDelivery :=
  ⟨by decide,
    (delivery_loses_nothing plainCodec plainService plainCodec_faithful plainCodec_faithful
      Sum.inl_injective plainSystem Coherent.initial (.empty plainService plainDatabase rfl rfl)
      ⟨rfl, rfl⟩ plainDelivery []).1⟩

end SystemPilot.Delivery
