import Mathlib.Tactic
import SystemPilot.Telemetry.Acknowledgement
import SystemPilot.Agent.Publisher

/-!
# The agent's delivery machine

The publishing threads and the export worker over one spool.  Each event is one
operation under the spool lock, one answer of the sink, or a restart; what the
environment decides is part of the event.  `AgentChange` says once what a step
can do, and the later modules argue from it alone.
-/

set_option autoImplicit false

namespace SystemPilot.Agent

open SystemPilot.Text
open SystemPilot.Json
open SystemPilot.Library
open SystemPilot.Telemetry
open SystemPilot.Spool

/-- `spawn_export_worker` between two answers: waiting for its next flush, or
in the retry loop over one batch. -/
inductive Worker where
  | idle
  | exporting (batch : List TelemetryEnvelope) (attempt : Nat)
  deriving DecidableEq

/-- The agent process with its spool.  `drafts` are the envelopes of publishing
threads between `next_sequence` and `append`. -/
structure AgentState (Bytes : Type) where
  files : SpoolFiles Bytes := {}
  publisher : TelemetryPublisher := .disabled
  policy : ExportPolicy := {}
  drafts : List TelemetryEnvelope := []
  worker : Worker := .idle

/-- One record the worker removed, with the answer that let it. -/
structure Removal where
  record : TelemetryEnvelope
  batch : List TelemetryEnvelope
  acknowledgement : IngestionAcknowledgement
  deriving DecidableEq

/-- What a step does to the records: an append that returned `Ok`, a removal. -/
inductive Effect where
  | appended (record : TelemetryEnvelope)
  | removed (removal : Removal)
  deriving DecidableEq

/-- `crashAfter` ends the process after so many files were moved or removed.  A
process that ends right after a rename is one that restarts next. -/
inductive AgentEvent where
  | reserve (moment : Moment) (observedAtUnixNanos : Nat) (kind : TelemetryKind)
      (payload : Except String Value)
  | append (index : Nat) (moment : Moment)
  | snapshot (moment : Moment) (crashAfter : Option Nat)
  | answer (result : AppResult IngestionAcknowledgement) (moment : Moment)
      (crashAfter : Option Nat)
  | restart (startup : Startup) (config : DistributedTelemetryConfig)

section Step

variable {Bytes : Type} (codec : Codec Bytes)

/-- The process is gone; its spool stays. -/
def AgentState.stop (agent : AgentState Bytes) (files : SpoolFiles Bytes) : AgentState Bytes :=
  { agent with files, publisher := .disabled, drafts := [], worker := .idle }

/-- `publish` up to the reserved sequence. -/
def AgentState.reserve (agent : AgentState Bytes) (moment : Moment) (observedAtUnixNanos : Nat)
    (kind : TelemetryKind) (payload : Except String Value) : AgentState Bytes :=
  match agent.publisher.spool, payload with
  | some spool, .ok value =>
      match agent.publisher.reserve spool moment observedAtUnixNanos agent.files kind value with
      | (files, .ok envelope) => { agent with files, drafts := agent.drafts ++ [envelope] }
      | (files, .error _) => { agent with files }
      | (files, .crash) => agent.stop files
  | _, _ => agent

/-- `publish` from the append of a reserved envelope. -/
def AgentState.append (agent : AgentState Bytes) (index : Nat) (moment : Moment) :
    AgentState Bytes × List Effect :=
  match agent.publisher.spool, agent.drafts[index]? with
  | some spool, some envelope =>
      let drafts := agent.drafts.eraseIdx index
      match Spool.append codec spool moment.faults moment.clock agent.files envelope with
      | (files, .ok ()) => ({ agent with files, drafts }, [.appended envelope])
      | (files, .error _) => ({ agent with files, drafts }, [])
      | (files, .crash) => (agent.stop files, [])
  | _, _ => (agent, [])

/-- The worker's `pending(batch_size)`. -/
def AgentState.snapshot (agent : AgentState Bytes) (moment : Moment) (crashAfter : Option Nat) :
    AgentState Bytes :=
  match agent.publisher.spool, agent.worker, crashAfter with
  | some _, .idle, none =>
      match pending codec moment.faults agent.policy.batchSize agent.files with
      | (files, .ok batch) =>
          { agent with files, worker := if batch.isEmpty then .idle else .exporting batch 0 }
      | (files, .error _) => { agent with files }
  | some _, .idle, some moved =>
      agent.stop (pending codec moment.faults (min agent.policy.batchSize moved) agent.files).1
  | _, _, _ => agent

/-- The next attempt of the retry loop, or its end. -/
def AgentState.retry (agent : AgentState Bytes) (batch : List TelemetryEnvelope) (attempt : Nat) :
    AgentState Bytes :=
  { agent with
    worker := if attempt < agent.policy.maxRetries then .exporting batch (attempt + 1) else .idle }

/-- The worker's reaction to what `sink.export` returned.  The loop ends after a
validated answer, whether or not the spool could remove what it accepts. -/
def AgentState.answer (agent : AgentState Bytes) (result : AppResult IngestionAcknowledgement)
    (moment : Moment) (crashAfter : Option Nat) : AgentState Bytes × List Effect :=
  match agent.worker, result with
  | .idle, _ => (agent, [])
  | .exporting batch attempt, .error _ => (agent.retry batch attempt, [])
  | .exporting batch attempt, .ok acknowledgement =>
      match acknowledgement.validate batch with
      | .error _ => (agent.retry batch attempt, [])
      | .ok () =>
          let accepted := acknowledgement.acceptedRecords batch
          let reached := accepted.take (crashAfter.getD accepted.length)
          let files := (acknowledge moment.faults reached agent.files).1
          let removed := removedRecords moment.faults reached agent.files
          let effects := removed.map fun record => .removed ⟨record, batch, acknowledgement⟩
          match crashAfter with
          | none => ({ agent with files, worker := .idle }, effects)
          | some _ => (agent.stop files, effects)

/-- `run_daemon` opens the spool again; a configuration it refuses ends the
process. -/
def AgentState.restart (agent : AgentState Bytes) (startup : Startup)
    (config : DistributedTelemetryConfig) : AgentState Bytes :=
  let stopped := agent.stop agent.files
  match TelemetryPublisher.fromConfig codec startup config agent.files with
  | .ok publisher => { stopped with publisher, policy := config.exportPolicy }
  | .error _ => stopped

def agentStep (agent : AgentState Bytes) : AgentEvent → AgentState Bytes × List Effect
  | .reserve moment observedAtUnixNanos kind payload =>
      (agent.reserve moment observedAtUnixNanos kind payload, [])
  | .append index moment => agent.append codec index moment
  | .snapshot moment crashAfter => (agent.snapshot codec moment crashAfter, [])
  | .answer result moment crashAfter => agent.answer result moment crashAfter
  | .restart startup config => (agent.restart codec startup config, [])

/-! ## What a step can do -/

/-- A worker that exports a batch exported it before. -/
def KeepsBatch (before after : Worker) : Prop :=
  ∀ batch attempt, after = .exporting batch attempt → ∃ earlier, before = .exporting batch earlier

/-- The changes of one step and the effects it reports. -/
inductive AgentChange (agent : AgentState Bytes) (event : AgentEvent) :
    AgentState Bytes → List Effect → Prop
  | kept (after : AgentState Bytes)
      (records : after.files.records = agent.files.records ∨
        ∃ name content, isRecordName name = false ∧
          after.files.records = agent.files.records.insert name content)
      (quarantine : after.files.quarantine = agent.files.quarantine)
      (counter : readSequence after.files.root = readSequence agent.files.root)
      (drafts : after.drafts.Sublist agent.drafts)
      (worker : KeepsBatch agent.worker after.worker) :
      AgentChange agent event after []
  | reserved (after : AgentState Bytes) (moment : Moment) (observedAtUnixNanos : Nat)
      (kind : TelemetryKind) (payload : Value) (current : Nat)
      (asked : event = .reserve moment observedAtUnixNanos kind (.ok payload))
      (records : after.files.records = agent.files.records)
      (quarantine : after.files.quarantine = agent.files.quarantine)
      (counter : readSequence agent.files.root = .ok current)
      (advanced : readSequence after.files.root = .ok (current + 1))
      (bound : current + 1 < 2 ^ 64)
      (drafts : after.drafts = agent.drafts ++
        [agent.publisher.envelope (current + 1) observedAtUnixNanos kind
          (redactValue agent.publisher.redaction payload)])
      (worker : after.worker = agent.worker) :
      AgentChange agent event after []
  | appended (after : AgentState Bytes) (envelope : TelemetryEnvelope) (index clock : Nat)
      (draft : agent.drafts[index]? = some envelope)
      (valid : envelope.Valid)
      (fresh : agent.files.records[recordName envelope.sequence]? = none)
      (files : after.files = { agent.files with
        records := agent.files.records.insert (recordName envelope.sequence)
          ⟨codec.toVec envelope, clock⟩ })
      (drafts : after.drafts = agent.drafts.eraseIdx index)
      (worker : after.worker = agent.worker) :
      AgentChange agent event after [.appended envelope]
  | quarantined (after : AgentState Bytes) (moment : Moment) (crashAfter : Option Nat)
      (asked : event = .snapshot moment crashAfter)
      (waiting : agent.worker = .idle)
      (moves : Quarantines codec agent.files after.files)
      (drafts : after.drafts.Sublist agent.drafts)
      (worker : ∀ batch attempt, after.worker = .exporting batch attempt →
        batch ≠ [] ∧ ∃ selected,
          selected.Sublist ((recordPaths agent.files.records).take agent.policy.batchSize) ∧
            List.Forall₂ (Decoded codec after.files) selected batch) :
      AgentChange agent event after []
  | removed (after : AgentState Bytes) (batch : List TelemetryEnvelope) (attempt : Nat)
      (acknowledgement : IngestionAcknowledgement) (records : List TelemetryEnvelope)
      (moment : Moment) (crashAfter : Option Nat)
      (answered : event = .answer (.ok acknowledgement) moment crashAfter)
      (exporting : agent.worker = .exporting batch attempt)
      (valid : acknowledgement.validate batch = .ok ())
      (accepted : records.Sublist (acknowledgement.acceptedRecords batch))
      (removes : Removes records agent.files after.files)
      (drafts : after.drafts.Sublist agent.drafts)
      (worker : after.worker = .idle) :
      AgentChange agent event after
        (records.map fun record => .removed ⟨record, batch, acknowledgement⟩)

end Step

section Cases

variable {Bytes : Type} (codec : Codec Bytes) (agent : AgentState Bytes)

theorem KeepsBatch.refl (worker : Worker) : KeepsBatch worker worker :=
  fun _ attempt same => ⟨attempt, same⟩

theorem KeepsBatch.idle (worker : Worker) : KeepsBatch worker .idle := by
  intro batch attempt same
  contradiction

theorem reserve_change (moment : Moment) (observedAtUnixNanos : Nat) (kind : TelemetryKind)
    (payload : Except String Value) :
    AgentChange codec agent (.reserve moment observedAtUnixNanos kind payload)
      (agent.reserve moment observedAtUnixNanos kind payload) [] := by
  unfold AgentState.reserve
  split
  · rename_i spool value opened
    obtain ⟨sameFiles, result⟩ := reserve_cases agent.publisher spool moment observedAtUnixNanos
      agent.files kind value
    have untouched := nextSequence_records spool moment.faults moment.clock agent.files
    have counter := nextSequence_counter spool moment.faults moment.clock agent.files
    simp only [← sameFiles] at untouched counter
    cases outcome : agent.publisher.reserve spool moment observedAtUnixNanos agent.files kind
        value with
    | mk files reserved =>
        rw [outcome] at untouched counter result
        cases reserved with
        | ok envelope =>
            rcases result with ⟨sequence, stepped, built⟩ | ⟨failed, _⟩
            · cases built
              rcases counter with ⟨current, read, bound, advanced, exact_⟩ | ⟨_, failed⟩
              · rw [stepped] at exact_
                cases exact_
                exact .reserved _ moment observedAtUnixNanos kind value current rfl untouched.1
                  untouched.2 read advanced bound rfl rfl
              · exact absurd stepped (failed sequence)
            · exact absurd rfl (failed envelope)
        | error failure =>
            rcases result with ⟨sequence, _, built⟩ | ⟨_, failed⟩
            · cases built
            · rcases counter with ⟨_, _, _, _, exact_⟩ | ⟨same, _⟩
              · exact absurd exact_ (failed _)
              · exact .kept _ (Or.inl untouched.1) untouched.2 same (List.Sublist.refl _) (.refl _)
        | crash =>
            rcases result with ⟨sequence, _, built⟩ | ⟨_, failed⟩
            · cases built
            · rcases counter with ⟨_, _, _, _, exact_⟩ | ⟨same, _⟩
              · exact absurd exact_ (failed _)
              · exact .kept _ (Or.inl untouched.1) untouched.2 same (List.nil_sublist _) (.idle _)
  · exact .kept agent (Or.inl rfl) rfl rfl (List.Sublist.refl _) (.refl _)

theorem append_change (index : Nat) (moment : Moment) :
    AgentChange codec agent (.append index moment) (agent.append codec index moment).1
      (agent.append codec index moment).2 := by
  unfold AgentState.append
  split
  · rename_i spool envelope opened draft
    have shorter : (agent.drafts.eraseIdx index).Sublist agent.drafts :=
      List.eraseIdx_sublist _ _
    have change := append_cases codec spool moment.faults moment.clock agent.files envelope
    cases outcome : Spool.append codec spool moment.faults moment.clock agent.files envelope with
    | mk files result =>
        rw [outcome] at change
        rcases change with ⟨valid, fresh, exact_⟩ | ⟨failed, change⟩
        · cases exact_
          exact .appended _ envelope index moment.clock draft valid fresh rfl rfl rfl
        · have records : (files.records = agent.files.records ∨
              ∃ name content, isRecordName name = false ∧
                files.records = agent.files.records.insert name content) ∧
              files.quarantine = agent.files.quarantine ∧ files.root = agent.files.root := by
            rcases change with same | ⟨name, content, temporary, left⟩
            · simp only at same
              subst same
              exact ⟨Or.inl rfl, rfl, rfl⟩
            · simp only at left
              subst left
              exact ⟨Or.inr ⟨name, content, temporary, rfl⟩, rfl, rfl⟩
          have counter : readSequence files.root = readSequence agent.files.root := by
            rw [records.2.2]
          cases result with
          | ok done => exact absurd rfl failed
          | error failure => exact .kept _ records.1 records.2.1 counter shorter (.refl _)
          | crash => exact .kept _ records.1 records.2.1 counter (List.nil_sublist _) (.idle _)
  · exact .kept agent (Or.inl rfl) rfl rfl (List.Sublist.refl _) (.refl _)

theorem snapshot_change (moment : Moment) (crashAfter : Option Nat) :
    AgentChange codec agent (.snapshot moment crashAfter)
      (agent.snapshot codec moment crashAfter) [] := by
  unfold AgentState.snapshot
  split
  · rename_i spool opened waiting
    have moves := pending_quarantines codec moment.faults agent.policy.batchSize agent.files
    cases outcome : pending codec moment.faults agent.policy.batchSize agent.files with
    | mk files result =>
        rw [outcome] at moves
        cases result with
        | error failure =>
            refine .quarantined _ moment none rfl waiting moves (List.Sublist.refl _) ?_
            intro batch attempt exporting
            rw [show ({ agent with files } : AgentState Bytes).worker = agent.worker from rfl,
              waiting] at exporting
            contradiction
        | ok batch =>
            refine .quarantined _ moment none rfl waiting moves (List.Sublist.refl _) ?_
            intro other attempt exporting
            by_cases empty : batch.isEmpty = true
            · simp [empty] at exporting
            · simp only [empty, Bool.false_eq_true, if_false, Worker.exporting.injEq] at exporting
              obtain ⟨rfl, _⟩ := exporting
              exact ⟨by simpa using empty,
                pending_decoded codec moment.faults _ agent.files files batch outcome⟩
  · rename_i spool moved opened waiting
    refine .quarantined _ moment (some moved) rfl waiting
      (pending_quarantines codec moment.faults (min agent.policy.batchSize moved) agent.files)
      (List.nil_sublist _) ?_
    intro batch attempt exporting
    contradiction
  · exact .kept agent (Or.inl rfl) rfl rfl (List.Sublist.refl _) (.refl _)

theorem answer_change (result : AppResult IngestionAcknowledgement) (moment : Moment)
    (crashAfter : Option Nat) :
    AgentChange codec agent (.answer result moment crashAfter)
      (agent.answer result moment crashAfter).1 (agent.answer result moment crashAfter).2 := by
  have retries : ∀ batch attempt, agent.worker = .exporting batch attempt →
      AgentChange codec agent (.answer result moment crashAfter)
        (agent.retry batch attempt) [] := by
    intro batch attempt exporting
    refine .kept _ (Or.inl rfl) rfl rfl (List.Sublist.refl _) ?_
    intro other next continued
    simp only [AgentState.retry] at continued
    split at continued
    · cases continued
      exact ⟨attempt, exporting⟩
    · contradiction
  unfold AgentState.answer
  split
  · exact .kept agent (Or.inl rfl) rfl rfl (List.Sublist.refl _) (.refl _)
  · rename_i batch attempt failure exporting
    exact retries batch attempt exporting
  · rename_i batch attempt acknowledgement exporting
    split
    · exact retries batch attempt exporting
    · rename_i valid
      have accepted : ∀ reached : List TelemetryEnvelope,
          reached.Sublist (acknowledgement.acceptedRecords batch) →
          (removedRecords moment.faults reached agent.files).Sublist
            (acknowledgement.acceptedRecords batch) :=
        fun reached part => (removedRecords_sublist _ _ _).trans part
      cases crashAfter with
      | none =>
          exact .removed _ batch attempt acknowledgement _ moment none rfl exporting valid
            (accepted _ (List.take_sublist _ _)) (acknowledge_removes moment.faults _ agent.files)
            (List.Sublist.refl _) rfl
      | some reached =>
          exact .removed _ batch attempt acknowledgement _ moment (some reached) rfl exporting
            valid (accepted _ (List.take_sublist _ _))
            (acknowledge_removes moment.faults _ agent.files) (List.nil_sublist _) rfl

theorem restart_change (startup : Startup) (config : DistributedTelemetryConfig) :
    AgentChange codec agent (.restart startup config) (agent.restart codec startup config) [] := by
  unfold AgentState.restart
  cases TelemetryPublisher.fromConfig codec startup config agent.files with
  | ok publisher => exact .kept _ (Or.inl rfl) rfl rfl (List.nil_sublist _) (.idle _)
  | error failure => exact .kept _ (Or.inl rfl) rfl rfl (List.nil_sublist _) (.idle _)

theorem agentStep_change (event : AgentEvent) :
    AgentChange codec agent event (agentStep codec agent event).1
      (agentStep codec agent event).2 := by
  cases event with
  | reserve moment observedAtUnixNanos kind payload =>
      exact reserve_change codec agent moment observedAtUnixNanos kind payload
  | append index moment => exact append_change codec agent index moment
  | snapshot moment crashAfter => exact snapshot_change codec agent moment crashAfter
  | answer result moment crashAfter => exact answer_change codec agent result moment crashAfter
  | restart startup config => exact restart_change codec agent startup config

end Cases

end SystemPilot.Agent
