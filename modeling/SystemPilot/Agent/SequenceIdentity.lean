import Mathlib.Tactic
import SystemPilot.Spool.PendingOrder
import SystemPilot.Agent.SpoolLedger

/-!
# One sequence, one envelope

The agent beside the sequences it reserved and the envelopes it handed to the
sink.  The persisted counter never falls, so a reserved sequence is new; the
sequence is the last part of the message identifier, so two identifiers agree
only where the sequences do, whatever node name and clock stand before it.
-/

set_option autoImplicit false

namespace SystemPilot.Agent

open SystemPilot.Text
open SystemPilot.Json
open SystemPilot.Library
open SystemPilot.Telemetry
open SystemPilot.Spool

def Worker.batch : Worker → List TelemetryEnvelope
  | .idle => []
  | .exporting batch _ => batch

/-- The ledger of the agent with what `next_sequence` returned and what each
attempt of the worker exported. -/
structure Trace (Bytes : Type) where
  ledger : Ledger Bytes := {}
  returned : List Nat := []
  exported : List TelemetryEnvelope := []

section Step

variable {Bytes : Type} (codec : Codec Bytes)

/-- The sequence `next_sequence` returns inside this step. -/
def AgentState.returnedSequence (agent : AgentState Bytes) : AgentEvent → Option Nat
  | .reserve moment _ _ (.ok _) =>
      match agent.publisher.spool with
      | some spool =>
          match (nextSequence spool moment.faults moment.clock agent.files).2 with
          | .ok sequence => some sequence
          | _ => none
      | none => none
  | _ => none

def traceStep (trace : Trace Bytes) (event : AgentEvent) : Trace Bytes where
  ledger := ledgerStep codec trace.ledger event
  returned := trace.returned ++ (trace.ledger.agent.returnedSequence event).toList
  exported := trace.exported ++ (ledgerStep codec trace.ledger event).agent.worker.batch

end Step

/-! ## Message identifiers -/

/-- `format!("{}-{}-{}", node_id, observed_at_unix_nanos, sequence)`. -/
def IdentifiedBy (record : TelemetryEnvelope) : Prop :=
  ∃ (nodeId : String) (observedAtUnixNanos : Nat),
    record.messageId = nodeId ++ "-" ++ Nat.repr observedAtUnixNanos ++ "-" ++
      Nat.repr record.sequence

theorem rsplitOnce_identified (front : String) (sequence : Nat) :
    rsplitOnce '-' (front ++ "-" ++ Nat.repr sequence).toList =
      some (front.toList, Nat.toDigits 10 sequence) := by
  have digits : '-' ∉ Nat.toDigits 10 sequence := by
    intro member
    have digit := Nat.isDigit_of_mem_toDigits (by omega) (by omega) member
    simp at digit
  rw [String.toList_append, String.toList_append, Nat.toList_repr, List.append_assoc]
  exact rsplitOnce_append '-' _ _ digits

theorem IdentifiedBy.sequence_eq {left right : TelemetryEnvelope} (leftId : IdentifiedBy left)
    (rightId : IdentifiedBy right) (same : left.messageId = right.messageId) :
    left.sequence = right.sequence := by
  obtain ⟨leftNode, leftTime, leftText⟩ := leftId
  obtain ⟨rightNode, rightTime, rightText⟩ := rightId
  have parts := congrArg (fun text : String => rsplitOnce '-' text.toList) same
  simp only [leftText, rightText, rsplitOnce_identified, Option.some.injEq, Prod.mk.injEq] at parts
  have values := congrArg (fun digits => Nat.ofDigitChars 10 digits 0) parts.2
  simpa only [Nat.ofDigitChars_ten_toDigits] using values

/-! ## The counter -/

section Counter

variable {Bytes : Type} (codec : Codec Bytes)

theorem reserve_files (agent : AgentState Bytes) (spool : DiskSpool) (moment : Moment)
    (observedAtUnixNanos : Nat) (kind : TelemetryKind) (payload : Value)
    (opened : agent.publisher.spool = some spool) :
    (agent.reserve moment observedAtUnixNanos kind (.ok payload)).files =
      (nextSequence spool moment.faults moment.clock agent.files).1 := by
  rw [← (reserve_cases agent.publisher spool moment observedAtUnixNanos agent.files kind
    payload).1]
  unfold AgentState.reserve
  simp only [opened]
  split <;> rename_i reserved <;> rw [reserved]
  rfl

/-- A returned sequence is the counter before the step plus one, and the counter after it. -/
theorem returnedSequence_some (agent : AgentState Bytes) (event : AgentEvent) (sequence : Nat)
    (returned : agent.returnedSequence event = some sequence) :
    ∃ current, sequence = current + 1 ∧ readSequence agent.files.root = .ok current ∧
      readSequence (agentStep codec agent event).1.files.root = .ok sequence := by
  unfold AgentState.returnedSequence at returned
  split at returned
  case h_2 => cases returned
  case h_1 moment observed kind payload =>
    split at returned
    case h_2 => cases returned
    case h_1 spool opened =>
      split at returned
      case h_2 => cases returned
      case h_1 next stepped =>
        cases returned
        rcases nextSequence_counter spool moment.faults moment.clock agent.files with
          ⟨current, read, _, advanced, exact_⟩ | ⟨_, failed⟩
        · rw [stepped] at exact_
          cases exact_
          refine ⟨current, rfl, read, ?_⟩
          rw [agentStep, reserve_files agent spool moment observed kind payload opened]
          exact advanced
        · exact absurd stepped (failed sequence)

variable {codec}

/-- No step lowers the counter. -/
theorem AgentChange.counter_le {agent after : AgentState Bytes} {event : AgentEvent}
    {effects : List Effect} (change : AgentChange codec agent event after effects)
    {before current : Nat} (readBefore : readSequence agent.files.root = .ok before)
    (readAfter : readSequence after.files.root = .ok current) : before ≤ current := by
  have same : readSequence after.files.root = readSequence agent.files.root →
      before ≤ current := by
    intro unchanged
    rw [unchanged, readBefore] at readAfter
    cases readAfter
    exact le_rfl
  cases change with
  | kept records quarantine counter drafts worker => exact same counter
  | reserved moment observed kind payload value asked records quarantine counter advanced bound
      drafts worker =>
      rw [readBefore] at counter
      cases counter
      rw [readAfter] at advanced
      cases advanced
      omega
  | appended envelope index clock draft valid fresh files drafts worker =>
      exact same (by rw [files])
  | quarantined moment crashAfter asked waiting moves drafts worker =>
      exact same (by rw [moves.root])
  | removed batch attempt acknowledgement records moment crashAfter answered exporting valid
      accepted removes drafts worker =>
      exact same (by rw [removes.unchanged.1])

end Counter

/-! ## The invariant -/

section Identity

variable {Bytes : Type} (codec : Codec Bytes)

/-- Reserved sequences lie below the counter in order, every draft and record is
identified by its sequence, and what was exported decodes from a spooled record. -/
structure Identified (trace : Trace Bytes) : Prop where
  accounted : Accounted codec trace.ledger
  increasing : trace.returned.Pairwise (· < ·)
  counter : ∀ current, readSequence trace.ledger.agent.files.root = .ok current →
    ∀ sequence ∈ trace.returned, sequence ≤ current
  named : ∀ record ∈ trace.ledger.agent.drafts ++ appendedRecords trace.ledger.history,
    record.sequence < 2 ^ 64 ∧ IdentifiedBy record
  exported : ∀ record ∈ trace.exported, ∃ origin ∈ appendedRecords trace.ledger.history,
    codec.fromSlice (codec.toVec origin) = some record

theorem Identified.initial : Identified codec ({} : Trace Bytes) where
  accounted := Accounted.initial codec
  increasing := List.Pairwise.nil
  counter := by simp
  named := by simp
  exported := by simp

variable {codec}

/-- A draft is new only when it was reserved, a record only when it was a draft. -/
theorem AgentChange.named {agent after : AgentState Bytes} {event : AgentEvent}
    {effects : List Effect} (change : AgentChange codec agent event after effects)
    {record : TelemetryEnvelope} (member : record ∈ after.drafts ++ appendedRecords effects) :
    record ∈ agent.drafts ∨ (record.sequence < 2 ^ 64 ∧ IdentifiedBy record) := by
  cases change with
  | kept records quarantine counter drafts worker =>
      rw [appendedRecords_nil, List.append_nil] at member
      exact Or.inl (drafts.subset member)
  | reserved moment observed kind payload current asked records quarantine counter advanced bound
      drafts worker =>
      rw [appendedRecords_nil, List.append_nil, drafts, List.mem_append, List.mem_singleton]
        at member
      rcases member with old | rfl
      · exact Or.inl old
      · exact Or.inr ⟨bound, agent.publisher.nodeId, observed, rfl⟩
  | appended envelope index clock draft valid fresh files drafts worker =>
      rw [appendedRecords_appended, drafts, List.mem_append, List.mem_singleton] at member
      rcases member with left | rfl
      · exact Or.inl (List.mem_of_mem_eraseIdx left)
      · exact Or.inl (List.mem_of_getElem? draft)
  | quarantined moment crashAfter asked waiting moves drafts worker =>
      rw [appendedRecords_nil, List.append_nil] at member
      exact Or.inl (drafts.subset member)
  | removed batch attempt acknowledgement records moment crashAfter answered exporting valid
      accepted removes drafts worker =>
      rw [appendedRecords_removed, List.append_nil] at member
      exact Or.inl (drafts.subset member)

/-- The batch of the worker decodes from spooled records. -/
theorem Accounted.batch_decodes {ledger : Ledger Bytes} (accounted : Accounted codec ledger)
    {record : TelemetryEnvelope} (member : record ∈ ledger.agent.worker.batch) :
    ∃ origin ∈ appendedRecords ledger.history,
      codec.fromSlice (codec.toVec origin) = some record := by
  cases working : ledger.agent.worker with
  | idle =>
      rw [working] at member
      cases member
  | exporting batch attempt =>
      rw [working] at member
      obtain ⟨file, found, decoded⟩ :=
        accounted.coherent.inPlace batch attempt working record member
      obtain ⟨origin, spooled, _, content⟩ :=
        accounted.recorded _ file (isRecordName_recordName _) found
      rw [content] at decoded
      exact ⟨origin, spooled, (decodeRecord_some decoded).1⟩

theorem traceStep_identified (identity : KeepsIdentity codec) (trace : Trace Bytes)
    (event : AgentEvent) (identified : Identified codec trace) :
    Identified codec (traceStep codec trace event) := by
  have change := agentStep_change codec trace.ledger.agent event
  have accounted := ledgerStep_accounted identity trace.ledger event identified.accounted
  obtain ⟨current, read, _⟩ := accounted.counter
  obtain ⟨before, readBefore, _⟩ := identified.accounted.counter
  have old : ∀ sequence ∈ trace.returned, sequence ≤ before := identified.counter before readBefore
  have risen : before ≤ current := change.counter_le readBefore read
  exact {
    accounted := accounted
    increasing := by
      refine List.pairwise_append.mpr ⟨identified.increasing, ?_, ?_⟩
      · cases trace.ledger.agent.returnedSequence event <;> simp
      · intro earlier member sequence returned
        obtain ⟨value, rfl, readValue, _⟩ := returnedSequence_some codec _ event sequence
          (Option.mem_toList.mp returned)
        rw [readBefore] at readValue
        cases readValue
        have bound := old earlier member
        omega
    counter := by
      intro now readNow sequence member
      rw [show readSequence (traceStep codec trace event).ledger.agent.files.root =
        .ok current from read] at readNow
      cases readNow
      rcases List.mem_append.mp member with earlier | returned
      · exact (old sequence earlier).trans risen
      · obtain ⟨value, _, _, readValue⟩ := returnedSequence_some codec _ event sequence
          (Option.mem_toList.mp returned)
        rw [show readSequence (agentStep codec trace.ledger.agent event).1.files.root =
          .ok current from read] at readValue
        cases readValue
        exact le_rfl
    named := by
      intro record member
      rw [show appendedRecords (traceStep codec trace event).ledger.history =
        appendedRecords trace.ledger.history ++
          appendedRecords (agentStep codec trace.ledger.agent event).2 from
            appendedRecords_append _ _] at member
      rcases List.mem_append.mp member with draft | spooled
      · rcases change.named (List.mem_append_left _ draft) with before | named
        · exact identified.named record (List.mem_append_left _ before)
        · exact named
      · rcases List.mem_append.mp spooled with earlier | appended
        · exact identified.named record (List.mem_append_right _ earlier)
        · rcases change.named (List.mem_append_right _ appended) with before | named
          · exact identified.named record (List.mem_append_left _ before)
          · exact named
    exported := by
      intro record member
      rcases List.mem_append.mp member with earlier | sent
      · obtain ⟨origin, spooled, decoded⟩ := identified.exported record earlier
        refine ⟨origin, ?_, decoded⟩
        rw [traceStep, ledgerStep, appendedRecords_append]
        exact List.mem_append_left _ spooled
      · exact accounted.batch_decodes sent }

theorem run_identified (identity : KeepsIdentity codec) (events : List AgentEvent) :
    Identified codec (Machine.run (traceStep codec) {} events) :=
  Machine.run_invariant_always (traceStep codec) (Identified codec)
    (traceStep_identified identity) {} events (Identified.initial codec)

/-! ## What follows -/

theorem Identified.numbered {trace : Trace Bytes} (identified : Identified codec trace) :
    Numbered trace.ledger.agent.files := by
  intro path member
  obtain ⟨isRecord, file, found⟩ := (mem_recordPaths _ path).mp member
  obtain ⟨record, spooled, same, _⟩ := identified.accounted.recorded path file isRecord found
  exact ⟨record.sequence, same,
    (identified.named record (List.mem_append_right _ spooled)).1⟩

theorem Identified.sequences_nodup {trace : Trace Bytes} (identified : Identified codec trace) :
    ((appendedRecords trace.ledger.history).map TelemetryEnvelope.sequence).Nodup := by
  have whole := identified.accounted.distinct
  rw [List.map_append] at whole
  exact whole.of_append_right

theorem Identified.messageIds_nodup {trace : Trace Bytes} (identified : Identified codec trace) :
    ((appendedRecords trace.ledger.history).map TelemetryEnvelope.messageId).Nodup := by
  have once := identified.sequences_nodup
  refine List.Nodup.map_on ?_ once.of_map
  intro left leftMember right rightMember same
  have leftNamed := (identified.named left (List.mem_append_right _ leftMember)).2
  have rightNamed := (identified.named right (List.mem_append_right _ rightMember)).2
  exact List.inj_on_of_nodup_map once leftMember rightMember
    (leftNamed.sequence_eq rightNamed same)

/-- Two exported envelopes with a common sequence or message identifier are one envelope. -/
theorem Identified.exported_eq (identity : KeepsIdentity codec) {trace : Trace Bytes}
    (identified : Identified codec trace) {left right : TelemetryEnvelope}
    (leftSent : left ∈ trace.exported) (rightSent : right ∈ trace.exported)
    (same : left.sequence = right.sequence ∨ left.messageId = right.messageId) :
    left = right := by
  obtain ⟨leftOrigin, leftSpooled, leftDecoded⟩ := identified.exported left leftSent
  obtain ⟨rightOrigin, rightSpooled, rightDecoded⟩ := identified.exported right rightSent
  obtain ⟨leftSequence, leftId⟩ := identity leftOrigin left leftDecoded
  obtain ⟨rightSequence, rightId⟩ := identity rightOrigin right rightDecoded
  have origins : leftOrigin = rightOrigin := by
    rcases same with sequences | identifiers
    · exact List.inj_on_of_nodup_map identified.sequences_nodup leftSpooled rightSpooled
        (by rw [← leftSequence, ← rightSequence, sequences])
    · exact List.inj_on_of_nodup_map identified.messageIds_nodup leftSpooled rightSpooled
        (by rw [← leftId, ← rightId, identifiers])
  rw [origins, rightDecoded] at leftDecoded
  exact (Option.some.inj leftDecoded).symm

variable (codec)

/-- An append replaces no record file. -/
def AppendsOnly (trace : Trace Bytes) (event : AgentEvent) : Prop :=
  ∀ index moment, event = .append index moment →
    ∀ (path : String) (file : StoredFile Bytes), isRecordName path = true →
      trace.ledger.agent.files.records[path]? = some file →
        (agentStep codec trace.ledger.agent event).1.files.records[path]? = some file

theorem appendsOnly (trace : Trace Bytes) (event : AgentEvent) :
    AppendsOnly codec trace event := by
  intro index moment asked path file isRecord found
  have change := agentStep_change codec trace.ledger.agent event
  generalize agentStep codec trace.ledger.agent event = stepped at change ⊢
  obtain ⟨after, effects⟩ := stepped
  cases change with
  | kept records quarantine counter drafts worker =>
      rw [lookup_of_kept records path isRecord]
      exact found
  | reserved _ _ _ _ _ reserve records =>
      rw [records]
      exact found
  | appended envelope index clock draft valid fresh files drafts worker =>
      rw [files, SortedMap.getElem?_insert_of_ne]
      · exact found
      · rintro rfl
        rw [found] at fresh
        contradiction
  | quarantined _ _ snapshot =>
      rw [snapshot] at asked
      cases asked
  | removed _ _ _ _ _ _ answered =>
      rw [answered] at asked
      cases asked

/-- Over every run of publishes, acknowledgements, quarantines, crashes and restarts:
sequences rise, spooled and exported envelopes are told apart by sequence and by
message identifier, no append replaces a record, and `pending` returns the smallest. -/
theorem sequences_identify (identity : KeepsIdentity codec) (events : List AgentEvent) :
    let trace := Machine.run (traceStep codec) {} events
    trace.returned.Pairwise (· < ·) ∧
    ((appendedRecords trace.ledger.history).map TelemetryEnvelope.sequence).Nodup ∧
    ((appendedRecords trace.ledger.history).map TelemetryEnvelope.messageId).Nodup ∧
    (∀ record ∈ trace.exported, ∃ origin ∈ appendedRecords trace.ledger.history,
      record.sequence = origin.sequence ∧ record.messageId = origin.messageId) ∧
    (∀ left ∈ trace.exported, ∀ right ∈ trace.exported,
      left.sequence = right.sequence ∨ left.messageId = right.messageId → left = right) ∧
    Machine.EveryStep (traceStep codec) (AppendsOnly codec) {} events ∧
    ∀ faults limit after batch,
      pending codec faults limit trace.ledger.agent.files = (after, .ok batch) →
        SmallestPending codec limit trace.ledger.agent.files after batch := by
  intro trace
  have identified : Identified codec trace := run_identified identity events
  refine ⟨identified.increasing, identified.sequences_nodup, identified.messageIds_nodup,
    ?_, ?_, ?_, ?_⟩
  · intro record sent
    obtain ⟨origin, spooled, decoded⟩ := identified.exported record sent
    exact ⟨origin, spooled, identity origin record decoded⟩
  · intro left leftSent right rightSent same
    exact identified.exported_eq identity leftSent rightSent same
  · exact fun pair _ => appendsOnly codec pair.1 pair.2
  · intro faults limit after batch result
    exact pending_smallest codec faults limit _ after batch identified.numbered result

end Identity

/-- Two reservations around a restart; the second envelope is still in the spool. -/
theorem sequences_identify_restarted :
    let events : List AgentEvent := [.restart plainStartup (plainConfig "nodea"),
      .reserve plainMoment 5 .health (.ok (.bool true)),
      .restart plainStartup (plainConfig "nodea"),
      .reserve plainMoment 4 .health (.ok (.bool true)),
      .append 0 plainMoment,
      .snapshot plainMoment none]
    let trace := Machine.run (traceStep plainCodec) {} events
    trace.returned = [1, 2] ∧ trace.exported.map TelemetryEnvelope.messageId = ["nodea-4-2"] ∧
      trace.returned.Pairwise (· < ·) :=
  ⟨by decide, by decide, (sequences_identify plainCodec (.of_faithful plainCodec_faithful) _).1⟩

end SystemPilot.Agent
