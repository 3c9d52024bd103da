import Mathlib.Tactic
import SystemPilot.Library.Machine
import SystemPilot.Agent.Coherence
import SystemPilot.Cloud.MessageStore

/-!
# What the agent sends and what the collector admits

The agent bounds a batch by its own policy, the collector by `MAX_BATCH` and by
the size of the request body.  Every other check of `validate_batch` is met by
what `publish` spools; these two bounds are not, and a batch that exceeds them
is offered again and again.
-/

set_option autoImplicit false

namespace SystemPilot.Delivery

open SystemPilot.Text
open SystemPilot.Json
open SystemPilot.Library
open SystemPilot.Telemetry
open SystemPilot.Spool
open SystemPilot.Agent
open SystemPilot.Cloud

section Admission

variable {Bytes : Type} (codec : Codec Bytes)

/-- The length of the JSON array `export` posts: brackets, commas and records. -/
def bodyLength (batch : List TelemetryEnvelope) : Nat :=
  2 + (batch.map fun record => codec.len (codec.toVec record)).sum + (batch.length - 1)

/-- The collector takes the request body and its batch. -/
def Admitted (batch : List TelemetryEnvelope) : Prop :=
  validateBatch batch = .ok () ∧ bodyLength codec batch ≤ maxBodyBytes

/-- The record of a file, if it is one. -/
def recordAt (files : SpoolFiles Bytes) (path : String) : Option TelemetryEnvelope :=
  files.records[path]?.bind fun file => decodeRecord codec file.content

/-- The records that are next in line, at most `limit`. -/
def dueRecords (limit : Nat) (files : SpoolFiles Bytes) : List TelemetryEnvelope :=
  ((recordPaths files.records).take limit).filterMap (recordAt codec files)

/-- The records next in line keep within the collector's bounds. -/
structure FitsCollector (limit : Nat) (files : SpoolFiles Bytes) : Prop where
  count : (dueRecords codec limit files).length ≤ maxBatch
  bytes : bodyLength codec (dueRecords codec limit files) ≤ maxBodyBytes

/-- What is decoded from an encoded record has its sequence and its time. -/
def KeepsStamp : Prop :=
  ∀ envelope record, codec.fromSlice (codec.toVec envelope) = some record →
    record.sequence = envelope.sequence ∧
      record.observedAtUnixNanos = envelope.observedAtUnixNanos

variable {codec} in
theorem KeepsStamp.of_faithful (faithful : codec.Faithful) : KeepsStamp codec := by
  intro envelope record decoded
  rw [faithful] at decoded
  cases decoded
  exact ⟨rfl, rfl⟩

/-! ## The batch of a round -/

theorem recordAt_eq_some {files : SpoolFiles Bytes} {path : String} {record : TelemetryEnvelope} :
    recordAt codec files path = some record ↔ Decoded codec files path record := by
  simp [recordAt, Decoded, Option.bind_eq_some_iff]

/-- A batch consists of the decoded records of the selected files. -/
theorem pendingLoop_batch (faults : Faults) (paths : List String) (nodup : paths.Nodup)
    (files after : SpoolFiles Bytes) (batch : List TelemetryEnvelope)
    (result : pendingLoop codec faults paths files = (after, .ok batch)) :
    batch = paths.filterMap (recordAt codec files) := by
  induction paths generalizing files batch with
  | nil =>
      cases result
      rfl
  | cons path rest inductionHypothesis =>
      obtain ⟨notLater, restNodup⟩ := List.nodup_cons.mp nodup
      rw [pendingLoop] at result
      split at result
      · cases result
      · cases result
      · rename_i file found readable
        have record : recordAt codec files path = decodeRecord codec file.content := by
          rw [recordAt, found]
          rfl
        split at result
        · rename_i envelope decoded
          split at result
          · rename_i reached records exact_
            cases result
            rw [List.filterMap_cons, record, decoded,
              ← inductionHypothesis restNodup files records exact_]
          · cases result
        · rename_i refused
          split at result
          · cases result
          · rw [List.filterMap_cons, record, refused,
              inductionHypothesis restNodup _ batch result]
            -- the file that was moved is none of the later ones
            apply List.filterMap_congr
            intro other member
            have distinct : path ≠ other := by
              rintro rfl
              exact notLater member
            simp only [recordAt, SortedMap.getElem?_erase_of_ne _ distinct]

theorem pending_batch {faults : Faults} {limit : Nat} {files after : SpoolFiles Bytes}
    {batch : List TelemetryEnvelope}
    (taken : pending codec faults limit files = (after, .ok batch)) :
    batch = dueRecords codec limit files := by
  unfold pending at taken
  split at taken
  · cases taken
  · exact pendingLoop_batch codec faults _ ((recordPaths_nodup _).sublist (List.take_sublist _ _))
      files after batch taken

/-! ## What `publish` stamps on a record -/

/-- A sequence and a time the collector accepts. -/
structure Stamped (envelope : TelemetryEnvelope) : Prop where
  sequence : envelope.sequence ≠ 0
  observed : ∃ observed, UnixTimestamp.fromNanos envelope.observedAtUnixNanos = .ok observed

/-- The clock of the agent is between 2000 and 2099 when it stamps an event. -/
def InCentury : AgentEvent → Prop
  | .reserve _ observedAtUnixNanos _ _ =>
      minReasonableUnixSeconds * nanosPerSecond ≤ observedAtUnixNanos ∧
        observedAtUnixNanos < (maxReasonableUnixSeconds + 1) * nanosPerSecond
  | _ => True

theorem fromNanos_of_inCentury {value : Nat}
    (lower : minReasonableUnixSeconds * nanosPerSecond ≤ value)
    (upper : value < (maxReasonableUnixSeconds + 1) * nanosPerSecond) :
    ∃ observed, UnixTimestamp.fromNanos value = .ok observed := by
  have range : minReasonableUnixSeconds ≤ value / nanosPerSecond ∧
      value / nanosPerSecond ≤ maxReasonableUnixSeconds := by
    constructor
    · exact (Nat.le_div_iff_mul_le (by decide)).mpr lower
    · exact Nat.le_of_lt_succ ((Nat.div_lt_iff_lt_mul (by decide)).mpr upper)
  exact ⟨_, if_pos range⟩

/-- Everything the agent holds is stamped. -/
structure AllStamped (agent : AgentState Bytes) : Prop where
  drafts : ∀ draft ∈ agent.drafts, Stamped draft
  records : ∀ path record, isRecordName path = true → Decoded codec agent.files path record →
    Stamped record

variable {codec} in
/-- The step lemma: publishing stamps, everything else keeps or removes. -/
theorem AllStamped.step (stamp : KeepsStamp codec) {agent after : AgentState Bytes}
    {event : AgentEvent} {effects : List Effect} (stamped : AllStamped codec agent)
    (century : InCentury event) (change : AgentChange codec agent event after effects) :
    AllStamped codec after := by
  cases change with
  | kept records quarantine counter drafts worker =>
      refine ⟨fun draft member => stamped.drafts draft (drafts.subset member), ?_⟩
      rintro path record named ⟨file, found, decoded⟩
      exact stamped.records path record named
        ⟨file, by rw [← lookup_of_kept records path named, found], decoded⟩
  | reserved moment observed kind payload current asked records quarantine counter advanced
      bound drafts worker =>
      constructor
      · intro draft member
        rw [drafts] at member
        rcases List.mem_append.mp member with old | new
        · exact stamped.drafts draft old
        · rw [List.mem_singleton.mp new]
          rw [asked] at century
          exact ⟨Nat.succ_ne_zero current, fromNanos_of_inCentury century.1 century.2⟩
      · rintro path record named ⟨file, found, decoded⟩
        exact stamped.records path record named ⟨file, by rw [← records, found], decoded⟩
  | appended envelope index clock draft valid fresh files drafts worker =>
      have drafted := stamped.drafts envelope (List.mem_of_getElem? draft)
      refine ⟨fun other member => stamped.drafts other ?_, ?_⟩
      · rw [drafts] at member
        exact List.mem_of_mem_eraseIdx member
      · rintro path record named ⟨file, found, decoded⟩
        rw [files] at found
        simp only [SortedMap.getElem?_insert] at found
        split at found
        · cases found
          obtain ⟨sequence, time⟩ := stamp envelope record (decodeRecord_some decoded).1
          exact ⟨by rw [sequence]; exact drafted.sequence, by rw [time]; exact drafted.observed⟩
        · exact stamped.records path record named ⟨file, found, decoded⟩
  | quarantined moment crashAfter asked waiting moves drafts worker =>
      refine ⟨fun draft member => stamped.drafts draft (drafts.subset member), ?_⟩
      rintro path record named ⟨file, found, decoded⟩
      exact stamped.records path record named
        ⟨file, moves.records_subset path file found, decoded⟩
  | removed batch attempt acknowledgement records moment crashAfter answered exporting valid
      accepted removes drafts worker =>
      refine ⟨fun draft member => stamped.drafts draft (drafts.subset member), ?_⟩
      rintro path record named ⟨file, found, decoded⟩
      rw [removes.lookup] at found
      split at found
      · contradiction
      · exact stamped.records path record named ⟨file, found, decoded⟩

/-- The agent after a run, from an empty spool. -/
def agentRun (events : List AgentEvent) : AgentState Bytes :=
  Machine.run (fun agent event => (agentStep codec agent event).1) {} events

theorem run_allStamped (stamp : KeepsStamp codec) (events : List AgentEvent)
    (century : ∀ event ∈ events, InCentury event) : AllStamped codec (agentRun codec events) := by
  apply Machine.run_invariant _ (AllStamped codec) (fun _ event => InCentury event)
  · intro agent event stamped within
    exact stamped.step stamp within (agentStep_change codec agent event)
  · constructor
    · simp
    · rintro path record _ ⟨file, found, _⟩
      simp at found
  · rintro ⟨agent, event⟩ member
    obtain ⟨before, later, split, _⟩ := (Machine.mem_visited_iff _ _ _ _).mp member
    exact century event (by simp [split])

/-! ## The two bounds are all that is missing -/

/-- A batch of the worker is admitted exactly when the records next in line
keep within the collector's bounds on their number and their bytes. -/
theorem batch_admitted_iff (stamp : KeepsStamp codec) (events : List AgentEvent)
    (century : ∀ event ∈ events, InCentury event) (policy : ExportPolicy) (faults : Faults)
    (after : SpoolFiles Bytes) (batch : List TelemetryEnvelope)
    (taken : pending codec faults policy.batchSize (agentRun codec events).files =
      (after, .ok batch))
    (nonempty : batch ≠ []) :
    Admitted codec batch ↔ FitsCollector codec policy.batchSize (agentRun codec events).files := by
  have stamped := run_allStamped codec stamp events century
  have due := pending_batch codec taken
  have validated : ∀ record ∈ batch, validateRecord record = .ok () := by
    intro record member
    rw [due, dueRecords, List.mem_filterMap] at member
    obtain ⟨path, selected, read⟩ := member
    have decoded := (recordAt_eq_some codec).mp read
    have named := mem_take_recordPaths _ _ path selected
    obtain ⟨sequence, observed⟩ := stamped.records path record named decoded
    obtain ⟨_, _, content⟩ := decoded
    exact (validateRecord_ok_iff record).mpr
      ⟨(decodeRecord_some content).2, sequence, observed⟩
  constructor
  · rintro ⟨checked, bytes⟩
    obtain ⟨_, count, _⟩ := (validateBatch_ok_iff batch).mp checked
    rw [due] at count bytes
    exact ⟨count, bytes⟩
  · rintro ⟨count, bytes⟩
    rw [← due] at count bytes
    exact ⟨(validateBatch_ok_iff batch).mpr ⟨nonempty, count, validated⟩, bytes⟩

end Admission

/-! ## A backlog -/

/-- A configuration that validates and asks for one record too many. -/
def backlogConfig : DistributedTelemetryConfig :=
  { plainConfig "nodea" with exportPolicy := { batchSize := maxBatch + 1 } }

def backlogPublisher : TelemetryPublisher where
  sender := true
  nodeId := "nodea"
  spool := some ⟨512 * 1024 * 1024, 7 * 24 * 60 * 60, 7⟩

/-- One `publish`. -/
def publishOnce : List AgentEvent :=
  [.reserve plainMoment 1700000000000000000 .health (.ok (.bool true)), .append 0 plainMoment]

/-- An agent that starts and publishes while nothing is delivered. -/
def backlogEvents : Nat → List AgentEvent
  | 0 => [.restart plainStartup backlogConfig]
  | count + 1 => backlogEvents count ++ publishOnce

/-- The agent with so many records in its spool. -/
structure Backlog (count : Nat) (agent : AgentState TelemetryEnvelope) : Prop where
  publisher : agent.publisher = backlogPublisher
  drafts : agent.drafts = []
  counter : readSequence agent.files.root = .ok count
  root : ∀ name file, agent.files.root[name]? = some file → name = sequenceName
  records : ∀ path file, agent.files.records[path]? = some file →
    ∃ sequence, sequence ≤ count ∧ path = recordName sequence ∧
      file.modified = plainMoment.clock ∧ file.content.Valid
  paths : (recordPaths agent.files.records).length = count

theorem statsLoop_counts (spool : DiskSpool) (clock : Nat) (records : Directory TelemetryEnvelope)
    (paths : List String) (counted : SpoolStats)
    (young : ∀ path ∈ paths, ∃ file, records[path]? = some file ∧ file.modified = clock) :
    ∃ total, statsLoop plainCodec spool clock records paths counted = .ok total ∧
      total.bytes ≤ counted.bytes + paths.length := by
  induction paths generalizing counted with
  | nil => exact ⟨counted, rfl, by simp⟩
  | cons path rest inductionHypothesis =>
      obtain ⟨file, found, modified⟩ := young path (by simp)
      obtain ⟨total, result, bound⟩ := inductionHypothesis
        { counted with
          records := counted.records + 1
          bytes := saturatingAdd counted.bytes 1 }
        fun other member => young other (by simp [member])
      refine ⟨total, ?_, ?_⟩
      · rw [statsLoop, found]
        simp only [modified, Nat.sub_self]
        exact result
      · simp only [saturatingAdd, List.length_cons] at bound ⊢
        omega

/-- The envelope of the next `publish`. -/
def backlogEnvelope (sequence : Nat) : TelemetryEnvelope :=
  backlogPublisher.envelope sequence 1700000000000000000 .health (.bool true)

theorem backlogEnvelope_valid (sequence : Nat) : (backlogEnvelope sequence).Valid where
  schema := rfl
  messageId := by
    rw [← Bool.not_eq_true, isBlank_iff]
    intro blank
    have letter := blank 'n' (by
      simp [backlogEnvelope, TelemetryPublisher.envelope, backlogPublisher, String.toList_append])
    exact absurd letter (by decide)
  nodeId := by
    show isBlank "nodea" = false
    decide
  observed := by
    show 1700000000000000000 ≠ 0
    decide
  payload := rfl

/-- The steps of one `publish`, with nothing in their way. -/
theorem Backlog.published {count : Nat} {agent : AgentState TelemetryEnvelope}
    (backlog : Backlog count agent) (bound : count + 1 ≤ 512 * 1024 * 1024) :
    Machine.run (fun agent event => (agentStep plainCodec agent event).1) agent publishOnce =
      { agent with files := { agent.files with
          root := agent.files.root.insert sequenceName
            ⟨Nat.repr (count + 1), plainMoment.clock⟩
          records := agent.files.records.insert (recordName (count + 1))
            ⟨backlogEnvelope (count + 1), plainMoment.clock⟩ } } := by
  obtain ⟨files, publisher, policy, drafts, worker⟩ := agent
  obtain ⟨rfl, rfl, counter, root, records, paths⟩ := backlog
  dsimp only at counter root records paths ⊢
  have reserved := nextSequence_advances ⟨512 * 1024 * 1024, 7 * 24 * 60 * 60, 7⟩
    plainMoment.clock count files counter (by omega) (by
      intro present
      obtain ⟨file, found⟩ := Option.isSome_iff_exists.mp
        (Std.ExtTreeMap.mem_iff_isSome_getElem?.mp present)
      exact temporaryName_sequenceName_ne 7 (root _ file found))
  obtain ⟨total, counted, bytes⟩ := statsLoop_counts ⟨512 * 1024 * 1024, 7 * 24 * 60 * 60, 7⟩
    plainMoment.clock files.records (recordPaths files.records) ⟨0, 0, 0⟩ (by
      intro path member
      obtain ⟨_, file, found⟩ := (mem_recordPaths _ path).mp member
      obtain ⟨_, _, _, modified, _⟩ := records path file found
      exact ⟨file, found, modified⟩)
  rw [paths] at bytes
  have appended := append_commits plainCodec ⟨512 * 1024 * 1024, 7 * 24 * 60 * 60, 7⟩
    plainMoment.clock
    { files with
      root := files.root.insert sequenceName ⟨Nat.repr (count + 1), plainMoment.clock⟩ }
    (backlogEnvelope (count + 1)) { total with quarantined := files.quarantine.size }
    (backlogEnvelope_valid _)
    (by
      unfold stats
      simp only [counted, Bool.false_eq_true, if_false]
      rfl)
    (by
      have small : total.bytes ≤ count := by simpa using bytes
      show min (total.bytes + 1) (2 ^ 64 - 1) ≤ 512 * 1024 * 1024
      omega)
    (by
      intro present
      obtain ⟨file, found⟩ := Option.isSome_iff_exists.mp
        (Std.ExtTreeMap.mem_iff_isSome_getElem?.mp present)
      obtain ⟨sequence, old, named, _⟩ := records _ file found
      have same : count + 1 = sequence := recordName_injective named
      omega)
    (by
      intro present
      obtain ⟨file, found⟩ := Option.isSome_iff_exists.mp
        (Std.ExtTreeMap.mem_iff_isSome_getElem?.mp present)
      obtain ⟨sequence, _, named, _⟩ := records _ file found
      exact temporaryName_ne_recordName 7 (count + 1) sequence named)
  have drafted : AgentState.reserve ⟨files, backlogPublisher, policy, [], worker⟩ plainMoment
      1700000000000000000 .health (.ok (.bool true)) =
      ⟨{ files with
          root := files.root.insert sequenceName ⟨Nat.repr (count + 1), plainMoment.clock⟩ },
        backlogPublisher, policy, [backlogEnvelope (count + 1)], worker⟩ := by
    unfold AgentState.reserve TelemetryPublisher.reserve
    simp only [backlogPublisher]
    rw [show plainMoment.faults = {} from rfl, reserved]
    rfl
  simp only [Delivery.publishOnce, Machine.run_cons, Machine.run_nil, agentStep, drafted]
  unfold AgentState.append
  simp only [backlogPublisher, List.getElem?_cons_zero]
  rw [show plainMoment.faults = {} from rfl, appended]
  rfl

theorem Backlog.next {count : Nat} {agent : AgentState TelemetryEnvelope}
    (backlog : Backlog count agent) (bound : count + 1 ≤ 512 * 1024 * 1024) :
    Backlog (count + 1)
      (Machine.run (fun agent event => (agentStep plainCodec agent event).1) agent
        publishOnce) := by
  rw [backlog.published bound]
  refine ⟨backlog.publisher, backlog.drafts, readSequence_written _ _ _ (by omega), ?_, ?_, ?_⟩
  · intro name file found
    simp only [SortedMap.getElem?_insert] at found
    split at found
    · rename_i same
      exact same.symm
    · exact backlog.root name file found
  · intro path file found
    simp only [SortedMap.getElem?_insert] at found
    split at found
    · rename_i same
      cases found
      exact ⟨count + 1, le_rfl, same.symm, rfl, backlogEnvelope_valid _⟩
    · obtain ⟨sequence, old, facts⟩ := backlog.records path file found
      exact ⟨sequence, by omega, facts⟩
  · have fresh : agent.files.records[recordName (count + 1)]? = none := by
      rw [Option.eq_none_iff_forall_ne_some]
      intro file found
      obtain ⟨sequence, old, named, _⟩ := backlog.records _ file found
      have same : count + 1 = sequence := recordName_injective named
      omega
    have grown := SortedMap.countKeys_insert_fresh isRecordName agent.files.records
      (recordName (count + 1)) ⟨backlogEnvelope (count + 1), plainMoment.clock⟩
      (isRecordName_recordName _) fresh
    exact grown.trans (congrArg Nat.succ backlog.paths)

theorem backlogEvents_backlog (count : Nat) (bound : count ≤ 512 * 1024 * 1024) :
    Backlog count (agentRun plainCodec (backlogEvents count)) := by
  induction count with
  | zero =>
      have started : agentRun plainCodec (backlogEvents 0) =
          { publisher := backlogPublisher, policy := backlogConfig.exportPolicy } := by rfl
      rw [started]
      refine ⟨rfl, rfl, rfl, ?_, ?_, ?_⟩
      · intro name file found
        simp at found
      · intro path file found
        simp at found
      · exact SortedMap.countKeys_empty isRecordName
  | succ count inductionHypothesis =>
      rw [agentRun, backlogEvents, Machine.run_append]
      exact (inductionHypothesis (by omega)).next bound

/-- A spool of valid records that is read without faults is a batch as a whole. -/
theorem pendingLoop_all (paths : List String) (files : SpoolFiles TelemetryEnvelope)
    (valid : ∀ path ∈ paths, ∃ file, files.records[path]? = some file ∧ file.content.Valid) :
    ∃ batch, pendingLoop plainCodec {} paths files = (files, .ok batch) ∧
      batch.length = paths.length := by
  induction paths with
  | nil => exact ⟨[], rfl, rfl⟩
  | cons path rest inductionHypothesis =>
      obtain ⟨file, found, checked⟩ := valid path (by simp)
      obtain ⟨batch, result, length⟩ := inductionHypothesis fun other member =>
        valid other (by simp [member])
      have decoded : decodeRecord plainCodec file.content = some file.content := by
        simp [decodeRecord, plainCodec, (file.content.validate_ok_iff).mpr checked]
      refine ⟨file.content :: batch, ?_, by simp [length]⟩
      rw [pendingLoop, found]
      simp only [decoded, result]

/-- One record more than the collector takes in a batch: the policy validates,
the worker offers all of them, and the collector refuses them whatever its
state. -/
theorem backlog_is_refused :
    backlogConfig.exportPolicy.validate = .ok () ∧
      ∃ batch,
        pending plainCodec {} backlogConfig.exportPolicy.batchSize
            (agentRun plainCodec (backlogEvents (maxBatch + 1))).files =
          ((agentRun plainCodec (backlogEvents (maxBatch + 1))).files, .ok batch) ∧
        ¬Admitted plainCodec batch ∧
        ∀ db authorization environment,
          ingest plainService db ⟨authorization, batch, environment⟩ =
            (db, .error (.invalid "batch must contain between 1 and 256 envelopes")) := by
  have backlog := backlogEvents_backlog (maxBatch + 1) (by decide)
  generalize agentRun plainCodec (backlogEvents (maxBatch + 1)) = agent at backlog ⊢
  obtain ⟨batch, read, length⟩ := pendingLoop_all
    ((recordPaths agent.files.records).take (maxBatch + 1)) agent.files (by
    intro path member
    obtain ⟨_, file, found⟩ := (mem_recordPaths _ path).mp (List.mem_of_mem_take member)
    obtain ⟨_, _, _, _, valid⟩ := backlog.records path file found
    exact ⟨file, found, valid⟩)
  rw [List.length_take, backlog.paths, Nat.min_self] at length
  have refused : validateBatch batch =
      .error (.invalid "batch must contain between 1 and 256 envelopes") := by
    unfold validateBatch
    rw [if_pos (Or.inr (by omega))]
    rfl
  have taken : pending plainCodec {} backlogConfig.exportPolicy.batchSize agent.files =
      (agent.files, .ok batch) := by
    unfold pending
    rw [if_neg Bool.false_ne_true]
    exact read
  refine ⟨(ExportPolicy.validate_ok_iff _).mpr
    ⟨by decide, by decide, by decide, by decide, by decide, by decide, by decide⟩,
    batch, taken, ?_, ?_⟩
  · rintro ⟨checked, _⟩
    rw [refused] at checked
    contradiction
  · intro db authorization environment
    unfold ingest ingestResult
    rw [refused]
    rfl

/-- A single record that is due. -/
theorem batch_admitted_iff_single :
    Admitted plainCodec [backlogEnvelope 1] ↔
      FitsCollector plainCodec 257 (agentRun plainCodec (backlogEvents 1)).files :=
  batch_admitted_iff plainCodec (.of_faithful plainCodec_faithful) (backlogEvents 1)
    (by
      intro event member
      rcases List.mem_cons.mp member with rfl | member
      · trivial
      · rcases List.mem_cons.mp member with rfl | member
        · exact ⟨by decide, by decide⟩
        · rw [List.mem_singleton.mp member]
          trivial)
    backlogConfig.exportPolicy {}
    (pending plainCodec {} 257 (agentRun plainCodec (backlogEvents 1)).files).1
    [backlogEnvelope 1] (Prod.ext rfl (by rfl)) (by simp)

end SystemPilot.Delivery
