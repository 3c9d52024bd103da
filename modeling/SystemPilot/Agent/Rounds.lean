import Mathlib.Tactic
import SystemPilot.Library.Window
import SystemPilot.Agent.ExportWorker
import SystemPilot.Spool.PendingOrder

/-!
# Rounds of the export worker

A round exports the first batch of the spool and removes what the collector
accepts.  A rejected record stays where it is, at the head of the next batch, so
a round serves the head of a queue.
-/

set_option autoImplicit false

namespace SystemPilot.Agent

open SystemPilot.Library
open SystemPilot.Telemetry
open SystemPilot.Spool

/-! ## Valid spools -/

section Spools

variable {Bytes : Type} (codec : Codec Bytes)

/-- The record of a path, where it decodes. -/
def recordAt (files : SpoolFiles Bytes) (path : String) : Option TelemetryEnvelope :=
  files.records[path]?.bind fun file => decodeRecord codec file.content

/-- The records of the spool in the order `pending` takes them. -/
def spoolRecords (files : SpoolFiles Bytes) : List TelemetryEnvelope :=
  (recordPaths files.records).filterMap (recordAt codec files)

/-- Every record decodes and lies under the name of its sequence. -/
def ValidSpool (files : SpoolFiles Bytes) : Prop :=
  ∀ path ∈ recordPaths files.records, ∃ record,
    recordAt codec files path = some record ∧ path = recordName record.sequence

variable {codec} {files : SpoolFiles Bytes}

theorem recordAt_eq_some_iff (path : String) (record : TelemetryEnvelope) :
    recordAt codec files path = some record ↔
      ∃ file, files.records[path]? = some file ∧ decodeRecord codec file.content = some record :=
  Option.bind_eq_some_iff

theorem map_recordName (valid : ValidSpool codec files) (paths : List String)
    (listed : ∀ path ∈ paths, path ∈ recordPaths files.records) :
    (paths.filterMap (recordAt codec files)).map (fun record => recordName record.sequence) =
      paths := by
  induction paths with
  | nil => rfl
  | cons path rest inductionHypothesis =>
      obtain ⟨record, found, named⟩ := valid path (listed path List.mem_cons_self)
      have later := inductionHypothesis fun other member =>
        listed other (List.mem_cons_of_mem _ member)
      rw [List.filterMap_cons, found, List.map_cons, later, ← named]

theorem spoolRecords_names (valid : ValidSpool codec files) :
    (spoolRecords codec files).map (fun record => recordName record.sequence) =
      recordPaths files.records :=
  map_recordName valid _ fun _ member => member

theorem spoolRecords_nodup (valid : ValidSpool codec files) :
    ((spoolRecords codec files).map fun record => recordName record.sequence).Nodup := by
  rw [spoolRecords_names valid]
  exact recordPaths_nodup files.records

theorem filterMap_take {Item Found : Type} (find : Item → Option Found) (items : List Item)
    (all : ∀ item ∈ items, (find item).isSome = true) (limit : Nat) :
    (items.take limit).filterMap find = (items.filterMap find).take limit := by
  induction items generalizing limit with
  | nil => simp
  | cons item rest inductionHypothesis =>
      obtain ⟨found, finds⟩ := Option.isSome_iff_exists.mp (all item List.mem_cons_self)
      cases limit with
      | zero => rfl
      | succ limit =>
          have later := inductionHypothesis
            (fun other member => all other (List.mem_cons_of_mem _ member)) limit
          rw [List.take_succ_cons, List.filterMap_cons, List.filterMap_cons, finds,
            List.take_succ_cons, later]

theorem pendingLoop_valid (valid : ValidSpool codec files) (paths : List String)
    (listed : ∀ path ∈ paths, path ∈ recordPaths files.records) :
    pendingLoop codec {} paths files = (files, .ok (paths.filterMap (recordAt codec files))) := by
  induction paths with
  | nil => rfl
  | cons path rest inductionHypothesis =>
      obtain ⟨record, found, -⟩ := valid path (listed path List.mem_cons_self)
      obtain ⟨file, present, decoded⟩ := (recordAt_eq_some_iff path record).mp found
      have later := inductionHypothesis fun other member =>
        listed other (List.mem_cons_of_mem _ member)
      rw [pendingLoop, present]
      simp only [decoded, later, List.filterMap_cons, found]

/-- The batch of a valid spool is its first records. -/
theorem pending_valid (valid : ValidSpool codec files) (limit : Nat) :
    pending codec {} limit files = (files, .ok ((spoolRecords codec files).take limit)) := by
  have all : ∀ path ∈ recordPaths files.records, (recordAt codec files path).isSome = true := by
    intro path listed
    obtain ⟨record, found, -⟩ := valid path listed
    rw [found]
    rfl
  have loop := pendingLoop_valid valid ((recordPaths files.records).take limit)
    fun path member => List.mem_of_mem_take member
  rw [filterMap_take _ _ all] at loop
  rw [pending, if_neg Bool.false_ne_true, loop, spoolRecords]

end Spools

/-! ## Removing accepted records -/

section Removal

variable {Bytes : Type}

/-- Without faults every record that is present once is removed. -/
theorem removedRecords_all (records : List TelemetryEnvelope) (files : SpoolFiles Bytes)
    (present : ∀ record ∈ records, recordName record.sequence ∈ files.records)
    (distinct : (records.map fun record => recordName record.sequence).Nodup) :
    removedRecords {} records files = records := by
  induction records generalizing files with
  | nil => rfl
  | cons record rest inductionHypothesis =>
      rw [List.map_cons, List.nodup_cons] at distinct
      have here := present record List.mem_cons_self
      rw [removedRecords]
      simp only [here, not_true_eq_false, if_false, Bool.false_eq_true]
      rw [inductionHypothesis _ ?_ distinct.2]
      intro other member
      have apart : recordName record.sequence ≠ recordName other.sequence := by
        intro same
        exact distinct.1 (List.mem_map.mpr ⟨other, member, same.symm⟩)
      rw [Std.ExtTreeMap.mem_erase]
      exact ⟨by simpa using apart, present other (List.mem_cons_of_mem _ member)⟩

variable {codec : Codec Bytes} {files after : SpoolFiles Bytes} {removed : List TelemetryEnvelope}

theorem recordPaths_removed (removes : Removes removed files after) :
    recordPaths after.records = (recordPaths files.records).filter fun path =>
      decide (path ∉ removed.map fun record => recordName record.sequence) := by
  apply List.Pairwise.eq_of_mem_iff (recordPaths_sorted after.records)
    ((recordPaths_sorted files.records).filter _)
  intro path
  rw [List.mem_filter, mem_recordPaths, mem_recordPaths, removes.lookup path, decide_eq_true_eq]
  split <;> simp_all

theorem recordAt_removed (removes : Removes removed files after) {path : String}
    (kept : path ∉ removed.map fun record => recordName record.sequence) :
    recordAt codec after path = recordAt codec files path := by
  rw [recordAt, recordAt, removes.lookup path, if_neg kept]

theorem filterMap_kept (valid : ValidSpool codec files) (removes : Removes removed files after)
    (paths : List String) (listed : ∀ path ∈ paths, path ∈ recordPaths files.records) :
    (paths.filter fun path =>
        decide (path ∉ removed.map fun record => recordName record.sequence)).filterMap
          (recordAt codec after) =
      (paths.filterMap (recordAt codec files)).filter fun record =>
        decide (recordName record.sequence ∉
          removed.map fun record => recordName record.sequence) := by
  induction paths with
  | nil => rfl
  | cons path rest inductionHypothesis =>
      obtain ⟨record, found, named⟩ := valid path (listed path List.mem_cons_self)
      have later := inductionHypothesis fun other member =>
        listed other (List.mem_cons_of_mem _ member)
      rw [List.filterMap_cons, found, List.filter_cons, List.filter_cons, ← named]
      by_cases kept : path ∉ removed.map fun record => recordName record.sequence
      · have same : recordAt codec _ path = _ := recordAt_removed removes kept
        rw [if_pos (decide_eq_true kept), if_pos (decide_eq_true kept), List.filterMap_cons, same,
          found, later]
      · have gone := decide_eq_false kept
        rw [gone]
        exact later

/-- The other records stay, in their order. -/
theorem spoolRecords_removed (valid : ValidSpool codec files)
    (removes : Removes removed files after) :
    ValidSpool codec after ∧
      spoolRecords codec after = (spoolRecords codec files).filter fun record =>
        decide (recordName record.sequence ∉ removed.map fun record => recordName record.sequence) := by
  constructor
  · intro path listed
    rw [recordPaths_removed removes, List.mem_filter, decide_eq_true_eq] at listed
    rw [recordAt_removed removes listed.2]
    exact valid path listed.1
  · rw [spoolRecords, spoolRecords, recordPaths_removed removes]
    exact filterMap_kept valid removes _ fun _ member => member

/-- Taking the accepted records of the first batch out serves the head of the
queue: those that are not accepted stay. -/
theorem filter_taken (accepts : TelemetryEnvelope → Bool) (queue : List TelemetryEnvelope)
    (distinct : (queue.map fun record => recordName record.sequence).Nodup) (limit : Nat) :
    (queue.filter fun record => decide (recordName record.sequence ∉
        ((queue.take limit).filter accepts).map fun record => recordName record.sequence)) =
      Window.serve limit (fun record => !accepts record) queue := by
  have injective := List.inj_on_of_nodup_map distinct
  have split := List.take_append_drop limit queue
  have apart : ∀ record ∈ queue.drop limit, ∀ other ∈ queue.take limit,
      recordName record.sequence ≠ recordName other.sequence := by
    intro record inRest other inWindow same
    rw [← split, List.map_append] at distinct
    exact (List.nodup_append.mp distinct).2.2 _ (List.mem_map.mpr ⟨other, inWindow, rfl⟩) _
      (List.mem_map.mpr ⟨record, inRest, rfl⟩) same.symm
  rw [Window.serve]
  conv_lhs => rw [← split, List.filter_append]
  rw [split]
  congr 1
  · apply List.filter_congr
    intro record inWindow
    cases accepted : accepts record with
    | true =>
        simp only [Bool.not_true, decide_eq_false_iff_not, not_not]
        exact List.mem_map.mpr ⟨record, List.mem_filter.mpr ⟨inWindow, accepted⟩, rfl⟩
    | false =>
        simp only [Bool.not_false, decide_eq_true_eq]
        intro member
        obtain ⟨other, taken, same⟩ := List.mem_map.mp member
        obtain ⟨otherInWindow, otherAccepted⟩ := List.mem_filter.mp taken
        have one := injective (List.mem_of_mem_take otherInWindow) (List.mem_of_mem_take inWindow)
          same
        rw [one, accepted] at otherAccepted
        cases otherAccepted
  · apply List.filter_eq_self.mpr
    intro record inRest
    rw [decide_eq_true_eq]
    intro member
    obtain ⟨other, taken, same⟩ := List.mem_map.mp member
    exact apart record inRest other (List.mem_filter.mp taken).1 same.symm

end Removal

/-! ## Rounds -/

section Rounds

variable {Bytes : Type} (codec : Codec Bytes)

/-- One turn of the worker's loop: the first batch, and what the collector's
answer to it lets the worker remove.  The batch offered comes with it. -/
def AgentState.round (collector : List TelemetryEnvelope → IngestionAcknowledgement)
    (agent : AgentState Bytes) : AgentState Bytes × List TelemetryEnvelope :=
  let waiting := agent.snapshot codec {} none
  match waiting.worker with
  | .idle => (waiting, [])
  | .exporting batch _ => ((waiting.answer (.ok (collector batch)) {} none).1, batch)

/-- Some rounds, and every record they offer. -/
def AgentState.rounds (collector : List TelemetryEnvelope → IngestionAcknowledgement) :
    Nat → AgentState Bytes → AgentState Bytes × List TelemetryEnvelope
  | 0, agent => (agent, [])
  | count + 1, agent =>
      let first := agent.round codec collector
      let later := AgentState.rounds collector count first.1
      (later.1, first.2 ++ later.2)

/-- The collector answers every batch of these records with a valid
acknowledgement that accepts a fixed part of them and rejects the others. -/
structure Decides (collector : List TelemetryEnvelope → IngestionAcknowledgement)
    (accepts : TelemetryEnvelope → Bool) (records : List TelemetryEnvelope) : Prop where
  valid : ∀ batch, batch ≠ [] → batch.Sublist records →
    (collector batch).validate batch = .ok ()
  accepted : ∀ batch, batch.Sublist records → ∀ record ∈ batch,
    record.messageId ∈ (collector batch).acceptedMessageIds ↔ accepts record = true

/-- A worker that waits over a valid spool. -/
structure Ready (agent : AgentState Bytes) : Prop where
  spool : agent.publisher.spool.isSome = true
  worker : agent.worker = .idle
  valid : ValidSpool codec agent.files

variable {codec} {collector : List TelemetryEnvelope → IngestionAcknowledgement}
  {accepts : TelemetryEnvelope → Bool}

/-- A round serves the head of the queue of records. -/
theorem round_serves {agent : AgentState Bytes} (ready : Ready codec agent)
    (positive : 1 ≤ agent.policy.batchSize)
    (decides : Decides collector accepts (spoolRecords codec agent.files)) :
    let after := agent.round codec collector
    Ready codec after.1 ∧ after.1.policy = agent.policy ∧
      after.2 = (spoolRecords codec agent.files).take agent.policy.batchSize ∧
      spoolRecords codec after.1.files =
        Window.serve agent.policy.batchSize (fun record => !accepts record)
          (spoolRecords codec agent.files) := by
  obtain ⟨spool, opened⟩ := Option.isSome_iff_exists.mp ready.spool
  have idle := ready.worker
  have batch := pending_valid ready.valid agent.policy.batchSize
  have distinct := spoolRecords_nodup ready.valid
  have waiting : agent.snapshot codec {} none =
      { agent with
        worker := if ((spoolRecords codec agent.files).take agent.policy.batchSize).isEmpty
          then .idle
          else .exporting ((spoolRecords codec agent.files).take agent.policy.batchSize) 0 } := by
    simp only [AgentState.snapshot, opened, idle, batch]
  by_cases empty : spoolRecords codec agent.files = []
  · have outcome : agent.round codec collector = ({ agent with worker := .idle }, []) := by
      simp only [AgentState.round, waiting, empty, List.take_nil, List.isEmpty_nil, if_true]
    rw [outcome, empty]
    refine ⟨⟨ready.spool, rfl, ready.valid⟩, rfl, List.take_nil.symm, ?_⟩
    simpa [Window.serve] using empty
  · have some : (spoolRecords codec agent.files).take agent.policy.batchSize ≠ [] := by
      intro none'
      rcases List.take_eq_nil_iff.mp none' with zero | nothing
      · omega
      · exact empty nothing
    have part : ((spoolRecords codec agent.files).take agent.policy.batchSize).Sublist
        (spoolRecords codec agent.files) := List.take_sublist _ _
    have nonempty := List.isEmpty_eq_false_iff.mpr some
    have accepted : (collector ((spoolRecords codec agent.files).take
        agent.policy.batchSize)).acceptedRecords
          ((spoolRecords codec agent.files).take agent.policy.batchSize) =
        ((spoolRecords codec agent.files).take agent.policy.batchSize).filter accepts := by
      apply List.filter_congr
      intro record member
      rw [Bool.eq_iff_iff, List.contains_iff_mem]
      exact decides.accepted _ part record member
    generalize decided : ((spoolRecords codec agent.files).take agent.policy.batchSize).filter
      accepts = removed at accepted
    have removedPart : removed.Sublist (spoolRecords codec agent.files) := by
      rw [← decided]
      exact List.filter_sublist.trans part
    have present : ∀ record ∈ removed, recordName record.sequence ∈ agent.files.records := by
      intro record member
      have named : recordName record.sequence ∈ recordPaths agent.files.records := by
        rw [← spoolRecords_names ready.valid]
        exact List.mem_map.mpr ⟨record, removedPart.subset member, rfl⟩
      obtain ⟨-, file, found⟩ := (mem_recordPaths _ _).mp named
      exact Std.ExtTreeMap.mem_iff_isSome_getElem?.mpr (by rw [found]; rfl)
    have all := removedRecords_all removed agent.files present
      (distinct.sublist (removedPart.map _))
    have removes := acknowledge_removes {} removed agent.files
    rw [all] at removes
    obtain ⟨validAfter, recordsAfter⟩ := spoolRecords_removed ready.valid removes
    have outcome : agent.round codec collector =
        ({ agent with files := (acknowledge {} removed agent.files).1, worker := .idle },
          (spoolRecords codec agent.files).take agent.policy.batchSize) := by
      simp only [AgentState.round, waiting, nonempty, Bool.false_eq_true, if_false,
        AgentState.answer, decides.valid _ some part, accepted, Option.getD_none, List.take_length]
    rw [outcome]
    refine ⟨⟨ready.spool, rfl, validAfter⟩, rfl, rfl, ?_⟩
    rw [← filter_taken accepts _ distinct, decided]
    exact recordsAfter

/-- Some rounds serve the queue as often. -/
theorem rounds_serve (count : Nat) {agent : AgentState Bytes} (ready : Ready codec agent)
    (positive : 1 ≤ agent.policy.batchSize)
    (decides : Decides collector accepts (spoolRecords codec agent.files)) :
    let after := agent.rounds codec collector count
    let stays := fun record => !accepts record
    Ready codec after.1 ∧
      after.2 = Window.seen agent.policy.batchSize stays count (spoolRecords codec agent.files) ∧
      spoolRecords codec after.1.files =
        Window.serveRounds agent.policy.batchSize stays count (spoolRecords codec agent.files) := by
  induction count generalizing agent with
  | zero => exact ⟨ready, rfl, rfl⟩
  | succ count inductionHypothesis =>
      obtain ⟨readyAfter, policy, offered, served⟩ := round_serves ready positive decides
      have fewer : (Window.serve agent.policy.batchSize (fun record => !accepts record)
          (spoolRecords codec agent.files)).Sublist (spoolRecords codec agent.files) := by
        rw [Window.serve]
        conv_rhs => rw [← List.take_append_drop agent.policy.batchSize (spoolRecords codec agent.files)]
        exact List.filter_sublist.append_right _
      have decidesAfter : Decides collector accepts
          (spoolRecords codec (agent.round codec collector).1.files) := by
        rw [served]
        exact ⟨fun batch some part => decides.valid batch some (part.trans fewer),
          fun batch part => decides.accepted batch (part.trans fewer)⟩
      obtain ⟨readyLast, seen, left⟩ := inductionHypothesis readyAfter
        (by rw [policy]; exact positive) decidesAfter
      rw [policy, served] at seen left
      exact ⟨readyLast, by rw [AgentState.rounds, Window.seen, offered, seen], left⟩

/-- Rejected records do not block the ones behind them exactly when fewer than a
batch of the records before the last one are rejected. -/
theorem rejected_do_not_block_iff {agent : AgentState Bytes} (ready : Ready codec agent)
    (positive : 1 ≤ agent.policy.batchSize)
    (decides : Decides collector accepts (spoolRecords codec agent.files)) :
    (∃ count ≤ (spoolRecords codec agent.files).length,
      (∀ record ∈ spoolRecords codec agent.files,
        record ∈ (agent.rounds codec collector count).2) ∧
      ValidSpool codec (agent.rounds codec collector count).1.files ∧
      spoolRecords codec (agent.rounds codec collector count).1.files =
        (spoolRecords codec agent.files).filter fun record => !accepts record) ↔
      (spoolRecords codec agent.files).dropLast.countP (fun record => !accepts record) <
        agent.policy.batchSize := by
  have distinct : (spoolRecords codec agent.files).Nodup :=
    List.Nodup.of_map _ (spoolRecords_nodup ready.valid)
  rw [← Window.serves_all_iff distinct positive]
  refine exists_congr fun count => and_congr_right fun _ => ?_
  obtain ⟨readyAfter, seen, left⟩ := rounds_serve count ready positive decides
  rw [seen, left, and_iff_right readyAfter.valid]

end Rounds

/-! ## A rejected record at the head -/

def spooledRecord (sequence : Nat) : TelemetryEnvelope where
  schemaVersion := 1
  messageId := "n1-" ++ Nat.repr sequence
  nodeId := "n1"
  sequence
  observedAtUnixNanos := 1700000000000000000
  kind := .health
  payload := .bool true
  attributes := ∅

/-- The spool of the records 1 and 2. -/
def pairFiles : SpoolFiles TelemetryEnvelope where
  records := ((∅ : Directory TelemetryEnvelope).insert (recordName 1) ⟨spooledRecord 1, 0⟩).insert
    (recordName 2) ⟨spooledRecord 2, 0⟩

def pairAgent (batchSize : Nat) : AgentState TelemetryEnvelope where
  files := pairFiles
  publisher := { spool := some { maxBytes := 4096, maxAgeSecs := 60, processId := 7 } }
  policy := { batchSize }

def isSecond (record : TelemetryEnvelope) : Bool := record.sequence == 2

/-- A collector that accepts the second record only. -/
def rejectsFirst (batch : List TelemetryEnvelope) : IngestionAcknowledgement where
  acceptedMessageIds := (batch.filter isSecond).map TelemetryEnvelope.messageId
  rejectedRecords := (batch.filter fun record => !isSecond record).map fun record =>
    { messageId := record.messageId, reason := "schema" }

theorem pairFiles_paths : recordPaths pairFiles.records = [recordName 1, recordName 2] := by
  decide +kernel

theorem pairFiles_records :
    spoolRecords plainCodec pairFiles = [spooledRecord 1, spooledRecord 2] := by
  rw [spoolRecords, pairFiles_paths]
  decide +kernel

theorem pairFiles_valid : ValidSpool plainCodec pairFiles := by
  intro path listed
  rw [pairFiles_paths] at listed
  rcases List.mem_cons.mp listed with rfl | listed
  · exact ⟨spooledRecord 1, by decide +kernel, rfl⟩
  · cases List.mem_singleton.mp listed
    exact ⟨spooledRecord 2, by decide +kernel, rfl⟩

theorem pairAgent_ready (batchSize : Nat) : Ready plainCodec (pairAgent batchSize) :=
  ⟨rfl, rfl, pairFiles_valid⟩

theorem rejectsFirst_decides :
    Decides rejectsFirst isSecond (spoolRecords plainCodec pairFiles) := by
  rw [pairFiles_records]
  have parts : ∀ batch : List TelemetryEnvelope,
      batch.Sublist [spooledRecord 1, spooledRecord 2] →
        batch ∈ [[], [spooledRecord 1], [spooledRecord 2], [spooledRecord 1, spooledRecord 2]] := by
    intro batch part
    have listed := List.mem_sublists.mpr part
    simpa [List.sublists, or_comm, or_left_comm] using listed
  constructor
  · intro batch some part
    have listed := parts batch part
    simp only [List.mem_cons, List.not_mem_nil, or_false] at listed
    rcases listed with rfl | rfl | rfl | rfl
    · exact absurd rfl some
    all_goals decide +kernel
  · intro batch part record member
    have listed := parts batch part
    simp only [List.mem_cons, List.not_mem_nil, or_false] at listed
    rcases listed with rfl | rfl | rfl | rfl
    · cases member
    all_goals
      revert record
      decide +kernel

/-- With batches of one the rejected record 1 is offered forever and 2 never. -/
theorem rejected_head_blocks :
    ¬ ∃ count ≤ (spoolRecords plainCodec pairFiles).length,
      (∀ record ∈ spoolRecords plainCodec pairFiles,
        record ∈ ((pairAgent 1).rounds plainCodec rejectsFirst count).2) ∧
      ValidSpool plainCodec ((pairAgent 1).rounds plainCodec rejectsFirst count).1.files ∧
      spoolRecords plainCodec ((pairAgent 1).rounds plainCodec rejectsFirst count).1.files =
        (spoolRecords plainCodec pairFiles).filter fun record => !isSecond record := by
  rintro ⟨count, -, offered, -⟩
  obtain ⟨-, seen, -⟩ := rounds_serve count (pairAgent_ready 1) (by decide) rejectsFirst_decides
  have second : spooledRecord 2 ∈ spoolRecords plainCodec pairFiles := by
    rw [pairFiles_records]
    decide +kernel
  have reached := offered _ second
  rw [seen] at reached
  have queue : spoolRecords plainCodec (pairAgent 1).files = [spooledRecord 1] ++ [spooledRecord 2] :=
    pairFiles_records
  rw [queue] at reached
  exact Window.last_unseen count (by decide +kernel) (by decide +kernel) reached

/-- With batches of two the second record is delivered. -/
theorem rejected_head_passed :
    ∃ count ≤ (spoolRecords plainCodec pairFiles).length,
      (∀ record ∈ spoolRecords plainCodec pairFiles,
        record ∈ ((pairAgent 2).rounds plainCodec rejectsFirst count).2) ∧
      ValidSpool plainCodec ((pairAgent 2).rounds plainCodec rejectsFirst count).1.files ∧
      spoolRecords plainCodec ((pairAgent 2).rounds plainCodec rejectsFirst count).1.files =
        (spoolRecords plainCodec pairFiles).filter fun record => !isSecond record := by
  refine (rejected_do_not_block_iff (pairAgent_ready 2) (by decide) rejectsFirst_decides).mpr ?_
  have queue : spoolRecords plainCodec (pairAgent 2).files = [spooledRecord 1, spooledRecord 2] :=
    pairFiles_records
  rw [queue]
  decide +kernel

end SystemPilot.Agent
