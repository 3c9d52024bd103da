import Mathlib.Tactic
import SystemPilot.Library.Machine
import SystemPilot.Agent.Coherence

/-!
# Nothing leaves the spool on the agent's own account

The agent beside a ledger of what its steps appended and removed.  The sink may
answer anything.  The invariant `Accounted` places every appended record in the
records directory, in the quarantine or among the licensed removals, and counts
each exactly once.
-/

set_option autoImplicit false

namespace SystemPilot.Agent

open SystemPilot.Library
open SystemPilot.Telemetry
open SystemPilot.Spool

/-- The agent with the effects of its past steps. -/
structure Ledger (Bytes : Type) where
  agent : AgentState Bytes := {}
  history : List Effect := []

/-- The records whose append returned `Ok`. -/
def appendedRecords (history : List Effect) : List TelemetryEnvelope :=
  history.filterMap fun effect =>
    match effect with
    | .appended record => some record
    | .removed _ => none

def removals (history : List Effect) : List Removal :=
  history.filterMap fun effect =>
    match effect with
    | .appended _ => none
    | .removed removal => some removal

def ledgerStep {Bytes : Type} (codec : Codec Bytes) (ledger : Ledger Bytes)
    (event : AgentEvent) : Ledger Bytes where
  agent := (agentStep codec ledger.agent event).1
  history := ledger.history ++ (agentStep codec ledger.agent event).2

/-- A removal the answer of the sink asked for: the answer is valid for the
batch that contained the record, and accepts its message identifier. -/
structure Removal.Licensed (removal : Removal) : Prop where
  submitted : removal.record ∈ removal.batch
  valid : removal.acknowledgement.validate removal.batch = .ok ()
  accepted : removal.record.messageId ∈ removal.acknowledgement.acceptedMessageIds

section Effects

@[simp] theorem appendedRecords_append (first second : List Effect) :
    appendedRecords (first ++ second) = appendedRecords first ++ appendedRecords second :=
  List.filterMap_append

@[simp] theorem removals_append (first second : List Effect) :
    removals (first ++ second) = removals first ++ removals second :=
  List.filterMap_append

@[simp] theorem appendedRecords_nil : appendedRecords [] = [] := rfl

@[simp] theorem removals_nil : removals [] = [] := rfl

@[simp] theorem appendedRecords_appended (record : TelemetryEnvelope) :
    appendedRecords [.appended record] = [record] := rfl

@[simp] theorem removals_appended (record : TelemetryEnvelope) :
    removals [.appended record] = [] := rfl

@[simp] theorem appendedRecords_removed (records : List TelemetryEnvelope)
    (batch : List TelemetryEnvelope) (acknowledgement : IngestionAcknowledgement) :
    appendedRecords (records.map fun record => .removed ⟨record, batch, acknowledgement⟩) =
      [] := by
  simp [appendedRecords, List.filterMap_map]

@[simp] theorem removals_removed (records : List TelemetryEnvelope)
    (batch : List TelemetryEnvelope) (acknowledgement : IngestionAcknowledgement) :
    removals (records.map fun record => .removed ⟨record, batch, acknowledgement⟩) =
      records.map fun record => ⟨record, batch, acknowledgement⟩ := by
  simp [removals, List.filterMap_map, List.filterMap_eq_map']

theorem mem_acceptedRecords (acknowledgement : IngestionAcknowledgement)
    (batch : List TelemetryEnvelope) (record : TelemetryEnvelope) :
    record ∈ acknowledgement.acceptedRecords batch ↔
      record ∈ batch ∧ record.messageId ∈ acknowledgement.acceptedMessageIds := by
  rw [IngestionAcknowledgement.acceptedRecords, List.mem_filter, List.contains_iff_mem]

end Effects

section Invariant

variable {Bytes : Type} (codec : Codec Bytes)

/-- A directory holds the encoding of the record under the record's name. -/
def Holds (directory : Directory Bytes) (record : TelemetryEnvelope) : Prop :=
  ∃ file, directory[recordName record.sequence]? = some file ∧
    file.content = codec.toVec record

/-- The ledger accounts for every file and every appended record. -/
structure Accounted (ledger : Ledger Bytes) : Prop where
  coherent : Coherent codec ledger.agent
  counter : ∃ current, readSequence ledger.agent.files.root = .ok current ∧
    ∀ record ∈ ledger.agent.drafts ++ appendedRecords ledger.history,
      record.sequence ≤ current
  distinct : ((ledger.agent.drafts ++ appendedRecords ledger.history).map
    TelemetryEnvelope.sequence).Nodup
  recorded : ∀ (path : String) (file : StoredFile Bytes), isRecordName path = true →
    ledger.agent.files.records[path]? = some file →
      ∃ record ∈ appendedRecords ledger.history,
        path = recordName record.sequence ∧ file.content = codec.toVec record
  quarantined : ∀ (path : String) (file : StoredFile Bytes),
    ledger.agent.files.quarantine[path]? = some file →
      ∃ record ∈ appendedRecords ledger.history,
        path = recordName record.sequence ∧ file.content = codec.toVec record
  apart : ledger.agent.files.Apart
  located : ∀ record ∈ appendedRecords ledger.history,
    Holds codec ledger.agent.files.records record ∨
      Holds codec ledger.agent.files.quarantine record ∨
      ∃ removal ∈ removals ledger.history,
        removal.record.sequence = record.sequence ∧
          removal.record.messageId = record.messageId
  removedOnce : ((removals ledger.history).map fun removal => removal.record.sequence).Nodup
  gone : ∀ removal ∈ removals ledger.history,
    ledger.agent.files.records[recordName removal.record.sequence]? = none ∧
      ∃ record ∈ appendedRecords ledger.history,
        removal.record.sequence = record.sequence
  licensed : ∀ removal ∈ removals ledger.history, removal.Licensed
  count : (appendedRecords ledger.history).length =
    SortedMap.countKeys isRecordName ledger.agent.files.records +
      ledger.agent.files.quarantine.size + (removals ledger.history).length

theorem Accounted.initial : Accounted codec ({} : Ledger Bytes) where
  coherent := Coherent.initial
  counter := ⟨0, by simp [readSequence], by simp⟩
  distinct := by simp
  recorded := by simp
  quarantined := by simp
  apart := by
    intro path kept
    simp
  located := by simp
  removedOnce := by simp
  gone := by simp
  licensed := by simp
  count := by simp

variable {codec}

theorem Accounted.kept {ledger : Ledger Bytes} (accounted : Accounted codec ledger)
    (after : AgentState Bytes) (coherent : Coherent codec after)
    (records : after.files.records = ledger.agent.files.records ∨
      ∃ name content, isRecordName name = false ∧
        after.files.records = ledger.agent.files.records.insert name content)
    (quarantine : after.files.quarantine = ledger.agent.files.quarantine)
    (counter : readSequence after.files.root = readSequence ledger.agent.files.root)
    (drafts : after.drafts.Sublist ledger.agent.drafts) :
    Accounted codec ⟨after, ledger.history⟩ := by
  have lookup := lookup_of_kept records
  have shorter := drafts.append (List.Sublist.refl (appendedRecords ledger.history))
  constructor
  · exact coherent
  · obtain ⟨current, read, bound⟩ := accounted.counter
    exact ⟨current, by rw [counter, read], fun record member =>
      bound record (shorter.subset member)⟩
  · exact accounted.distinct.sublist (shorter.map _)
  · intro path file named found
    rw [lookup path named] at found
    exact accounted.recorded path file named found
  · intro path file found
    rw [quarantine] at found
    exact accounted.quarantined path file found
  · intro path present
    rw [quarantine]
    by_cases named : isRecordName path = true
    · rw [lookup path named] at present
      exact accounted.apart path present
    · -- only record names lie in the quarantine
      by_contra quarantinedFile
      obtain ⟨file, found⟩ := Option.ne_none_iff_exists'.mp quarantinedFile
      obtain ⟨record, _, rfl, _⟩ := accounted.quarantined path file found
      exact named (isRecordName_recordName _)
  · intro record member
    rw [Holds, Holds, lookup _ (isRecordName_recordName _), quarantine]
    exact accounted.located record member
  · exact accounted.removedOnce
  · intro removal member
    rw [lookup _ (isRecordName_recordName _)]
    exact accounted.gone removal member
  · exact accounted.licensed
  · have counted : SortedMap.countKeys isRecordName after.files.records =
        SortedMap.countKeys isRecordName ledger.agent.files.records := by
      rcases records with same | ⟨name, content, temporary, left⟩
      · rw [same]
      · rw [left, SortedMap.countKeys_insert_other _ _ _ _ temporary]
    rw [counted, quarantine]
    exact accounted.count

/-- A reserved sequence is above every sequence in use. -/
theorem Accounted.reserved {ledger : Ledger Bytes} (accounted : Accounted codec ledger)
    (after : AgentState Bytes) (coherent : Coherent codec after)
    (envelope : TelemetryEnvelope) (current : Nat)
    (records : after.files.records = ledger.agent.files.records)
    (quarantine : after.files.quarantine = ledger.agent.files.quarantine)
    (counter : readSequence ledger.agent.files.root = .ok current)
    (advanced : readSequence after.files.root = .ok (current + 1))
    (sequence : envelope.sequence = current + 1)
    (drafts : after.drafts = ledger.agent.drafts ++ [envelope]) :
    Accounted codec ⟨after, ledger.history⟩ := by
  have below : ∀ record ∈ ledger.agent.drafts ++ appendedRecords ledger.history,
      record.sequence ≤ current := by
    obtain ⟨value, read, bound⟩ := accounted.counter
    rw [counter] at read
    cases read
    exact bound
  have reordered : (after.drafts ++ appendedRecords ledger.history).Perm
      (envelope :: (ledger.agent.drafts ++ appendedRecords ledger.history)) := by
    rw [drafts, List.append_assoc, List.singleton_append]
    exact List.perm_middle
  constructor
  · exact coherent
  · refine ⟨current + 1, advanced, ?_⟩
    intro record member
    rcases List.mem_cons.mp (reordered.subset member) with rfl | member
    · omega
    · exact Nat.le_succ_of_le (below record member)
  · rw [(reordered.map TelemetryEnvelope.sequence).nodup_iff, List.map_cons, List.nodup_cons]
    refine ⟨?_, accounted.distinct⟩
    intro again
    obtain ⟨record, member, same⟩ := List.mem_map.mp again
    have bound := below record member
    omega
  · simpa only [records] using accounted.recorded
  · simpa only [quarantine] using accounted.quarantined
  · intro path
    simpa only [records, quarantine] using accounted.apart path
  · simpa only [records, quarantine] using accounted.located
  · exact accounted.removedOnce
  · simpa only [records] using accounted.gone
  · exact accounted.licensed
  · simpa only [records, quarantine] using accounted.count

/-- The appended record takes a name no file and no removal ever had. -/
theorem Accounted.appended {ledger : Ledger Bytes} (accounted : Accounted codec ledger)
    (after : AgentState Bytes) (coherent : Coherent codec after)
    (envelope : TelemetryEnvelope) (index clock : Nat)
    (draft : ledger.agent.drafts[index]? = some envelope)
    (fresh : ledger.agent.files.records[recordName envelope.sequence]? = none)
    (files : after.files = { ledger.agent.files with
      records := ledger.agent.files.records.insert (recordName envelope.sequence)
        ⟨codec.toVec envelope, clock⟩ })
    (drafts : after.drafts = ledger.agent.drafts.eraseIdx index) :
    Accounted codec ⟨after, ledger.history ++ [.appended envelope]⟩ := by
  obtain ⟨bound, rfl⟩ := List.getElem?_eq_some_iff.mp draft
  have reordered : (after.drafts ++ (appendedRecords ledger.history ++
      [ledger.agent.drafts[index]])).Perm
      (ledger.agent.drafts ++ appendedRecords ledger.history) := by
    rw [drafts, ← List.append_assoc]
    refine List.perm_append_comm.trans ?_
    rw [← List.append_assoc]
    exact (List.getElem_cons_eraseIdx_perm bound).append_right _
  have unused : ∀ record ∈ appendedRecords ledger.history,
      ledger.agent.drafts[index].sequence ≠ record.sequence := by
    have apart := List.disjoint_of_nodup_append
      (by simpa only [List.map_append] using accounted.distinct)
    intro record member same
    exact apart (List.mem_map.mpr ⟨_, List.getElem_mem bound, rfl⟩)
      (List.mem_map.mpr ⟨record, member, same.symm⟩)
  have unquarantined : ledger.agent.files.quarantine[
      recordName ledger.agent.drafts[index].sequence]? = none := by
    by_contra present
    obtain ⟨file, found⟩ := Option.ne_none_iff_exists'.mp present
    obtain ⟨record, member, same, _⟩ := accounted.quarantined _ file found
    exact unused record member (recordName_injective same)
  constructor
  · exact coherent
  · obtain ⟨current, read, below⟩ := accounted.counter
    refine ⟨current, by rw [files]; exact read, ?_⟩
    intro record member
    rw [appendedRecords_append, appendedRecords_appended] at member
    exact below record (reordered.subset member)
  · rw [appendedRecords_append, appendedRecords_appended,
      (reordered.map TelemetryEnvelope.sequence).nodup_iff]
    exact accounted.distinct
  · intro path file named found
    rw [appendedRecords_append, appendedRecords_appended]
    simp only [files, SortedMap.getElem?_insert] at found
    split at found
    · rename_i same
      cases found
      exact ⟨_, List.mem_append_right _ (List.mem_singleton_self _), same.symm, rfl⟩
    · obtain ⟨record, member, facts⟩ := accounted.recorded path file named found
      exact ⟨record, List.mem_append_left _ member, facts⟩
  · intro path file found
    rw [appendedRecords_append, appendedRecords_appended]
    simp only [files] at found
    obtain ⟨record, member, facts⟩ := accounted.quarantined path file found
    exact ⟨record, List.mem_append_left _ member, facts⟩
  · intro path present
    simp only [files, SortedMap.getElem?_insert] at present ⊢
    split at present
    · rename_i same
      rw [← same]
      exact unquarantined
    · exact accounted.apart path present
  · intro record member
    rw [appendedRecords_append, appendedRecords_appended, List.mem_append,
      List.mem_singleton] at member
    simp only [files, removals_append, removals_appended, List.append_nil]
    rcases member with member | rfl
    · rcases accounted.located record member with ⟨file, found, content⟩ | elsewhere
      · left
        refine ⟨file, ?_, content⟩
        rw [SortedMap.getElem?_insert_of_ne]
        · exact found
        · exact fun same => unused record member (recordName_injective same)
      · exact Or.inr elsewhere
    · left
      exact ⟨_, by rw [SortedMap.getElem?_insert, if_pos rfl], rfl⟩
  · simpa using accounted.removedOnce
  · intro removal member
    simp only [removals_append, removals_appended, List.append_nil] at member
    obtain ⟨absent, record, recordMember, sequence⟩ := accounted.gone removal member
    rw [appendedRecords_append, appendedRecords_appended]
    simp only [files]
    refine ⟨?_, record, List.mem_append_left _ recordMember, sequence⟩
    rw [SortedMap.getElem?_insert_of_ne]
    · exact absent
    · intro same
      have sequences := recordName_injective same
      exact unused record recordMember (by rw [sequences, sequence])
  · simpa using accounted.licensed
  · have inserted := SortedMap.countKeys_insert_fresh isRecordName ledger.agent.files.records
      (recordName ledger.agent.drafts[index].sequence)
      ⟨codec.toVec ledger.agent.drafts[index], clock⟩ (isRecordName_recordName _) fresh
    have counted := accounted.count
    simp only [files, appendedRecords_append, appendedRecords_appended, removals_append,
      removals_appended, List.append_nil, List.length_append, List.length_singleton, inserted]
    omega

theorem Holds.quarantines {files after : SpoolFiles Bytes} {record : TelemetryEnvelope}
    (held : Holds codec files.records record) (moves : Quarantines codec files after) :
    Holds codec after.records record ∨ Holds codec after.quarantine record := by
  obtain ⟨file, found, content⟩ := held
  rcases moves.kept_or_moved _ file found with stays | moved
  · exact Or.inl ⟨file, stays, content⟩
  · exact Or.inr ⟨file, moved, content⟩

/-- Moving undecodable records to the quarantine loses none of them. -/
theorem Accounted.quarantines {ledger : Ledger Bytes} (accounted : Accounted codec ledger)
    (after : AgentState Bytes) (coherent : Coherent codec after)
    (moves : Quarantines codec ledger.agent.files after.files)
    (drafts : after.drafts.Sublist ledger.agent.drafts) :
    Accounted codec ⟨after, ledger.history⟩ := by
  have shorter := drafts.append (List.Sublist.refl (appendedRecords ledger.history))
  constructor
  · exact coherent
  · obtain ⟨current, read, bound⟩ := accounted.counter
    exact ⟨current, by rw [moves.root, read], fun record member =>
      bound record (shorter.subset member)⟩
  · exact accounted.distinct.sublist (shorter.map _)
  · intro path file named found
    exact accounted.recorded path file named (moves.records_subset path file found)
  · intro path file found
    rcases moves.quarantine_source path file found with before | ⟨named, before⟩
    · exact accounted.quarantined path file before
    · exact accounted.recorded path file named before
  · exact moves.apart accounted.apart
  · intro record member
    rcases accounted.located record member with held | held | removed
    · rcases held.quarantines moves with stays | moved
      · exact Or.inl stays
      · exact Or.inr (Or.inl moved)
    · obtain ⟨file, found, content⟩ := held
      have absent : ledger.agent.files.records[recordName record.sequence]? = none := by
        by_contra present
        rw [accounted.apart _ present] at found
        contradiction
      exact Or.inr (Or.inl ⟨file, (moves.quarantined_stays _ file found absent).1, content⟩)
    · exact Or.inr (Or.inr removed)
  · exact accounted.removedOnce
  · intro removal member
    obtain ⟨absent, source⟩ := accounted.gone removal member
    refine ⟨?_, source⟩
    by_contra present
    obtain ⟨file, found⟩ := Option.ne_none_iff_exists'.mp present
    rw [moves.records_subset _ file found] at absent
    contradiction
  · exact accounted.licensed
  · rw [moves.count accounted.apart]
    exact accounted.count

/-- The worker removes what a valid answer accepts, each record once. -/
theorem Accounted.removed (identity : KeepsIdentity codec) {ledger : Ledger Bytes}
    (accounted : Accounted codec ledger)
    (after : AgentState Bytes) (coherent : Coherent codec after)
    (batch : List TelemetryEnvelope) (attempt : Nat)
    (acknowledgement : IngestionAcknowledgement) (records : List TelemetryEnvelope)
    (exporting : ledger.agent.worker = .exporting batch attempt)
    (valid : acknowledgement.validate batch = .ok ())
    (accepted : records.Sublist (acknowledgement.acceptedRecords batch))
    (removes : Removes records ledger.agent.files after.files)
    (drafts : after.drafts.Sublist ledger.agent.drafts) :
    Accounted codec ⟨after, ledger.history ++
      records.map fun record => .removed ⟨record, batch, acknowledgement⟩⟩ := by
  have shorter := drafts.append (List.Sublist.refl (appendedRecords ledger.history))
  obtain ⟨root, quarantine⟩ := removes.unchanged
  obtain ⟨present, once⟩ := removes.present
  have submitted : ∀ record ∈ records, record ∈ batch ∧
      record.messageId ∈ acknowledgement.acceptedMessageIds := fun record member =>
    (mem_acceptedRecords acknowledgement batch record).mp (accepted.subset member)
  have subset : ∀ (path : String) (file : StoredFile Bytes),
      after.files.records[path]? = some file →
        ledger.agent.files.records[path]? = some file := by
    intro path file found
    rw [removes.lookup] at found
    split at found
    · contradiction
    · exact found
  constructor
  · exact coherent
  · obtain ⟨current, read, bound⟩ := accounted.counter
    refine ⟨current, by rw [root, read], ?_⟩
    simp only [appendedRecords_append, appendedRecords_removed, List.append_nil]
    exact fun record member => bound record (shorter.subset member)
  · simp only [appendedRecords_append, appendedRecords_removed, List.append_nil]
    exact accounted.distinct.sublist (shorter.map _)
  · simp only [appendedRecords_append, appendedRecords_removed, List.append_nil]
    exact fun path file named found => accounted.recorded path file named (subset path file found)
  · simp only [appendedRecords_append, appendedRecords_removed, List.append_nil, quarantine]
    exact accounted.quarantined
  · intro path kept
    rw [quarantine]
    obtain ⟨file, found⟩ := Option.ne_none_iff_exists'.mp kept
    exact accounted.apart path (by simp [subset path file found])
  · simp only [appendedRecords_append, appendedRecords_removed, List.append_nil, removals_append,
      removals_removed]
    intro record member
    rcases accounted.located record member with held | held | ⟨removal, old, facts⟩
    · by_cases named : recordName record.sequence ∈
          records.map fun record => recordName record.sequence
      · -- the removed record was decoded from this very file
        obtain ⟨removed, removedMember, same⟩ := List.mem_map.mp named
        obtain ⟨file, found, content⟩ := held
        obtain ⟨inPlace, placed, decoded⟩ := accounted.coherent.inPlace batch attempt exporting
          removed (submitted removed removedMember).1
        rw [same, found] at placed
        cases placed
        rw [content] at decoded
        obtain ⟨sequence, messageId⟩ := identity record removed (decodeRecord_some decoded).1
        exact Or.inr (Or.inr ⟨_, List.mem_append_right _ (List.mem_map_of_mem removedMember),
          sequence, messageId⟩)
      · obtain ⟨file, found, content⟩ := held
        exact Or.inl ⟨file, by rw [removes.lookup, if_neg named, found], content⟩
    · rw [quarantine]
      exact Or.inr (Or.inl held)
    · exact Or.inr (Or.inr ⟨removal, List.mem_append_left _ old, facts⟩)
  · simp only [removals_append, removals_removed, List.map_append, List.map_map]
    refine List.Nodup.append accounted.removedOnce once ?_
    intro sequence old new
    obtain ⟨removal, removalMember, rfl⟩ := List.mem_map.mp old
    obtain ⟨record, recordMember, same⟩ := List.mem_map.mp new
    obtain ⟨file, found⟩ := present record recordMember
    rw [show record.sequence = removal.record.sequence from same,
      (accounted.gone removal removalMember).1] at found
    contradiction
  · simp only [appendedRecords_append, appendedRecords_removed, List.append_nil, removals_append,
      removals_removed]
    intro removal member
    rcases List.mem_append.mp member with old | new
    · obtain ⟨absent, source⟩ := accounted.gone removal old
      refine ⟨?_, source⟩
      rw [removes.lookup]
      split
      · rfl
      · exact absent
    · obtain ⟨record, recordMember, rfl⟩ := List.mem_map.mp new
      obtain ⟨file, found⟩ := present record recordMember
      obtain ⟨source, sourceMember, same, _⟩ :=
        accounted.recorded _ file (isRecordName_recordName _) found
      refine ⟨?_, source, sourceMember, recordName_injective same⟩
      rw [removes.lookup, if_pos (List.mem_map_of_mem recordMember)]
  · simp only [removals_append, removals_removed]
    intro removal member
    rcases List.mem_append.mp member with old | new
    · exact accounted.licensed removal old
    · obtain ⟨record, recordMember, rfl⟩ := List.mem_map.mp new
      exact ⟨(submitted record recordMember).1, valid, (submitted record recordMember).2⟩
  · have counted := accounted.count
    have left := removes.count
    simp only [appendedRecords_append, appendedRecords_removed, List.append_nil, removals_append,
      removals_removed, List.length_append, List.length_map, quarantine]
    omega

/-- The step lemma. -/
theorem ledgerStep_accounted (identity : KeepsIdentity codec) (ledger : Ledger Bytes)
    (event : AgentEvent) (accounted : Accounted codec ledger) :
    Accounted codec (ledgerStep codec ledger event) := by
  have change := agentStep_change codec ledger.agent event
  have coherent := change.coherent identity accounted.coherent
  unfold ledgerStep
  generalize (agentStep codec ledger.agent event).1 = after at change coherent
  generalize (agentStep codec ledger.agent event).2 = effects at change
  cases change with
  | kept records quarantine counter drafts worker =>
      rw [List.append_nil]
      exact accounted.kept after coherent records quarantine counter drafts
  | reserved moment observed kind payload current asked records quarantine counter advanced
      bound drafts worker =>
      rw [List.append_nil]
      exact accounted.reserved after coherent _ current records quarantine counter advanced rfl
        drafts
  | appended envelope index clock draft valid fresh files drafts worker =>
      exact accounted.appended after coherent envelope index clock draft fresh files drafts
  | quarantined moment crashAfter asked waiting moves drafts worker =>
      rw [List.append_nil]
      exact accounted.quarantines after coherent moves drafts
  | removed batch attempt acknowledgement records moment crashAfter answered exporting valid
      accepted removes drafts worker =>
      exact accounted.removed identity after coherent batch attempt acknowledgement records
        exporting valid accepted removes drafts

/-- The run lemma, for every answer of the sink. -/
theorem run_accounted (identity : KeepsIdentity codec) (events : List AgentEvent) :
    Accounted codec (Machine.run (ledgerStep codec) {} events) :=
  Machine.run_invariant_always (ledgerStep codec) (Accounted codec)
    (ledgerStep_accounted identity) {} events (Accounted.initial codec)

end Invariant

/-! ## The guarantee -/

section Guarantee

variable {Bytes : Type} (codec : Codec Bytes)

/-- A step in which a record file vanishes from both directories is a valid
answer that accepts the record. -/
def RemovesOnlyAccepted (ledger : Ledger Bytes) (event : AgentEvent) : Prop :=
  let after := ledgerStep codec ledger event
  ∀ path : String, isRecordName path = true →
    ledger.agent.files.records[path]? ≠ none → after.agent.files.records[path]? = none →
    after.agent.files.quarantine[path]? = none →
      ∃ acknowledgement moment crashAfter batch attempt record,
        event = .answer (.ok acknowledgement) moment crashAfter ∧
          ledger.agent.worker = .exporting batch attempt ∧
          path = recordName record.sequence ∧
          Removal.Licensed ⟨record, batch, acknowledgement⟩

theorem ledgerStep_removesOnlyAccepted (ledger : Ledger Bytes) (event : AgentEvent) :
    RemovesOnlyAccepted codec ledger event := by
  intro path named present absent unquarantined
  have change := agentStep_change codec ledger.agent event
  simp only [ledgerStep] at absent unquarantined
  generalize (agentStep codec ledger.agent event).1 = next at change absent unquarantined
  generalize (agentStep codec ledger.agent event).2 = effects at change
  cases change with
  | kept records quarantine counter drafts worker =>
      rw [lookup_of_kept records path named] at absent
      exact absurd absent present
  | reserved moment observed kind payload current asked records quarantine counter advanced
      bound drafts worker =>
      rw [records] at absent
      exact absurd absent present
  | appended envelope index clock draft valid fresh files drafts worker =>
      simp only [files, SortedMap.getElem?_insert] at absent
      split at absent
      · contradiction
      · exact absurd absent present
  | quarantined moment crashAfter asked waiting moves drafts worker =>
      obtain ⟨file, found⟩ := Option.ne_none_iff_exists'.mp present
      rcases moves.kept_or_moved path file found with stays | moved
      · rw [absent] at stays
        contradiction
      · rw [unquarantined] at moved
        contradiction
  | removed batch attempt acknowledgement records moment crashAfter answered exporting valid
      accepted removes drafts worker =>
      rw [removes.lookup] at absent
      split at absent
      · rename_i removed
        obtain ⟨record, member, rfl⟩ := List.mem_map.mp removed
        obtain ⟨submitted, acceptedId⟩ :=
          (mem_acceptedRecords acknowledgement batch record).mp (accepted.subset member)
        exact ⟨acknowledgement, moment, crashAfter, batch, attempt, record, answered, exporting,
          rfl, submitted, valid, acceptedId⟩
      · exact absurd absent present

/-- Whatever the sink answers, every appended record is a pending record, a
quarantined one, or was removed because a valid answer for its batch accepted
its message identifier; nothing is removed twice and the numbers add up. -/
theorem agent_discards_nothing (identity : KeepsIdentity codec) (events : List AgentEvent) :
    let ledger := Machine.run (ledgerStep codec) {} events
    (∀ record ∈ appendedRecords ledger.history,
      Holds codec ledger.agent.files.records record ∨
        Holds codec ledger.agent.files.quarantine record ∨
        ∃ removal ∈ removals ledger.history,
          removal.record.sequence = record.sequence ∧
            removal.record.messageId = record.messageId ∧ removal.Licensed) ∧
      ((appendedRecords ledger.history).map TelemetryEnvelope.sequence).Nodup ∧
      ((removals ledger.history).map fun removal => removal.record.sequence).Nodup ∧
      (appendedRecords ledger.history).length =
        SortedMap.countKeys isRecordName ledger.agent.files.records +
          ledger.agent.files.quarantine.size + (removals ledger.history).length ∧
      Machine.EveryStep (ledgerStep codec) (RemovesOnlyAccepted codec) {} events := by
  intro ledger
  have accounted := run_accounted identity events
  refine ⟨?_, ?_, accounted.removedOnce, accounted.count, ?_⟩
  · intro record member
    rcases accounted.located record member with held | held | ⟨removal, old, facts⟩
    · exact Or.inl held
    · exact Or.inr (Or.inl held)
    · exact Or.inr (Or.inr ⟨removal, old, facts.1, facts.2, accounted.licensed removal old⟩)
  · have whole := accounted.distinct
    rw [List.map_append] at whole
    exact whole.of_append_right
  · exact fun pair _ => ledgerStep_removesOnlyAccepted codec pair.1 pair.2

end Guarantee

/-- A record the agent appended and removed again. -/
def deliveredEvents : List AgentEvent :=
  let record := ({ nodeId := "nodea" } : TelemetryPublisher).envelope 1 1700000000000000000 .health
    (.bool true)
  [.restart plainStartup (plainConfig "nodea"),
    .reserve plainMoment 1700000000000000000 .health (.ok (.bool true)),
    .append 0 plainMoment,
    .snapshot plainMoment none,
    .answer (.ok (IngestionAcknowledgement.wholeBatch [record])) plainMoment none]

theorem agent_discards_nothing_delivered :
    let ledger := Machine.run (ledgerStep plainCodec) {} deliveredEvents
    (removals ledger.history).length = 1 ∧
      (appendedRecords ledger.history).length =
        SortedMap.countKeys isRecordName ledger.agent.files.records +
          ledger.agent.files.quarantine.size + (removals ledger.history).length :=
  ⟨by decide,
    (agent_discards_nothing plainCodec (.of_faithful plainCodec_faithful)
      deliveredEvents).2.2.2.1⟩

end SystemPilot.Agent
