import Mathlib.Tactic
import SystemPilot.Agent.ExportWorker

/-!
# The batch and the spool agree

The worker removes by sequence what it was told about by message id.  That is
sound because a record file bears the sequence of the record it decodes to, and
because nothing but the worker removes or replaces a record file: the batch of
the retry loop is still in place when its answer arrives.
-/

set_option autoImplicit false

namespace SystemPilot.Agent

open SystemPilot.Library
open SystemPilot.Telemetry
open SystemPilot.Spool

/-- What is decoded from an encoded record has its sequence and its message
identifier. -/
def KeepsIdentity {Bytes : Type} (codec : Codec Bytes) : Prop :=
  ∀ envelope record, codec.fromSlice (codec.toVec envelope) = some record →
    record.sequence = envelope.sequence ∧ record.messageId = envelope.messageId

theorem KeepsIdentity.of_faithful {Bytes : Type} {codec : Codec Bytes}
    (faithful : codec.Faithful) : KeepsIdentity codec := by
  intro envelope record decoded
  rw [faithful] at decoded
  cases decoded
  exact ⟨rfl, rfl⟩

section Coherence

variable {Bytes : Type} {codec : Codec Bytes}

theorem decodeRecord_some {bytes : Bytes} {record : TelemetryEnvelope}
    (decoded : decodeRecord codec bytes = some record) :
    codec.fromSlice bytes = some record ∧ record.Valid := by
  unfold decodeRecord at decoded
  split at decoded
  · rename_i candidate parsed
    split at decoded
    · rename_i checked
      cases decoded
      exact ⟨parsed, (record.validate_ok_iff).mp checked⟩
    · contradiction
  · contradiction

variable (codec)

/-- Every record file that decodes bears the sequence of its record. -/
def WellNamed (files : SpoolFiles Bytes) : Prop :=
  ∀ path record, isRecordName path = true → Decoded codec files path record →
    path = recordName record.sequence

/-- The batch of the retry loop is in place. -/
structure Coherent (agent : AgentState Bytes) : Prop where
  named : WellNamed codec agent.files
  inPlace : ∀ batch attempt, agent.worker = .exporting batch attempt →
    ∀ record ∈ batch, Decoded codec agent.files (recordName record.sequence) record

variable {codec}

theorem Coherent.initial : Coherent codec ({} : AgentState Bytes) := by
  constructor
  · rintro path record _ ⟨file, found, _⟩
    simp at found
  · intro batch attempt exporting
    contradiction

/-- A temporary file shows under no record name. -/
theorem lookup_of_kept {files after : SpoolFiles Bytes}
    (records : after.records = files.records ∨
      ∃ name content, isRecordName name = false ∧
        after.records = files.records.insert name content)
    (path : String) (named : isRecordName path = true) :
    after.records[path]? = files.records[path]? := by
  rcases records with same | ⟨name, content, temporary, left⟩
  · rw [same]
  · rw [left, SortedMap.getElem?_insert_of_ne]
    rintro rfl
    rw [named] at temporary
    contradiction

theorem WellNamed.of_subset {files after : SpoolFiles Bytes} (named : WellNamed codec files)
    (subset : ∀ (path : String) (file : StoredFile Bytes), isRecordName path = true →
      after.records[path]? = some file → files.records[path]? = some file) :
    WellNamed codec after := by
  rintro path record isRecord ⟨file, found, decoded⟩
  exact named path record isRecord ⟨file, subset path file isRecord found, decoded⟩

/-- The step lemma: every change of the agent keeps the batch in place. -/
theorem AgentChange.coherent (identity : KeepsIdentity codec) {agent after : AgentState Bytes}
    {event : AgentEvent} {effects : List Effect}
    (change : AgentChange codec agent event after effects) (coherent : Coherent codec agent) :
    Coherent codec after := by
  cases change with
  | kept records quarantine counter drafts worker =>
      have lookup := lookup_of_kept records
      refine ⟨coherent.named.of_subset fun path file named found => ?_, ?_⟩
      · rw [← lookup path named, found]
      · intro batch attempt exporting record member
        obtain ⟨earlier, exported⟩ := worker batch attempt exporting
        obtain ⟨file, found, decoded⟩ := coherent.inPlace batch earlier exported record member
        exact ⟨file, by rw [lookup _ (isRecordName_recordName _), found], decoded⟩
  | reserved moment observed kind payload current asked records quarantine counter advanced
      bound drafts worker =>
      refine ⟨coherent.named.of_subset fun path file _ found => ?_, ?_⟩
      · rw [← records, found]
      · intro batch attempt exporting record member
        rw [worker] at exporting
        obtain ⟨file, found, decoded⟩ := coherent.inPlace batch attempt exporting record member
        exact ⟨file, by rw [records, found], decoded⟩
  | appended envelope index clock draft valid fresh files drafts worker =>
      constructor
      · rintro path record named ⟨file, found, decoded⟩
        rw [files] at found
        simp only [SortedMap.getElem?_insert] at found
        split at found
        · rename_i same
          cases found
          obtain ⟨sequence, _⟩ :=
            identity envelope record (decodeRecord_some decoded).1
          rw [← same, sequence]
        · exact coherent.named path record named ⟨file, found, decoded⟩
      · intro batch attempt exporting record member
        rw [worker] at exporting
        obtain ⟨file, found, decoded⟩ := coherent.inPlace batch attempt exporting record member
        refine ⟨file, ?_, decoded⟩
        rw [files, SortedMap.getElem?_insert_of_ne]
        · exact found
        · intro same
          rw [same, found] at fresh
          contradiction
  | quarantined moment crashAfter asked waiting moves drafts worker =>
      have named : WellNamed codec after.files :=
        coherent.named.of_subset fun path file _ found => moves.records_subset path file found
      refine ⟨named, ?_⟩
      intro batch attempt exporting record member
      obtain ⟨_, selected, sublist, all⟩ := worker batch attempt exporting
      obtain ⟨path, chosen, decoded⟩ := exists_decoded all record member
      have isRecord := mem_take_recordPaths _ _ path (sublist.subset chosen)
      rw [← named path record isRecord decoded]
      exact decoded
  | removed batch attempt acknowledgement records moment crashAfter answered exporting valid
      accepted removes drafts worker =>
      refine ⟨coherent.named.of_subset fun path file _ found => ?_, ?_⟩
      · rw [removes.lookup] at found
        split at found
        · contradiction
        · exact found
      · intro other next continued
        rw [worker] at continued
        contradiction

end Coherence

end SystemPilot.Agent
