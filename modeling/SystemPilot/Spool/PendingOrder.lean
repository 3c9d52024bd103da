import Mathlib.Tactic
import SystemPilot.Spool.Effects

/-!
# The order of the pending records

`pending` sorts file names and takes the first `limit`.  Record names are the
sequences padded to twenty digits, as many as a `u64` needs, so their order as
text is the order of the sequences.
-/

set_option autoImplicit false

namespace SystemPilot.Spool

open SystemPilot.Text
open SystemPilot.Library
open SystemPilot.Telemetry

/-- The number a record name is padded from. -/
def recordSequence (name : String) : Nat :=
  Nat.ofDigitChars 10 (splitExtension name).1 0

@[simp] theorem recordSequence_recordName (sequence : Nat) :
    recordSequence (recordName sequence) = sequence := by
  rw [recordSequence, splitExtension_recordName, ofDigitChars_padDecimal]

/-- Twenty digits hold every `u64`. -/
theorem recordName_lt_iff {left right : Nat} (leftFits : left < 2 ^ 64)
    (rightFits : right < 2 ^ 64) : recordName left < recordName right ↔ left < right := by
  have room : 2 ^ 64 ≤ 10 ^ 20 := by decide
  have lengths : (padDecimal 20 left).length = (padDecimal 20 right).length := by
    rw [padDecimal_length (by omega) (leftFits.trans_le room),
      padDecimal_length (by omega) (rightFits.trans_le room)]
  rw [← padDecimal_lt_iff (by omega) (leftFits.trans_le room) (rightFits.trans_le room),
    String.lt_iff]
  simp only [recordName, String.toList_ofList]
  exact append_lt_append_iff _ lengths

section Pending

variable {Bytes : Type} (codec : Codec Bytes)

theorem recordPaths_sorted (records : Directory Bytes) :
    (recordPaths records).Pairwise (· < ·) := by
  have sorted := Std.ExtTreeMap.ordered_keys (t := records)
  have strict : records.keys.Pairwise (· < ·) :=
    sorted.imp fun ordered => compareOfLessAndEq_eq_lt.mp ordered
  exact strict.filter isRecordName

/-- Every record file is named by a sequence that is a `u64`. -/
def Numbered (files : SpoolFiles Bytes) : Prop :=
  ∀ path ∈ recordPaths files.records, ∃ sequence, path = recordName sequence ∧ sequence < 2 ^ 64

/-- The sequences of the records directory in the order of their names. -/
def pendingSequences (files : SpoolFiles Bytes) : List Nat :=
  (recordPaths files.records).map recordSequence

def readRecord (files : SpoolFiles Bytes) (sequence : Nat) : Option TelemetryEnvelope :=
  files.records[recordName sequence]?.bind fun file => decodeRecord codec file.content

theorem recordName_recordSequence {files : SpoolFiles Bytes} (numbered : Numbered files)
    {path : String} (member : path ∈ recordPaths files.records) :
    recordName (recordSequence path) = path := by
  obtain ⟨sequence, rfl, _⟩ := numbered path member
  rw [recordSequence_recordName]

theorem mem_pendingSequences {files : SpoolFiles Bytes} (numbered : Numbered files)
    (sequence : Nat) :
    sequence ∈ pendingSequences files ↔ ∃ file, files.records[recordName sequence]? = some file := by
  rw [pendingSequences, List.mem_map]
  constructor
  · rintro ⟨path, member, rfl⟩
    rw [recordName_recordSequence numbered member]
    exact ((mem_recordPaths files.records path).mp member).2
  · intro present
    exact ⟨recordName sequence, (mem_recordPaths _ _).mpr ⟨isRecordName_recordName _, present⟩,
      recordSequence_recordName sequence⟩

theorem pendingSequences_sorted {files : SpoolFiles Bytes} (numbered : Numbered files) :
    (pendingSequences files).Pairwise (· < ·) := by
  rw [pendingSequences, List.pairwise_map]
  refine (recordPaths_sorted files.records).imp_of_mem ?_
  intro first second firstMember secondMember ordered
  obtain ⟨left, rfl, leftFits⟩ := numbered first firstMember
  obtain ⟨right, rfl, rightFits⟩ := numbered second secondMember
  rw [recordSequence_recordName, recordSequence_recordName]
  exact (recordName_lt_iff leftFits rightFits).mp ordered

/-- What the loop returns are the records that decode, in the order of the paths;
the other files are in the quarantine afterwards. -/
theorem pendingLoop_ok (faults : Faults) (paths : List String) (files after : SpoolFiles Bytes)
    (batch : List TelemetryEnvelope) (distinct : paths.Nodup)
    (named : ∀ path ∈ paths, isRecordName path = true)
    (result : pendingLoop codec faults paths files = (after, .ok batch)) :
    (batch = paths.filterMap fun path =>
      files.records[path]?.bind fun file => decodeRecord codec file.content) ∧
    ∀ path ∈ paths, ∀ file : StoredFile Bytes, files.records[path]? = some file →
      decodeRecord codec file.content = none →
        after.records[path]? = none ∧ after.quarantine[path]? = some file := by
  induction paths generalizing files batch with
  | nil =>
      cases result
      exact ⟨rfl, by simp⟩
  | cons path rest inductionHypothesis =>
      have restNamed : ∀ other ∈ rest, isRecordName other = true :=
        fun other member => named other (by simp [member])
      obtain ⟨absent, restDistinct⟩ := List.nodup_cons.mp distinct
      rw [pendingLoop] at result
      split at result
      · cases result
      · cases result
      · rename_i file found readable
        split at result
        · rename_i record decoded
          split at result
          · rename_i reached records exact_
            cases result
            obtain ⟨rest_, moved⟩ := inductionHypothesis files records restDistinct restNamed exact_
            refine ⟨by simp [found, decoded, rest_], ?_⟩
            intro other member content present refused
            rcases List.mem_cons.mp member with rfl | member
            · rw [found] at present
              cases present
              rw [decoded] at refused
              contradiction
            · exact moved other member content present refused
          · cases result
        · rename_i refused
          split at result
          · cases result
          · have moves := pendingLoop_quarantines codec faults rest
              { files with
                records := files.records.erase path
                quarantine := files.quarantine.insert path file } restNamed
            rw [result] at moves
            obtain ⟨rest_, moved⟩ := inductionHypothesis _ batch restDistinct restNamed result
            have others : ∀ other ∈ rest, path ≠ other := by
              rintro other member rfl
              exact absent member
            constructor
            · rw [rest_, List.filterMap_cons, found, Option.bind_some, refused]
              apply List.filterMap_congr
              intro other member
              rw [SortedMap.getElem?_erase_of_ne _ (others other member)]
            · intro other member content present undecoded
              rcases List.mem_cons.mp member with rfl | member
              · rw [found] at present
                cases present
                exact (moves.quarantined_stays other file (by simp) (by simp)).symm
              · refine moved other member content ?_ undecoded
                rw [SortedMap.getElem?_erase_of_ne _ (others other member)]
                exact present

/-- The batch is what decodes of the `limit` smallest pending sequences, in their
order; the others of these are in the quarantine. -/
structure SmallestPending (limit : Nat) (files after : SpoolFiles Bytes)
    (batch : List TelemetryEnvelope) : Prop where
  sorted : (pendingSequences files).Pairwise (· < ·)
  complete : ∀ sequence, sequence ∈ pendingSequences files ↔
    ∃ file, files.records[recordName sequence]? = some file
  batch : batch = ((pendingSequences files).take limit).filterMap (readRecord codec files)
  quarantined : ∀ sequence ∈ (pendingSequences files).take limit,
    readRecord codec files sequence = none →
      after.records[recordName sequence]? = none ∧
        after.quarantine[recordName sequence]? = files.records[recordName sequence]?

theorem pending_smallest (faults : Faults) (limit : Nat) (files after : SpoolFiles Bytes)
    (batch : List TelemetryEnvelope) (numbered : Numbered files)
    (result : pending codec faults limit files = (after, .ok batch)) :
    SmallestPending codec limit files after batch := by
  unfold pending at result
  split at result
  case isTrue => cases result
  case isFalse =>
    obtain ⟨decoded, moved⟩ := pendingLoop_ok codec faults _ files after batch
      ((recordPaths_nodup _).sublist (List.take_sublist _ _))
      (mem_take_recordPaths files.records limit) result
    exact {
      sorted := pendingSequences_sorted numbered
      complete := mem_pendingSequences numbered
      batch := by
        rw [decoded, pendingSequences, ← List.map_take, List.filterMap_map]
        apply List.filterMap_congr
        intro path member
        rw [Function.comp_apply, readRecord,
          recordName_recordSequence numbered (List.mem_of_mem_take member)]
      quarantined := by
        intro sequence member undecoded
        rw [pendingSequences, ← List.map_take] at member
        obtain ⟨path, chosen, rfl⟩ := List.mem_map.mp member
        have listed := List.mem_of_mem_take chosen
        obtain ⟨file, found⟩ := ((mem_recordPaths files.records path).mp listed).2
        rw [readRecord] at undecoded
        rw [recordName_recordSequence numbered listed] at undecoded ⊢
        rw [found]
        rw [found, Option.bind_some] at undecoded
        exact moved path chosen file found undecoded }

end Pending

end SystemPilot.Spool
