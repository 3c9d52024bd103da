import Mathlib.Tactic
import SystemPilot.Library.SortedMap
import SystemPilot.Spool.DiskSpool

/-!
# What the spool operations change

One statement for each operation, complete enough that no later proof unfolds
it: the counter only grows, `append` adds one fresh record or nothing,
`pending` only moves undecodable records to the quarantine, and `acknowledge`
removes records one by one.
-/

set_option autoImplicit false

namespace SystemPilot.Spool

open SystemPilot.Text
open SystemPilot.Library
open SystemPilot.Telemetry

/-! ## Writes -/

/-- A write puts the file under its name, or leaves at most its temporary file. -/
theorem atomicWrite_cases {Content : Type} (processId clock : Nat) (fault : Option WriteFault)
    (directory : Directory Content) (name : String) (content : Content) :
    let written := atomicWrite processId clock fault directory name content
    written = (directory.insert name ⟨content, clock⟩, .ok ()) ∨
      (written.2 ≠ .ok () ∧
        (written.1 = directory ∨
          written.1 = directory.insert (temporaryName processId name) ⟨content, clock⟩)) := by
  unfold atomicWrite
  by_cases present : temporaryName processId name ∈ directory
  · simp [present]
  · cases fault with
    | none => simp [present]
    | some fault =>
        cases fault with
        | openFails => simp [present]
        | writeFails cleanup => cases cleanup <;> simp [present]
        | renameFails => simp [present]
        | crash => simp [present]

/-! ## The sequence counter -/

theorem temporaryName_sequenceName_ne (processId : Nat) :
    temporaryName processId sequenceName ≠ sequenceName := by
  intro same
  have whole : splitExtension sequenceName = (sequenceName.toList, none) := by decide
  have lengths := congrArg (fun name => name.toList.length) same
  simp [temporaryName, withExtension, whole] at lengths

theorem readSequence_written (root : Directory String) (value clock : Nat)
    (fits : value < 2 ^ 64) :
    readSequence (root.insert sequenceName ⟨Nat.repr value, clock⟩) = .ok value := by
  have digits : trim (Nat.repr value) = Nat.toDigits 10 value := by
    rw [trim, Nat.toList_repr]
    apply trimMatches_eq_self
    intro character member
    exact isWhitespace_of_isDigit character
      (Nat.isDigit_of_mem_toDigits (by omega) (by omega) member)
  rw [readSequence, SortedMap.getElem?_insert, if_pos rfl]
  simp only [digits, parseUnsigned_toDigits (2 ^ 64) value fits]

theorem readSequence_temporary (root : Directory String) (processId : Nat)
    (content : StoredFile String) :
    readSequence (root.insert (temporaryName processId sequenceName) content) =
      readSequence root := by
  rw [readSequence, readSequence,
    SortedMap.getElem?_insert_of_ne _ _ (temporaryName_sequenceName_ne processId)]

section Operations

variable {Bytes : Type} (codec : Codec Bytes) (spool : DiskSpool)

/-- A reserved sequence is one above the counter it replaces; otherwise the
root directory gains at most a temporary file. -/
theorem nextSequence_cases (faults : Faults) (clock : Nat) (files : SpoolFiles Bytes) :
    let reserved := nextSequence spool faults clock files
    (∃ current, readSequence files.root = .ok current ∧ current + 1 < 2 ^ 64 ∧
      reserved =
        ({ files with root :=
            files.root.insert sequenceName ⟨Nat.repr (current + 1), clock⟩ },
          .ok (current + 1))) ∨
    ((∀ next, reserved.2 ≠ .ok next) ∧
      (reserved.1 = files ∨
        ∃ content, reserved.1 =
          { files with root :=
              files.root.insert (temporaryName spool.processId sequenceName) content })) := by
  unfold nextSequence
  by_cases unreadable : faults.readSequence = true
  · simp [unreadable]
  · rw [if_neg unreadable]
    cases counter : readSequence files.root with
    | error failure => simp
    | ok current =>
        by_cases exhausted : 2 ^ 64 ≤ current + 1
        · simp only [if_pos exhausted]
          exact Or.inr ⟨by simp, Or.inl trivial⟩
        · simp only [if_neg exhausted]
          have write := atomicWrite_cases spool.processId clock faults.write files.root
            sequenceName (Nat.repr (current + 1))
          cases outcome : atomicWrite spool.processId clock faults.write files.root sequenceName
              (Nat.repr (current + 1)) with
          | mk root result =>
              rw [outcome] at write
              rcases write with written | ⟨failed, kept | left⟩
              · cases written
                exact Or.inl ⟨current, rfl, by omega, rfl⟩
              · cases kept
                cases result with
                | ok value => exact absurd rfl failed
                | error failure => exact Or.inr ⟨by simp, Or.inl rfl⟩
                | crash => exact Or.inr ⟨by simp, Or.inl rfl⟩
              · cases left
                cases result with
                | ok value => exact absurd rfl failed
                | error failure => exact Or.inr ⟨by simp, Or.inr ⟨_, rfl⟩⟩
                | crash => exact Or.inr ⟨by simp, Or.inr ⟨_, rfl⟩⟩

theorem nextSequence_records (faults : Faults) (clock : Nat) (files : SpoolFiles Bytes) :
    (nextSequence spool faults clock files).1.records = files.records ∧
      (nextSequence spool faults clock files).1.quarantine = files.quarantine := by
  rcases nextSequence_cases spool faults clock files with
    ⟨_, _, _, exact_⟩ | ⟨_, exact_ | ⟨_, exact_⟩⟩ <;> rw [exact_] <;> exact ⟨rfl, rfl⟩

/-- The counter a reservation leaves: one higher, or unchanged. -/
theorem nextSequence_counter (faults : Faults) (clock : Nat) (files : SpoolFiles Bytes) :
    let reserved := nextSequence spool faults clock files
    (∃ current, readSequence files.root = .ok current ∧ current + 1 < 2 ^ 64 ∧
      readSequence reserved.1.root = .ok (current + 1) ∧ reserved.2 = .ok (current + 1)) ∨
    (readSequence reserved.1.root = readSequence files.root ∧
      ∀ next, reserved.2 ≠ .ok next) := by
  rcases nextSequence_cases spool faults clock files with
    ⟨current, counter, bound, exact_⟩ | ⟨failed, exact_ | ⟨content, exact_⟩⟩
  · rw [exact_]
    exact Or.inl ⟨current, counter, bound, readSequence_written _ _ _ bound, rfl⟩
  · refine Or.inr ⟨?_, failed⟩
    rw [exact_]
  · refine Or.inr ⟨?_, failed⟩
    rw [exact_]
    exact readSequence_temporary _ _ _

/-- `append` commits a valid record under its own fresh name, or it leaves at
most a temporary file. -/
theorem append_cases (faults : Faults) (clock : Nat) (files : SpoolFiles Bytes)
    (envelope : TelemetryEnvelope) :
    let appended := append codec spool faults clock files envelope
    (envelope.Valid ∧ files.records[recordName envelope.sequence]? = none ∧
      appended =
        ({ files with records :=
            files.records.insert (recordName envelope.sequence) ⟨codec.toVec envelope, clock⟩ },
          .ok ())) ∨
    (appended.2 ≠ .ok () ∧
      (appended.1 = files ∨
        ∃ name content, isRecordName name = false ∧
          appended.1 = { files with records := files.records.insert name content })) := by
  unfold append
  cases encoded : encodeJson codec envelope with
  | error failure => simp
  | ok bytes =>
      obtain ⟨valid, rfl⟩ := (encodeJson_ok_iff codec envelope bytes).mp encoded
      cases inspected : stats codec spool faults clock files with
      | error failure => simp
      | ok current =>
          by_cases full : spool.maxBytes < saturatingAdd current.bytes
              (codec.len (codec.toVec envelope))
          · simp [full]
          · by_cases present : recordName envelope.sequence ∈ files.records
            · simp [full, present]
            · simp only [if_neg full, if_neg present]
              rcases atomicWrite_cases spool.processId clock faults.write files.records
                  (recordName envelope.sequence) (codec.toVec envelope) with
                written | ⟨failed, kept | left⟩
              · rw [written]
                exact Or.inl ⟨valid, by simpa using present, rfl⟩
              · exact Or.inr ⟨failed, Or.inl (by rw [kept])⟩
              · exact Or.inr ⟨failed, Or.inr ⟨_, _,
                  isRecordName_temporaryName_recordName _ _, by rw [left]⟩⟩

/-! ## What success takes -/

/-- With a readable counter and no temporary file in the way a sequence is
reserved. -/
theorem nextSequence_advances (clock current : Nat) (files : SpoolFiles Bytes)
    (counter : readSequence files.root = .ok current) (bound : current + 1 < 2 ^ 64)
    (clear : temporaryName spool.processId sequenceName ∉ files.root) :
    nextSequence spool {} clock files =
      ({ files with root :=
          files.root.insert sequenceName ⟨Nat.repr (current + 1), clock⟩ },
        .ok (current + 1)) := by
  unfold nextSequence
  rw [counter]
  simp only [Bool.false_eq_true, if_false, if_neg (not_le.mpr bound), atomicWrite, if_neg clear]

/-- With room for it and no file in the way a valid record is appended. -/
theorem append_commits (clock : Nat) (files : SpoolFiles Bytes) (envelope : TelemetryEnvelope)
    (total : SpoolStats) (valid : envelope.Valid)
    (counted : stats codec spool {} clock files = .ok total)
    (room : saturatingAdd total.bytes (codec.len (codec.toVec envelope)) ≤ spool.maxBytes)
    (fresh : recordName envelope.sequence ∉ files.records)
    (clear : temporaryName spool.processId (recordName envelope.sequence) ∉ files.records) :
    append codec spool {} clock files envelope =
      ({ files with records :=
          files.records.insert (recordName envelope.sequence) ⟨codec.toVec envelope, clock⟩ },
        .ok ()) := by
  unfold append
  rw [(encodeJson_ok_iff codec envelope _).mpr ⟨valid, rfl⟩, counted]
  simp only [if_neg (not_lt.mpr room), if_neg fresh, atomicWrite, if_neg clear]

theorem atomicWrite_ok_iff {Content : Type} (processId clock : Nat) (fault : Option WriteFault)
    (directory : Directory Content) (name : String) (content : Content) :
    (atomicWrite processId clock fault directory name content).2 = .ok () ↔
      fault = none ∧ temporaryName processId name ∉ directory := by
  unfold atomicWrite
  by_cases present : temporaryName processId name ∈ directory
  · simp [present]
  · rcases fault with _ | _ | (_ | _) | _ | _ <;> simp [present]

/-- When `next_sequence` succeeds. -/
theorem nextSequence_ok_iff (faults : Faults) (clock : Nat) (files : SpoolFiles Bytes) :
    (∃ next, (nextSequence spool faults clock files).2 = .ok next) ↔
      faults.readSequence = false ∧ faults.write = none ∧
        temporaryName spool.processId sequenceName ∉ files.root ∧
        ∃ current, readSequence files.root = .ok current ∧ current + 1 < 2 ^ 64 := by
  unfold nextSequence
  by_cases unreadable : faults.readSequence = true
  · simp [unreadable]
  · rw [if_neg unreadable]
    cases counter : readSequence files.root with
    | error failure => simp
    | ok current =>
        by_cases exhausted : 2 ^ 64 ≤ current + 1
        · simp only [if_pos exhausted]
          constructor
          · rintro ⟨next, ⟨⟩⟩
          · rintro ⟨_, _, _, other, ⟨⟩, room⟩
            omega
        · simp only [if_neg exhausted]
          have write := atomicWrite_ok_iff spool.processId clock faults.write files.root
            sequenceName (Nat.repr (current + 1))
          rcases outcome : atomicWrite spool.processId clock faults.write files.root sequenceName
              (Nat.repr (current + 1)) with ⟨root, done | failure | _⟩
          · rw [outcome] at write
            obtain ⟨whole, clear⟩ := write.mp rfl
            exact iff_of_true ⟨_, rfl⟩ ⟨by simpa using unreadable, whole, clear, current, rfl,
              by omega⟩
          · rw [outcome] at write
            refine iff_of_false ?_ fun ready => ?_
            · rintro ⟨next, ⟨⟩⟩
            · cases write.mpr ⟨ready.2.1, ready.2.2.1⟩
          · rw [outcome] at write
            refine iff_of_false ?_ fun ready => ?_
            · rintro ⟨next, ⟨⟩⟩
            · cases write.mpr ⟨ready.2.1, ready.2.2.1⟩

/-- When `append` succeeds. -/
theorem append_ok_iff (faults : Faults) (clock : Nat) (files : SpoolFiles Bytes)
    (envelope : TelemetryEnvelope) :
    (append codec spool faults clock files envelope).2 = .ok () ↔
      envelope.Valid ∧
        (∃ total, stats codec spool faults clock files = .ok total ∧
          saturatingAdd total.bytes (codec.len (codec.toVec envelope)) ≤ spool.maxBytes) ∧
        recordName envelope.sequence ∉ files.records ∧ faults.write = none ∧
        temporaryName spool.processId (recordName envelope.sequence) ∉ files.records := by
  unfold append
  cases encoded : encodeJson codec envelope with
  | error failure =>
      have invalid : ¬ envelope.Valid := by
        intro valid
        rw [(encodeJson_ok_iff codec envelope _).mpr ⟨valid, rfl⟩] at encoded
        cases encoded
      simp [invalid]
  | ok bytes =>
      obtain ⟨valid, rfl⟩ := (encodeJson_ok_iff codec envelope bytes).mp encoded
      cases inspected : stats codec spool faults clock files with
      | error failure => simp
      | ok total =>
          by_cases full : spool.maxBytes <
              saturatingAdd total.bytes (codec.len (codec.toVec envelope))
          · simp [full]
          · by_cases present : recordName envelope.sequence ∈ files.records
            · simp [full, present]
            · have write := atomicWrite_ok_iff spool.processId clock faults.write files.records
                (recordName envelope.sequence) (codec.toVec envelope)
              simp only [if_neg full, if_neg present]
              rw [write]
              simp [valid, present, Nat.not_lt.mp full]

/-! ## The quarantine -/

/-- Records the decoder refuses, moved to the quarantine one by one. -/
inductive Quarantines : SpoolFiles Bytes → SpoolFiles Bytes → Prop
  | done (files : SpoolFiles Bytes) : Quarantines files files
  | move (files after : SpoolFiles Bytes) (path : String) (file : StoredFile Bytes)
      (record : isRecordName path = true)
      (found : files.records[path]? = some file)
      (refused : decodeRecord codec file.content = none)
      (later : Quarantines
        { files with
          records := files.records.erase path
          quarantine := files.quarantine.insert path file } after) :
      Quarantines files after

variable {codec}

theorem Quarantines.root {files after : SpoolFiles Bytes}
    (moves : Quarantines codec files after) : after.root = files.root := by
  induction moves with
  | done => rfl
  | move files after path file record found refused later inductionHypothesis =>
      exact inductionHypothesis

theorem Quarantines.records_subset {files after : SpoolFiles Bytes}
    (moves : Quarantines codec files after) (path : String) (file : StoredFile Bytes)
    (found : after.records[path]? = some file) : files.records[path]? = some file := by
  induction moves with
  | done => exact found
  | move files after moved content record present refused later inductionHypothesis =>
      have earlier := inductionHypothesis found
      rw [SortedMap.getElem?_erase] at earlier
      split at earlier
      · contradiction
      · exact earlier

theorem Quarantines.decoded_stays {files after : SpoolFiles Bytes}
    (moves : Quarantines codec files after) (path : String) (file : StoredFile Bytes)
    (record : TelemetryEnvelope) (found : files.records[path]? = some file)
    (decoded : decodeRecord codec file.content = some record) :
    after.records[path]? = some file := by
  induction moves with
  | done => exact found
  | move files after moved content named present refused later inductionHypothesis =>
      apply inductionHypothesis
      rw [SortedMap.getElem?_erase_of_ne]
      · exact found
      · rintro rfl
        rw [found] at present
        cases present
        rw [refused] at decoded
        contradiction

/-- What lies in the quarantine under a name no record has stays there. -/
theorem Quarantines.quarantined_stays {files after : SpoolFiles Bytes}
    (moves : Quarantines codec files after) (path : String) (file : StoredFile Bytes)
    (found : files.quarantine[path]? = some file) (absent : files.records[path]? = none) :
    after.quarantine[path]? = some file ∧ after.records[path]? = none := by
  induction moves with
  | done => exact ⟨found, absent⟩
  | move files after moved content named present refused later inductionHypothesis =>
      have distinct : moved ≠ path := by
        rintro rfl
        rw [absent] at present
        contradiction
      apply inductionHypothesis
      · rw [SortedMap.getElem?_insert_of_ne _ _ distinct]
        exact found
      · rw [SortedMap.getElem?_erase_of_ne _ distinct]
        exact absent

theorem Quarantines.kept_or_moved {files after : SpoolFiles Bytes}
    (moves : Quarantines codec files after) (path : String) (file : StoredFile Bytes)
    (found : files.records[path]? = some file) :
    after.records[path]? = some file ∨ after.quarantine[path]? = some file := by
  induction moves with
  | done => exact Or.inl found
  | move files after moved content named present refused later inductionHypothesis =>
      by_cases same : moved = path
      · subst same
        rw [found] at present
        cases present
        refine Or.inr (later.quarantined_stays moved file ?_ ?_).1
        · simp
        · simp
      · apply inductionHypothesis
        rw [SortedMap.getElem?_erase_of_ne _ same]
        exact found

theorem Quarantines.quarantine_source {files after : SpoolFiles Bytes}
    (moves : Quarantines codec files after) (path : String) (file : StoredFile Bytes)
    (found : after.quarantine[path]? = some file) :
    files.quarantine[path]? = some file ∨
      (isRecordName path = true ∧ files.records[path]? = some file) := by
  induction moves with
  | done => exact Or.inl found
  | move files after moved content named present refused later inductionHypothesis =>
      have earlier := inductionHypothesis found
      simp only [SortedMap.getElem?_insert, SortedMap.getElem?_erase] at earlier
      by_cases same : moved = path
      · subst same
        simp only [if_true, Option.some.injEq, reduceCtorEq, and_false, or_false] at earlier
        subst earlier
        exact Or.inr ⟨named, present⟩
      · simpa only [if_neg same] using earlier

/-- No file of the quarantine shares its name with a record. -/
def SpoolFiles.Apart (files : SpoolFiles Bytes) : Prop :=
  ∀ path : String, files.records[path]? ≠ none → files.quarantine[path]? = none

theorem Quarantines.apart {files after : SpoolFiles Bytes}
    (moves : Quarantines codec files after) (apart : files.Apart) : after.Apart := by
  induction moves with
  | done => exact apart
  | move files after moved content named present refused later inductionHypothesis =>
      apply inductionHypothesis
      intro path kept
      rw [SortedMap.getElem?_erase] at kept
      split at kept
      · contradiction
      · rename_i distinct
        rw [SortedMap.getElem?_insert_of_ne _ _ distinct]
        exact apart path kept

/-- Moving records changes neither how many there are nor how many lie in the
quarantine together with them. -/
theorem Quarantines.count {files after : SpoolFiles Bytes}
    (moves : Quarantines codec files after) (apart : files.Apart) :
    SortedMap.countKeys isRecordName after.records + after.quarantine.size =
      SortedMap.countKeys isRecordName files.records + files.quarantine.size := by
  induction moves with
  | done => rfl
  | move files after moved content named present refused later inductionHypothesis =>
      have single : Quarantines codec files
          { files with
            records := files.records.erase moved
            quarantine := files.quarantine.insert moved content } :=
        .move _ _ moved content named present refused (.done _)
      rw [inductionHypothesis (single.apart apart)]
      have fresh : files.quarantine[moved]? = none := apart moved (by simp [present])
      have absent : moved ∉ files.quarantine := by simpa using fresh
      have erased :=
        SortedMap.countKeys_erase_present isRecordName files.records moved content named present
      simp only [Std.ExtTreeMap.size_insert, Std.ExtTreeMap.contains_iff_mem, if_neg absent]
      omega

variable (codec)

theorem pendingLoop_quarantines (faults : Faults) (paths : List String)
    (files : SpoolFiles Bytes) (named : ∀ path ∈ paths, isRecordName path = true) :
    Quarantines codec files (pendingLoop codec faults paths files).1 := by
  induction paths generalizing files with
  | nil => exact .done files
  | cons path rest inductionHypothesis =>
      have restNamed : ∀ other ∈ rest, isRecordName other = true :=
        fun other member => named other (by simp [member])
      rw [pendingLoop]
      split
      · exact .done files
      · exact .done files
      · rename_i file found readable
        split
        · rename_i record decoded
          have later := inductionHypothesis files restNamed
          split <;> rename_i after _ exact_ <;> rw [exact_] at later <;> exact later
        · rename_i refused
          split
          · exact .done files
          · exact .move files _ path file (named path (by simp)) found refused
              (inductionHypothesis _ restNamed)

/-- A record of the batch, with the file it was decoded from. -/
def Decoded (files : SpoolFiles Bytes) (path : String) (record : TelemetryEnvelope) : Prop :=
  ∃ file, files.records[path]? = some file ∧ decodeRecord codec file.content = some record

variable {codec} in
theorem exists_decoded {files : SpoolFiles Bytes} {selected : List String}
    {batch : List TelemetryEnvelope} (all : List.Forall₂ (Decoded codec files) selected batch)
    (record : TelemetryEnvelope) (member : record ∈ batch) :
    ∃ path ∈ selected, Decoded codec files path record := by
  induction all with
  | nil => contradiction
  | @cons path head selected batch decoded rest inductionHypothesis =>
      rcases List.mem_cons.mp member with rfl | member
      · exact ⟨path, by simp, decoded⟩
      · obtain ⟨other, chosen, found⟩ := inductionHypothesis member
        exact ⟨other, by simp [chosen], found⟩

/-- The batch is decoded, in order, from records that are still in place. -/
theorem pendingLoop_decoded (faults : Faults) (paths : List String)
    (files after : SpoolFiles Bytes) (batch : List TelemetryEnvelope)
    (named : ∀ path ∈ paths, isRecordName path = true)
    (result : pendingLoop codec faults paths files = (after, .ok batch)) :
    ∃ selected, selected.Sublist paths ∧
      List.Forall₂ (Decoded codec after) selected batch := by
  induction paths generalizing files batch with
  | nil =>
      cases result
      exact ⟨[], List.Sublist.refl _, .nil⟩
  | cons path rest inductionHypothesis =>
      have restNamed : ∀ other ∈ rest, isRecordName other = true :=
        fun other member => named other (by simp [member])
      rw [pendingLoop] at result
      split at result
      · cases result
      · cases result
      · rename_i file found readable
        split at result
        · rename_i record decoded
          have moves := pendingLoop_quarantines codec faults rest files restNamed
          split at result
          · rename_i reached records exact_
            cases result
            rw [exact_] at moves
            obtain ⟨selected, sublist, all⟩ :=
              inductionHypothesis files records restNamed exact_
            refine ⟨path :: selected, sublist.cons_cons path, .cons ?_ all⟩
            exact ⟨file, moves.decoded_stays path file record found decoded, decoded⟩
          · cases result
        · split at result
          · cases result
          · obtain ⟨selected, sublist, all⟩ := inductionHypothesis _ batch restNamed result
            exact ⟨selected, sublist.cons path, all⟩

theorem mem_take_recordPaths (records : Directory Bytes) (limit : Nat) (path : String)
    (member : path ∈ (recordPaths records).take limit) : isRecordName path = true :=
  ((mem_recordPaths records path).mp (List.mem_of_mem_take member)).1

theorem pending_quarantines (faults : Faults) (limit : Nat) (files : SpoolFiles Bytes) :
    Quarantines codec files (pending codec faults limit files).1 := by
  unfold pending
  split
  · exact .done files
  · exact pendingLoop_quarantines codec faults _ files
      (mem_take_recordPaths files.records limit)

/-- The batch `pending` returns: at most `limit` records, decoded in the order
of their names from records that are still in place. -/
theorem pending_decoded (faults : Faults) (limit : Nat) (files after : SpoolFiles Bytes)
    (batch : List TelemetryEnvelope)
    (result : pending codec faults limit files = (after, .ok batch)) :
    ∃ selected, selected.Sublist ((recordPaths files.records).take limit) ∧
      List.Forall₂ (Decoded codec after) selected batch := by
  unfold pending at result
  split at result
  · cases result
  · exact pendingLoop_decoded codec faults _ files after batch
      (mem_take_recordPaths files.records limit) result

end Operations

/-! ## Removal -/

section Removal

variable {Bytes : Type}

/-- Records removed one by one, each of them present when its turn comes. -/
inductive Removes : List TelemetryEnvelope → SpoolFiles Bytes → SpoolFiles Bytes → Prop
  | done (files : SpoolFiles Bytes) : Removes [] files files
  | remove (record : TelemetryEnvelope) (rest : List TelemetryEnvelope)
      (files after : SpoolFiles Bytes) (file : StoredFile Bytes)
      (found : files.records[recordName record.sequence]? = some file)
      (later : Removes rest
        { files with records := files.records.erase (recordName record.sequence) } after) :
      Removes (record :: rest) files after

/-- The records `acknowledge` removes before it returns. -/
def removedRecords (faults : Faults) :
    List TelemetryEnvelope → SpoolFiles Bytes → List TelemetryEnvelope
  | [], _ => []
  | record :: rest, files =>
      let path := recordName record.sequence
      if path ∉ files.records then []
      else if faults.removeRecord path then []
      else
        record :: removedRecords faults rest
          { files with records := files.records.erase path }

theorem acknowledge_removes (faults : Faults) (records : List TelemetryEnvelope)
    (files : SpoolFiles Bytes) :
    Removes (removedRecords faults records files) files (acknowledge faults records files).1 := by
  induction records generalizing files with
  | nil => exact .done files
  | cons record rest inductionHypothesis =>
      rw [removedRecords, acknowledge]
      by_cases present : recordName record.sequence ∈ files.records
      · by_cases refused : faults.removeRecord (recordName record.sequence) = true
        · simp only [present, refused, not_true_eq_false, if_false, if_true]
          exact .done files
        · simp only [present, refused, not_true_eq_false, if_false, Bool.false_eq_true]
          obtain ⟨file, found⟩ :=
            Option.isSome_iff_exists.mp (Std.ExtTreeMap.mem_iff_isSome_getElem?.mp present)
          exact .remove record _ files _ file found (inductionHypothesis _)
      · simp only [present, not_false_eq_true, if_true]
        exact .done files

theorem removedRecords_sublist (faults : Faults) (records : List TelemetryEnvelope)
    (files : SpoolFiles Bytes) :
    (removedRecords faults records files).Sublist records := by
  induction records generalizing files with
  | nil => exact List.Sublist.refl _
  | cons record rest inductionHypothesis =>
      rw [removedRecords]
      split
      · exact List.nil_sublist _
      · split
        · exact List.nil_sublist _
        · exact (inductionHypothesis _).cons_cons record

theorem Removes.unchanged {removed : List TelemetryEnvelope} {files after : SpoolFiles Bytes}
    (removes : Removes removed files after) :
    after.root = files.root ∧ after.quarantine = files.quarantine := by
  induction removes with
  | done => exact ⟨rfl, rfl⟩
  | remove record rest files after file found later inductionHypothesis =>
      exact inductionHypothesis

/-- Exactly the removed names are gone. -/
theorem Removes.lookup {removed : List TelemetryEnvelope} {files after : SpoolFiles Bytes}
    (removes : Removes removed files after) (path : String) :
    after.records[path]? =
      if path ∈ removed.map (fun record => recordName record.sequence) then none
      else files.records[path]? := by
  induction removes with
  | done => simp
  | remove record rest files after file found later inductionHypothesis =>
      rw [inductionHypothesis, SortedMap.getElem?_erase]
      by_cases same : recordName record.sequence = path
      · subst same
        simp
      · simp [same, Ne.symm same]

/-- A removed record was present, and none is removed twice. -/
theorem Removes.present {removed : List TelemetryEnvelope} {files after : SpoolFiles Bytes}
    (removes : Removes removed files after) :
    (∀ record ∈ removed, ∃ file, files.records[recordName record.sequence]? = some file) ∧
      (removed.map TelemetryEnvelope.sequence).Nodup := by
  induction removes with
  | done => simp
  | remove record rest files after file found later inductionHypothesis =>
      obtain ⟨present, distinct⟩ := inductionHypothesis
      have still : ∀ other ∈ rest,
          recordName record.sequence ≠ recordName other.sequence ∧
            ∃ file, files.records[recordName other.sequence]? = some file := by
        intro other member
        obtain ⟨kept, foundOther⟩ := present other member
        rw [SortedMap.getElem?_erase] at foundOther
        split at foundOther
        · contradiction
        · rename_i apart
          exact ⟨apart, kept, foundOther⟩
      constructor
      · intro other member
        rcases List.mem_cons.mp member with rfl | member
        · exact ⟨file, found⟩
        · exact (still other member).2
      · rw [List.map_cons, List.nodup_cons]
        refine ⟨?_, distinct⟩
        intro again
        obtain ⟨other, member, same⟩ := List.mem_map.mp again
        exact (still other member).1 (by rw [same])

theorem Removes.count {removed : List TelemetryEnvelope} {files after : SpoolFiles Bytes}
    (removes : Removes removed files after) :
    SortedMap.countKeys isRecordName after.records + removed.length =
      SortedMap.countKeys isRecordName files.records := by
  induction removes with
  | done => simp
  | remove record rest files after file found later inductionHypothesis =>
      have erased := SortedMap.countKeys_erase_present isRecordName files.records
        (recordName record.sequence) file (isRecordName_recordName _) found
      simp only at inductionHypothesis
      rw [List.length_cons]
      omega

end Removal

end SystemPilot.Spool
