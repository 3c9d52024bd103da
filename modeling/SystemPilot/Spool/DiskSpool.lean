import Mathlib.Tactic
import SystemPilot.Text
import SystemPilot.Library.SortedMap
import SystemPilot.Telemetry.Envelope

/-!
# The durable telemetry spool

`DiskSpool` over a directory of named files.  Every operation is a function of
the files, the clock and the faults the file system injects; without faults it
is what the source computes.  A temporary file an interrupted write leaves
behind stays in its directory, as it does on disk.
-/

set_option autoImplicit false

namespace SystemPilot.Spool

open SystemPilot.Text
open SystemPilot.Library
open SystemPilot.Telemetry

/-- A file with the second it was last written. -/
structure StoredFile (Content : Type) where
  content : Content
  modified : Nat
  deriving DecidableEq

abbrev Directory (Content : Type) := Std.ExtTreeMap String (StoredFile Content)

/-- The files below the spool root: the sequence counter, the pending records
and the quarantine. -/
structure SpoolFiles (Bytes : Type) where
  root : Directory String := ∅
  records : Directory Bytes := ∅
  quarantine : Directory Bytes := ∅

/-- The limits of a spool and the process that writes it. -/
structure DiskSpool where
  maxBytes : Nat
  maxAgeSecs : Nat
  processId : Nat
  deriving DecidableEq, Repr

/-! ## File names -/

/-- `Path::file_stem` and `Path::extension` of a file name. -/
def splitExtension (name : String) : List Char × Option (List Char) :=
  match rsplitOnce '.' name.toList with
  | some (stem, extension) =>
      if stem.isEmpty then (name.toList, none) else (stem, some extension)
  | none => (name.toList, none)

def withExtension (name extension : String) : String :=
  String.ofList ((splitExtension name).1 ++ '.' :: extension.toList)

/-- `path.extension() == Some("json")`. -/
def isRecordName (name : String) : Bool :=
  (splitExtension name).2 == some "json".toList

/-- `format!("{:020}.json", sequence)`. -/
def recordName (sequence : Nat) : String :=
  String.ofList (padDecimal 20 sequence ++ '.' :: "json".toList)

/-- `path.with_extension(format!("tmp-{}", std::process::id()))`. -/
def temporaryName (processId : Nat) (name : String) : String :=
  withExtension name ("tmp-" ++ Nat.repr processId)

def sequenceName : String := "sequence"

/-! ## Faults and outcomes -/

/-- Where the environment stops an `atomic_write`.  After a failed write the
temporary file is removed unless the cleanup fails too; a crash ends the
process between the creation of the temporary file and the rename. -/
inductive WriteFault where
  | openFails
  | writeFails (cleanup : Bool)
  | renameFails
  | crash
  deriving DecidableEq, Repr

/-- The faults injected into one operation of the spool. -/
structure Faults where
  prepare : Bool := false
  readSequence : Bool := false
  listRecords : Bool := false
  readRecord : String → Bool := fun _ => false
  quarantineRecord : String → Bool := fun _ => false
  removeRecord : String → Bool := fun _ => false
  write : Option WriteFault := none

/-- A file system that does not fail; the process may still crash. -/
def Faults.FaultFree (faults : Faults) : Prop :=
  faults.prepare = false ∧ faults.readSequence = false ∧ faults.listRecords = false ∧
    (∀ name, faults.readRecord name = false) ∧
    (∀ name, faults.quarantineRecord name = false) ∧
    (∀ name, faults.removeRecord name = false) ∧
    (faults.write = none ∨ faults.write = some .crash)

/-- The result of an operation during which the process may end. -/
inductive Outcome (α : Type) where
  | ok (value : α)
  | error (failure : AppError)
  | crash
  deriving DecidableEq

/-- `DiskSpool::atomic_write` of `name` inside one directory. -/
def atomicWrite {Content : Type} (processId clock : Nat) (fault : Option WriteFault)
    (directory : Directory Content) (name : String) (content : Content) :
    Directory Content × Outcome Unit :=
  let temporary := temporaryName processId name
  let file : StoredFile Content := ⟨content, clock⟩
  if temporary ∈ directory then
    (directory, .error (.io "could not create temporary spool record"))
  else match fault with
    | some .openFails => (directory, .error (.io "could not create temporary spool record"))
    | some (.writeFails true) => (directory, .error (.io "could not persist spool record"))
    | some (.writeFails false) =>
        (directory.insert temporary file, .error (.io "could not persist spool record"))
    | some .crash => (directory.insert temporary file, .crash)
    | some .renameFails =>
        (directory.insert temporary file, .error (.io "could not commit spool record"))
    | none => (directory.insert name file, .ok ())

/-- `DiskSpool::open`; the directories it prepares are those of `SpoolFiles`. -/
def openSpool (faults : Faults) (maxBytes maxAgeSecs processId : Nat) : AppResult DiskSpool :=
  if maxBytes = 0 ∨ maxAgeSecs = 0 then
    .error (.validation "spool byte and age limits must be non-zero")
  else if faults.prepare then
    .error (.io "could not create telemetry spool directory")
  else
    .ok { maxBytes, maxAgeSecs, processId }

section Operations

variable {Bytes : Type} (codec : Codec Bytes) (spool : DiskSpool)

/-- The counter `next_sequence` reads: zero before the first write. -/
def readSequence (root : Directory String) : AppResult Nat :=
  match root[sequenceName]? with
  | none => .ok 0
  | some file =>
      match parseUnsigned (2 ^ 64) (trim file.content) with
      | some current => .ok current
      | none => .error (.protocol "invalid spool sequence state")

def nextSequence (faults : Faults) (clock : Nat) (files : SpoolFiles Bytes) :
    SpoolFiles Bytes × Outcome Nat :=
  if faults.readSequence then
    (files, .error (.io "could not read spool sequence state"))
  else match readSequence files.root with
    | .error failure => (files, .error failure)
    | .ok current =>
        if 2 ^ 64 ≤ current + 1 then
          (files, .error (.protocol "telemetry sequence exhausted"))
        else
          let next := current + 1
          match atomicWrite spool.processId clock faults.write files.root sequenceName
              (Nat.repr next) with
          | (root, .ok ()) => ({ files with root }, .ok next)
          | (root, .error failure) => ({ files with root }, .error failure)
          | (root, .crash) => ({ files with root }, .crash)

/-- `record_paths`, in the order `sort` gives the listing. -/
def recordPaths (records : Directory Bytes) : List String :=
  records.keys.filter isRecordName

/-- `u64::saturating_add`. -/
def saturatingAdd (left right : Nat) : Nat :=
  min (left + right) (2 ^ 64 - 1)

structure SpoolStats where
  records : Nat
  bytes : Nat
  quarantined : Nat
  deriving DecidableEq, Repr

/-- The loop of `stats_unlocked` over the record paths. -/
def statsLoop (clock : Nat) (records : Directory Bytes) :
    List String → SpoolStats → AppResult SpoolStats
  | [], stats => .ok stats
  | path :: rest, stats =>
      match records[path]? with
      | none => .error (.io "could not inspect spool record")
      | some file =>
          if clock - file.modified > spool.maxAgeSecs then
            .error (.protocol ("telemetry spool contains expired record " ++ path ++
              "; operator action required"))
          else
            statsLoop clock records rest
              { stats with
                records := stats.records + 1
                bytes := saturatingAdd stats.bytes (codec.len file.content) }

/-- `stats_unlocked`. -/
def stats (faults : Faults) (clock : Nat) (files : SpoolFiles Bytes) : AppResult SpoolStats :=
  if faults.listRecords then .error (.io "could not read telemetry spool")
  else do
    let counted ← statsLoop codec spool clock files.records (recordPaths files.records) ⟨0, 0, 0⟩
    return { counted with quarantined := files.quarantine.size }

def append (faults : Faults) (clock : Nat) (files : SpoolFiles Bytes)
    (envelope : TelemetryEnvelope) : SpoolFiles Bytes × Outcome Unit :=
  match encodeJson codec envelope with
  | .error failure => (files, .error failure)
  | .ok bytes =>
      match stats codec spool faults clock files with
      | .error failure => (files, .error failure)
      | .ok current =>
          if spool.maxBytes < saturatingAdd current.bytes (codec.len bytes) then
            (files, .error (.protocol ("telemetry spool is full (" ++
              toString spool.maxBytes ++ " byte limit)")))
          else
            let path := recordName envelope.sequence
            if path ∈ files.records then
              (files, .error (.protocol ("telemetry sequence " ++
                toString envelope.sequence ++ " already exists in spool")))
            else
              match atomicWrite spool.processId clock faults.write files.records path bytes with
              | (records, outcome) => ({ files with records }, outcome)

/-- The decoding step of `pending`: a record that parses and validates. -/
def decodeRecord (bytes : Bytes) : Option TelemetryEnvelope :=
  match codec.fromSlice bytes with
  | some record =>
      match record.validate with
      | .ok () => some record
      | .error _ => none
  | none => none

/-- The loop of `pending` over the selected paths. -/
def pendingLoop (faults : Faults) :
    List String → SpoolFiles Bytes → SpoolFiles Bytes × AppResult (List TelemetryEnvelope)
  | [], files => (files, .ok [])
  | path :: rest, files =>
      match files.records[path]?, faults.readRecord path with
      | none, _ | some _, true => (files, .error (.io "could not read telemetry spool record"))
      | some file, false =>
          match decodeRecord codec file.content with
          | some record =>
              match pendingLoop faults rest files with
              | (after, .ok records) => (after, .ok (record :: records))
              | (after, .error failure) => (after, .error failure)
          | none =>
              if faults.quarantineRecord path then
                (files, .error (.io "could not quarantine corrupt spool record"))
              else
                pendingLoop faults rest
                  { files with
                    records := files.records.erase path
                    quarantine := files.quarantine.insert path file }

def pending (faults : Faults) (limit : Nat) (files : SpoolFiles Bytes) :
    SpoolFiles Bytes × AppResult (List TelemetryEnvelope) :=
  if faults.listRecords then (files, .error (.io "could not read telemetry spool"))
  else pendingLoop codec faults ((recordPaths files.records).take limit) files

end Operations

def acknowledge {Bytes : Type} (faults : Faults) :
    List TelemetryEnvelope → SpoolFiles Bytes → SpoolFiles Bytes × AppResult Unit
  | [], files => (files, .ok ())
  | record :: rest, files =>
      let path := recordName record.sequence
      if path ∉ files.records then
        (files, .error (.protocol ("acknowledged spool record is missing: " ++ record.messageId)))
      else if faults.removeRecord path then
        (files, .error (.io "could not remove acknowledged spool record"))
      else
        acknowledge faults rest { files with records := files.records.erase path }

theorem openSpool_ok (faults : Faults) (maxBytes maxAgeSecs processId : Nat) (spool : DiskSpool)
    (opened : openSpool faults maxBytes maxAgeSecs processId = .ok spool) :
    maxBytes ≠ 0 ∧ maxAgeSecs ≠ 0 ∧ spool = { maxBytes, maxAgeSecs, processId } := by
  unfold openSpool at opened
  split at opened
  · contradiction
  · rename_i limits
    split at opened
    · contradiction
    · cases opened
      rw [not_or] at limits
      exact ⟨limits.1, limits.2, rfl⟩

/-! ## Names of records and of temporary files -/

theorem splitExtension_recordName (sequence : Nat) :
    splitExtension (recordName sequence) = (padDecimal 20 sequence, some "json".toList) := by
  have cut : rsplitOnce '.' (recordName sequence).toList =
      some (padDecimal 20 sequence, "json".toList) := by
    rw [recordName, String.toList_ofList]
    exact rsplitOnce_append '.' _ _ (by decide)
  simp [splitExtension, cut, padDecimal_ne_nil]

@[simp] theorem isRecordName_recordName (sequence : Nat) :
    isRecordName (recordName sequence) = true := by
  simp [isRecordName, splitExtension_recordName]

theorem recordName_injective : Function.Injective recordName := by
  intro left right same
  have stems := congrArg (fun name => (splitExtension name).1) same
  simp only [splitExtension_recordName] at stems
  exact padDecimal_injective 20 stems

theorem isRecordName_temporaryName_recordName (processId sequence : Nat) :
    isRecordName (temporaryName processId (recordName sequence)) = false := by
  have digits : '.' ∉ ("tmp-" ++ Nat.repr processId).toList := by
    rw [String.toList_append, List.mem_append, not_or]
    refine ⟨by decide, ?_⟩
    rw [Nat.toList_repr]
    intro member
    have digit := Nat.isDigit_of_mem_toDigits (by omega) (by omega) member
    simp at digit
  have cut : rsplitOnce '.' (temporaryName processId (recordName sequence)).toList =
      some (padDecimal 20 sequence, ("tmp-" ++ Nat.repr processId).toList) := by
    rw [temporaryName, withExtension, String.toList_ofList, splitExtension_recordName]
    exact rsplitOnce_append '.' _ _ digits
  simp [isRecordName, splitExtension, cut, padDecimal_ne_nil]

theorem temporaryName_ne_recordName (processId sequence other : Nat) :
    temporaryName processId (recordName sequence) ≠ recordName other := by
  intro same
  have kinds := congrArg isRecordName same
  rw [isRecordName_temporaryName_recordName, isRecordName_recordName] at kinds
  contradiction

theorem mem_recordPaths {Bytes : Type} (records : Directory Bytes) (path : String) :
    path ∈ recordPaths records ↔
      isRecordName path = true ∧ ∃ file, records[path]? = some file := by
  rw [recordPaths, List.mem_filter, SortedMap.mem_keys_iff, and_comm]

theorem recordPaths_nodup {Bytes : Type} (records : Directory Bytes) :
    (recordPaths records).Nodup :=
  Std.ExtTreeMap.nodup_keys.filter _

end SystemPilot.Spool
