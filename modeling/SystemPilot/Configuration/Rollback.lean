import Mathlib.Tactic
import SystemPilot.Library.Machine
import SystemPilot.Configuration.Overrides
import SystemPilot.Configuration.Restart

/-!
# Rollback

Saves, migrations and rollbacks in any order and by any processes, none of their
file operations failing.  Backups are never changed, an error leaves the
configuration as it was, and a rollback brings the first document back.
-/

set_option autoImplicit false

namespace SystemPilot.Configuration

open SystemPilot.Text
open SystemPilot.Json
open SystemPilot.Library.CrashFiles
open SystemPilot.Library.Machine

inductive Operation where
  | migrate
  | rollback
  | save (config : Config)

variable {floats : FloatText}

def perform (codec : ConfigCodec floats) (parseUrl : UrlParser) (directory : String) :
    Operation → Program ConfigError Unit
  | .migrate => do
      let _ ← loadAndMigrate floats directory
      pure ()
  | .rollback => do
      let _ ← rollback directory
      pure ()
  | .save config => save codec parseUrl directory config

/-- An operation with the process that runs it. -/
structure Call where
  process : Nat
  operation : Operation

def callResult (codec : ConfigCodec floats) (parseUrl : UrlParser) (directory : String)
    (files : Files) (call : Call) : Disk × Ending ConfigError Unit :=
  perform codec parseUrl directory call.operation ⟨call.process, none⟩ ⟨files, 0⟩

def callStep (codec : ConfigCodec floats) (parseUrl : UrlParser) (directory : String)
    (files : Files) (call : Call) : Files :=
  (callResult codec parseUrl directory files call).1.files

/-- The three files that are written once. -/
def backupSlots : List Slot := [.preV1, .preV2, .preRollback]

theorem backup_path_ne {directory : String} {slot other : Slot} (backup : slot ∈ backupSlots)
    {write : Write ConfigError} (target : write.target = other.target directory)
    (installed : write.target.temporary.isSome) :
    (slot.target directory).path ≠ write.path := by
  intro same
  have distinct : slot ≠ other := by
    rintro rfl
    rw [target] at installed
    simp only [backupSlots, List.mem_cons, List.not_mem_nil, or_false] at backup
    rcases backup with rfl | rfl | rfl <;> cases installed
  have path : write.path = (other.target directory).path := by
    rw [← target]
    cases write <;> rfl
  exact Slot.target_apart directory distinct 0 0 _ (Or.inl rfl) (Or.inl (same.trans path))

section Operations

variable {codec : ConfigCodec floats} {parseUrl : UrlParser} {directory : String} {slot : Slot}

theorem loadAndMigrate_keeps_backup (backup : slot ∈ backupSlots) :
    KeepsFile (loadAndMigrate floats directory) (slot.target directory).path := by
  refine (keepsFile_read _ _).bind fun found => ?_
  split
  · exact keepsFile_fail _ _
  · split
    · exact keepsFile_fail _ _
    · split
      · exact keepsFile_fail _ _
      · split
        · split
          · exact keepsFile_pure _ _
          · exact keepsFile_fail _ _
        · split
          · apply keepsFile_run
            intro write member installed
            obtain ⟨other, _, target⟩ := migrationPlan_slot member
            exact backup_path_ne backup target installed
          · exact keepsFile_fail _ _
    · exact keepsFile_fail _ _

theorem atomicWrite_keeps_backup (backup : slot ∈ backupSlots) (bytes : List UInt8) :
    KeepsFile (atomicWrite directory bytes).attempt (slot.target directory).path :=
  keepsFile_attempt fun installed => backup_path_ne backup (show _ = Slot.target directory .config from rfl) installed

theorem rollback_keeps_backup (backup : slot ∈ backupSlots) :
    KeepsFile (rollback directory) (slot.target directory).path := by
  refine (keepsFile_read _ _).bind fun preV2 => ?_
  refine (keepsFile_read _ _).bind fun previous => ?_
  cases previous with
  | none => exact keepsFile_fail _ _
  | some previous =>
      refine (keepsFile_read _ _).bind fun current => ?_
      have kept : KeepsFile (keepCurrent directory current) (slot.target directory).path := by
        cases current with
        | none => exact keepsFile_pure () _
        | some file =>
            apply keepsFile_attempt
            intro installed
            cases installed
      exact kept.bind fun _ =>
        (atomicWrite_keeps_backup backup _).bind fun _ => keepsFile_pure _ _

theorem save_keeps_backup (backup : slot ∈ backupSlots) (config : Config) :
    KeepsFile (save codec parseUrl directory config) (slot.target directory).path := by
  unfold save
  split
  · exact keepsFile_fail _ _
  · exact atomicWrite_keeps_backup backup _

/-- A backup, once written, is never changed. -/
theorem perform_keeps_backup (backup : slot ∈ backupSlots) (operation : Operation) :
    KeepsFile (perform codec parseUrl directory operation) (slot.target directory).path := by
  cases operation with
  | migrate => exact (loadAndMigrate_keeps_backup backup).bind fun _ => keepsFile_pure _ _
  | rollback => exact (rollback_keeps_backup backup).bind fun _ => keepsFile_pure _ _
  | save config => exact save_keeps_backup backup config

/-! ## Errors -/

/-- A failed migration has not reached its last write. -/
theorem plan_error_keeps_config {original : List UInt8} {object : Fields} {version id : Nat}
    {disk : Disk} {failure : ConfigError}
    (failed : ((migrationPlan floats directory original object version).run ⟨id, none⟩ disk).2 =
      .error failure) :
    ((migrationPlan floats directory original object version).run ⟨id, none⟩
      disk).1.files[configFile directory]? = disk.files[configFile directory]? := by
  obtain ⟨front, rest, parts, after, ending⟩ := performs_front
    (migrationPlan floats directory original object version).writes disk.files id disk.calls
  have files : ((migrationPlan floats directory original object version).run ⟨id, none⟩
      disk).1.files = outcome disk.files front := by
    rw [← after, Plan.run, Program.bind_apply]
    rcases performs (migrationPlan floats directory original object version).writes ⟨id, none⟩ disk
      with ⟨reached, value | error | _⟩
    · dsimp only
      cases (migrationPlan floats directory original object version).result <;> rfl
    · rfl
    · rfl
  rw [files]
  apply outcome_other
  intro write member same
  have among : write ∈ (migrationPlan floats directory original object version).writes := by
    rw [parts]
    simp [member]
  obtain ⟨last, _, _, text, result⟩ := migrationPlan_config among
    (same ▸ write.touches_path id)
  cases rest with
  | nil =>
      have performed := ending.mpr rfl
      rw [Plan.run, Program.bind_apply] at failed
      rcases ran : performs (migrationPlan floats directory original object version).writes
        ⟨id, none⟩ disk with ⟨reached, value | error | _⟩
      · rw [ran] at failed
        dsimp only at failed
        rw [result] at failed
        cases failed
      · have contrary := congrArg Prod.snd ran
        rw [performed] at contrary
        cases contrary
      · have contrary := congrArg Prod.snd ran
        rw [performed] at contrary
        cases contrary
  | cons next rest =>
      have separate : Separate (front ++ next :: rest) := parts ▸ migrationPlan_separate
      rw [parts] at last
      exact not_last separate member last

theorem loadAndMigrate_error :
    KeepsOnError (loadAndMigrate floats directory) (configFile directory) := by
  refine (leaves_read _ _).bind fun found => ?_
  split
  · exact keepsOnError_fail _ _
  · split
    · exact keepsOnError_fail _ _
    · split
      · exact keepsOnError_fail _ _
      · split
        · split
          · exact keepsOnError_pure _ _
          · exact keepsOnError_fail _ _
        · split
          · exact fun id disk failure failed => plan_error_keeps_config failed
          · exact keepsOnError_fail _ _
    · exact keepsOnError_fail _ _

theorem keepCurrent_leaves (current : Option File) :
    Leaves (keepCurrent directory current) (configFile directory) := by
  cases current with
  | none => exact fun _ _ => rfl
  | some file =>
      have distinct : Slot.config ≠ .preRollback := by decide
      exact leaves_attempt fun same =>
        Slot.target_apart directory distinct 0 0 _ (Or.inl rfl) (Or.inl same)

theorem rollback_error : KeepsOnError (rollback directory) (configFile directory) := by
  refine (leaves_read _ _).bind fun preV2 => ?_
  refine (leaves_read _ _).bind fun previous => ?_
  cases previous with
  | none => exact keepsOnError_fail _ _
  | some previous =>
      refine (leaves_read _ _).bind fun current => ?_
      exact (keepCurrent_leaves current).bind fun _ => (keepsOnError_attempt _ _).map _

/-- A rollback that succeeds has installed the pre-v2 backup. -/
theorem rollback_ok {id : Nat} {disk after : Disk} {backup : String} {file : File}
    (held : disk.files[joinPath directory preV2Backup]? = some file)
    (ok : rollback directory ⟨id, none⟩ disk = (after, .ok backup)) :
    after.files[configFile directory]? = some ⟨file.content, ownerOnly⟩ := by
  rw [rollback, Program.bind_apply, Program.read_apply, held] at ok
  dsimp only [Option.isSome_some, if_true] at ok
  rw [Program.bind_apply, Program.read_apply] at ok
  dsimp only at ok
  rw [if_pos rfl, held] at ok
  dsimp only at ok
  rw [Program.bind_apply, Program.read_apply] at ok
  dsimp only at ok
  rw [Program.bind_apply] at ok
  rcases ran : keepCurrent directory disk.files[configFile directory]? ⟨id, none⟩ disk
    with ⟨middle, done | failure | _⟩
  · rw [ran] at ok
    dsimp only at ok
    rw [Program.bind_apply, Write.attempt_run] at ok
    by_cases ready : (atomicWrite directory file.content).Ready id middle.files
    · rw [if_pos ready] at ok
      cases ok
      exact Std.ExtTreeMap.getElem?_insert_self
    · rw [if_neg ready] at ok
      cases ok
  · rw [ran] at ok
    cases ok
  · rw [ran] at ok
    cases ok

end Operations

/-! ## Histories -/

/-- The pre-v2 backup holds these bytes. -/
def BackedUp (directory : String) (original : List UInt8) (files : Files) : Prop :=
  ∃ file, files[joinPath directory preV2Backup]? = some file ∧ file.content = original

theorem backedUp_of_migrated {directory : String} {files : Files} {file : File} {object : Fields}
    {version id : Nat} {disk : Disk} {text : String}
    (stored : files[configFile directory]? = some file)
    (parsed : parseBytes floats file.content = some (.object object))
    (read : schemaVersion object = .ok version) (old : version ≤ 1)
    (migrated : loadAndMigrate floats directory ⟨id, none⟩ ⟨files, 0⟩ = (disk, .ok text)) :
    BackedUp directory file.content disk.files := by
  rw [loadAndMigrate_plan stored parsed read old] at migrated
  have separate : Separate (migrationPlan floats directory file.content object version).writes :=
    migrationPlan_separate
  obtain ⟨result, ready⟩ := (Plan.run_ok_iff separate id text).mp (congrArg Prod.snd migrated)
  have reached : disk.files = _ :=
    (congrArg (fun done => done.1.files) migrated).symm.trans (Plan.run_files separate id ready)
  obtain ⟨after, secrets, moved, _⟩ := migrationPlan_ok result
  have among : immutableBackup (joinPath directory preV2Backup) file.content ∈
      (migrationPlan floats directory file.content object version).writes := by
    rw [migrationPlan_writes_ok moved, backupWrites]
    split <;> simp
  obtain ⟨backup, held, same⟩ := Write.put_sealed (ready _ among)
  refine ⟨backup, ?_, same⟩
  rw [reached]
  exact (outcome_at separate among).trans held

variable {codec : ConfigCodec floats} {parseUrl : UrlParser} {directory : String}

theorem callStep_backedUp {original : List UInt8} {files : Files} (call : Call)
    (backed : BackedUp directory original files) :
    BackedUp directory original (callStep codec parseUrl directory files call) := by
  obtain ⟨file, held, same⟩ := backed
  have backup : Slot.preV2 ∈ backupSlots := by decide
  exact ⟨file, perform_keeps_backup backup call.operation call.process ⟨files, 0⟩ file held, same⟩

theorem callResult_rollback {original : List UInt8} {files : Files} {call : Call}
    (rolls : call.operation = .rollback) (backed : BackedUp directory original files)
    (ok : (callResult codec parseUrl directory files call).2 = .ok ()) :
    ∃ restored, (callStep codec parseUrl directory files call)[configFile directory]? =
      some restored ∧ restored.content = original := by
  obtain ⟨file, held, same⟩ := backed
  have bound : callResult codec parseUrl directory files call =
      (rollback directory >>= fun _ => pure ()) ⟨call.process, none⟩ ⟨files, 0⟩ := by
    rw [callResult, rolls]
    rfl
  rw [callStep, bound]
  rw [bound] at ok
  rw [Program.bind_apply] at ok ⊢
  rcases ran : rollback directory ⟨call.process, none⟩ ⟨files, 0⟩ with ⟨after, backup | failure | _⟩
  · exact ⟨_, rollback_ok held ran, same⟩
  · rw [ran] at ok
    cases ok
  · rw [ran] at ok
    cases ok

/-- After a first migration every rollback that succeeds brings its document back;
no operation changes a backup; a failed migration or rollback leaves the
configuration as it was. -/
theorem rollback_restores (codec : ConfigCodec floats) (parseUrl : UrlParser) (directory : String)
    (files : Files) (file : File) (object : Fields) (version id : Nat) (disk : Disk) (text : String)
    (stored : files[configFile directory]? = some file)
    (parsed : parseBytes floats file.content = some (.object object))
    (read : schemaVersion object = .ok version) (old : version ≤ 1)
    (migrated : loadAndMigrate floats directory ⟨id, none⟩ ⟨files, 0⟩ = (disk, .ok text))
    (calls : List Call) :
    EveryStep (callStep codec parseUrl directory)
        (fun files call => call.operation = .rollback →
          (callResult codec parseUrl directory files call).2 = .ok () →
          ∃ restored, (callStep codec parseUrl directory files call)[configFile directory]? =
            some restored ∧ restored.content = file.content) disk.files calls ∧
      (∀ slot ∈ backupSlots, ∀ files call backup,
        files[(slot.target directory).path]? = some backup →
        (callStep codec parseUrl directory files call)[(slot.target directory).path]? =
          some backup) ∧
      ∀ files call failure, call.operation = .migrate ∨ call.operation = .rollback →
        (callResult codec parseUrl directory files call).2 = .error failure →
        (callStep codec parseUrl directory files call)[configFile directory]? =
          files[configFile directory]? := by
  refine ⟨?_, ?_, ?_⟩
  · refine everyStep_of_invariant (callStep codec parseUrl directory)
      (BackedUp directory file.content) (fun _ _ => True) _
      (fun _ call backed _ => callStep_backedUp call backed)
      (fun _ call backed _ rolls ok => callResult_rollback rolls backed ok) _ _
      (backedUp_of_migrated stored parsed read old migrated) ?_
    exact fun _ _ => trivial
  · intro slot backup files call kept held
    exact perform_keeps_backup backup call.operation call.process ⟨files, 0⟩ kept held
  · intro files call failure kind failed
    rw [callStep]
    rw [callResult] at failed ⊢
    rcases kind with migrates | rolls
    · rw [migrates] at failed ⊢
      exact loadAndMigrate_error.map (fun _ => ()) _ _ failure failed
    · rw [rolls] at failed ⊢
      exact rollback_error.map (fun _ => ()) _ _ failure failed

theorem rollback_restores_legacy : ∃ disk : Disk,
    EveryStep (callStep recordCodec anyUrl "/home")
      (fun files call => call.operation = .rollback →
        (callResult recordCodec anyUrl "/home" files call).2 = .ok () →
        ∃ restored, (callStep recordCodec anyUrl "/home" files call)[configFile "/home"]? =
          some restored ∧ restored.content = legacyFile.content)
      disk.files [⟨8, .rollback⟩, ⟨9, .migrate⟩, ⟨8, .save {}⟩, ⟨8, .rollback⟩] := by
  obtain ⟨disk, text, run⟩ := legacy_migrates
  exact ⟨disk, (rollback_restores recordCodec anyUrl "/home" legacyFiles legacyFile legacyDocument
    0 7 disk text legacyFiles_config parseBytes_legacy (by decide) (by decide) run _).1⟩

end SystemPilot.Configuration
