import Mathlib.Tactic
import SystemPilot.Configuration.Upgrade

/-!
# Restarting a migration

What a migration that ended at a crash point leaves, and when running it again
reaches the files of an uninterrupted one.
-/

set_option autoImplicit false

namespace SystemPilot.Configuration

open SystemPilot.Text
open SystemPilot.Json
open SystemPilot.Library.CrashFiles

variable {floats : FloatText} {directory : String} {files : Files} {file : File} {object : Fields}
  {version : Nat} {first second : Nat}

/-- Nothing of an earlier migration stands in the way of process `id`. -/
structure Startable (directory : String) (files : Files) (original : List UInt8) (id : Nat) :
    Prop where
  backups : ∀ slot ∈ [Slot.preV1, Slot.preV2], ∀ file,
    files[(slot.target directory).path]? = some file → file.content = original
  temporaries : ∀ slot ∈ Slot.migrated, ∀ temporary ∈ (slot.target directory).temporary,
    files[temporary id]? = none

theorem migrationPlan_slot {original : List UInt8} {write : Write ConfigError}
    (member : write ∈ (migrationPlan floats directory original object version).writes) :
    ∃ slot ∈ Slot.migrated, write.target = slot.target directory := by
  obtain ⟨slot, present, same⟩ := List.mem_map.mp
    (migrationPlan_targets.subset (List.mem_map_of_mem member))
  exact ⟨slot, present, same.symm⟩

theorem Slot.target_sealed {slot : Slot} (written : slot ∈ Slot.migrated)
    (sealed : (slot.target directory).temporary = none) : slot ∈ [Slot.preV1, Slot.preV2] := by
  cases slot with
  | preV1 | preV2 => simp
  | gemini | syspilot | telemetry | fleet | config => cases sealed
  | preRollback => simp [Slot.migrated] at written

/-- The sealed files of a migration hold the document it started from. -/
theorem migrationPlan_sealed {original content : List UInt8} {path : String} {mode : Nat}
    {conflict : ConfigError}
    (member : Write.sealed path content mode conflict ∈
      (migrationPlan floats directory original object version).writes) : content = original := by
  have backup : Write.sealed path content mode conflict ∈ backupWrites directory original version →
      content = original := by
    intro among
    unfold backupWrites at among
    split at among
    · simp only [immutableBackup, List.mem_cons, Write.sealed.injEq, List.not_mem_nil,
        or_false] at among
      rcases among with ⟨_, same, _⟩ | ⟨_, same, _⟩
      · exact same
      · exact same
    · simp only [immutableBackup, List.mem_singleton, Write.sealed.injEq] at among
      exact among.2.1
  have secret : ∀ secrets after,
      migrateAll (joinPath directory "credentials") legacyPlaces (migrateModel object) =
        ⟨secrets, after⟩ → Write.sealed path content mode conflict ∉ secrets := by
    intro secrets after moved among
    have target := (secrets_targets moved).subset (List.mem_map_of_mem among)
    simp [Slot.target, secretTarget, Write.target] at target
  rcases moved : migrateAll (joinPath directory "credentials") legacyPlaces (migrateModel object)
    with ⟨secrets, failure | after⟩
  · rw [migrationPlan_writes_error moved] at member
    rcases List.mem_append.mp member with early | late
    · exact backup early
    · exact absurd late (secret _ _ moved)
  · rw [migrationPlan_writes_ok moved] at member
    rcases List.mem_append.mp member with early | last
    · rcases List.mem_append.mp early with early | late
      · exact backup early
      · exact absurd late (secret _ _ moved)
    · simp [atomicWrite] at last

theorem Startable.ready {original : List UInt8} {id : Nat}
    (startable : Startable directory files original id) {write : Write ConfigError}
    (member : write ∈ (migrationPlan floats directory original object version).writes) :
    write.Ready id files := by
  obtain ⟨slot, present, target⟩ := migrationPlan_slot member
  cases write with
  | sealed path content mode conflict =>
      rw [migrationPlan_sealed member]
      have sealed := Slot.target_sealed present (congrArg Target.temporary target).symm
      have named : path = (slot.target directory).path := congrArg Target.path target
      intro found held
      exact startable.backups slot sealed found (named ▸ held)
  | installed temporary path content mode taken =>
      exact startable.temporaries slot present temporary (congrArg Target.temporary target).symm

theorem migrationPlan_ok_iff {original : List UInt8} :
    (∃ text, (migrationPlan floats directory original object version).result = .ok text) ↔
      ∀ place ∈ legacyPlaces, ∀ value, lookup place.container place.oldKey object = some value →
        Movable value := by
  have fields : (∀ place ∈ legacyPlaces, ∀ value,
      lookup place.container place.oldKey (migrateModel object) = some value → Movable value) ↔
      ∀ place ∈ legacyPlaces, ∀ value, lookup place.container place.oldKey object = some value →
        Movable value := by
    refine forall₂_congr fun place member => ?_
    rw [(lookup_place object object member place.oldKey (Or.inl rfl)).2]
  rw [← fields, ← migrateAll_ok_iff (joinPath directory "credentials") legacyPlaces_orderly]
  rcases moved : migrateAll (joinPath directory "credentials") legacyPlaces (migrateModel object)
    with ⟨secrets, failure | after⟩
  · rw [migrationPlan_writes_error moved]
    simp
  · rw [migrationPlan_writes_ok moved]
    simp

/-- Only the last write of a migration reaches the configuration file. -/
theorem migrationPlan_config {original : List UInt8} {write : Write ConfigError} {id : Nat}
    (member : write ∈ (migrationPlan floats directory original object version).writes)
    (touched : write.Touches id (configFile directory)) :
    (migrationPlan floats directory original object version).writes.getLast? = some write ∧
      configFile directory = write.path ∧ write.target.temporary.isSome ∧
      ∃ text, (migrationPlan floats directory original object version).result = .ok text := by
  have slotted : ∀ slot, write.target = slot.target directory → slot = Slot.config := by
    intro slot same
    by_contra other
    have here := Write.touches_target touched
    rw [same] at here
    exact Slot.target_apart directory other id 0 _ here (Or.inl rfl)
  have notBackup : write ∉ backupWrites directory original version := by
    intro among
    obtain ⟨slot, present, same⟩ :=
      List.mem_map.mp (backupWrites_targets.subset (List.mem_map_of_mem among))
    rw [slotted slot same.symm] at present
    simp at present
  have notSecret : ∀ secrets after,
      migrateAll (joinPath directory "credentials") legacyPlaces (migrateModel object) =
        ⟨secrets, after⟩ → write ∉ secrets := by
    intro secrets after moved among
    obtain ⟨slot, present, same⟩ :=
      List.mem_map.mp ((secrets_targets moved).subset (List.mem_map_of_mem among))
    rw [slotted slot same.symm] at present
    simp at present
  rcases moved : migrateAll (joinPath directory "credentials") legacyPlaces (migrateModel object)
    with ⟨secrets, failure | after⟩
  · rw [migrationPlan_writes_error moved] at member
    rcases List.mem_append.mp member with early | late
    · exact absurd early notBackup
    · exact absurd late (notSecret _ _ moved)
  · rw [migrationPlan_writes_ok moved] at member ⊢
    rcases List.mem_append.mp member with early | last
    · rcases List.mem_append.mp early with early | late
      · exact absurd early notBackup
      · exact absurd late (notSecret _ _ moved)
    · obtain rfl := List.mem_singleton.mp last
      exact ⟨List.getLast?_concat, rfl, rfl, _, rfl⟩

/-- Running the migration again without a crash ends as the whole migration does:
the same document, secrets and backups, and the meaning of the first document. -/
structure Restarts (floats : FloatText) (directory : String) (files : Files) (object : Fields)
    (first second : Nat) (point : CrashPoint) : Prop where
  succeeds : ∃ text, (loadAndMigrate floats directory ⟨second, none⟩
    ⟨(loadAndMigrate floats directory ⟨first, some point⟩ ⟨files, 0⟩).1.files, 0⟩).2 = .ok text
  same : ∀ slot ∈ Slot.migrated,
    (loadAndMigrate floats directory ⟨second, none⟩
      ⟨(loadAndMigrate floats directory ⟨first, some point⟩ ⟨files, 0⟩).1.files,
        0⟩).1.files[(slot.target directory).path]? =
    (loadAndMigrate floats directory ⟨first, none⟩
      ⟨files, 0⟩).1.files[(slot.target directory).path]?
  meaning : ∃ document,
    (loadAndMigrate floats directory ⟨second, none⟩
      ⟨(loadAndMigrate floats directory ⟨first, some point⟩ ⟨files, 0⟩).1.files,
        0⟩).1.files[configFile directory]? =
        some ⟨bytesOf (printed floats document), ownerOnly⟩ ∧
    MeaningKept directory
      (loadAndMigrate floats directory ⟨second, none⟩
        ⟨(loadAndMigrate floats directory ⟨first, some point⟩ ⟨files, 0⟩).1.files, 0⟩).1.files
      object document

/-- The runs of a plan and of its writes. -/
theorem run_of_performs {α : Type} {plan : Plan ConfigError α} {process : Process} {disk after : Disk}
    (done : performs plan.writes process disk = (after, .ok ())) :
    plan.run process disk = (after, match plan.result with
      | .ok value => .ok value
      | .error failure => .error failure) := by
  rw [Plan.run, Program.bind_apply, done]
  dsimp only
  cases plan.result <;> rfl

theorem run_of_crash {α : Type} {plan : Plan ConfigError α} {process : Process} {disk after : Disk}
    (crashed : performs plan.writes process disk = (after, .crash)) :
    plan.run process disk = (after, .crash) := by
  rw [Plan.run, Program.bind_apply, crashed]

/-- A slot's own path is no temporary file of a migration. -/
theorem slot_path_kept {original : List UInt8} {slot : Slot} {write : Write ConfigError} {id : Nat}
    (member : write ∈ (migrationPlan floats directory original object version).writes)
    (touched : write.Touches id (slot.target directory).path) :
    (slot.target directory).path = write.path := by
  obtain ⟨other, _, same⟩ := migrationPlan_slot member
  have here := Write.touches_target touched
  rw [same] at here
  have equal : other = slot := by
    by_contra distinct
    exact Slot.target_apart directory distinct id 0 _ here (Or.inl rfl)
  have path : write.path = write.target.path := by cases write <;> rfl
  rw [path, same, equal]

/-- A run over files that still hold the document is a run of its plan. -/
theorem rerun_plan_ok {files : Files} {id : Nat} {text : String}
    (stored : files[configFile directory]? = some file)
    (parsed : parseBytes floats file.content = some (.object object))
    (read : schemaVersion object = .ok version) (old : version ≤ 1)
    (ok : (loadAndMigrate floats directory ⟨id, none⟩ ⟨files, 0⟩).2 = .ok text) :
    (migrationPlan floats directory file.content object version).result = .ok text ∧
      ∀ write ∈ (migrationPlan floats directory file.content object version).writes,
        write.Ready id files := by
  rw [loadAndMigrate_plan stored parsed read old] at ok
  exact (Plan.run_ok_iff migrationPlan_separate id text).mp ok

/-- A migration that crashed can be run again exactly when every legacy secret can
be moved and the crash left nothing that stops the second process. -/
theorem migration_restarts_iff (floats : FloatText) (directory : String) (files : Files)
    (file : File) (object : Fields) (version first second : Nat) (point : CrashPoint)
    (stored : files[configFile directory]? = some file)
    (parsed : parseBytes floats file.content = some (.object object))
    (read : schemaVersion object = .ok version) (old : version ≤ 1)
    (startable : Startable directory files file.content first)
    (again : Startable directory files file.content second) :
    Restarts floats directory files object first second point ↔
      (∀ place ∈ legacyPlaces, ∀ value, lookup place.container place.oldKey object = some value →
        Movable value) ∧
      Recoverable first second files
        (migrationPlan floats directory file.content object version).writes point := by
  have separate : Separate (migrationPlan floats directory file.content object version).writes :=
    migrationPlan_separate
  have ready : ∀ write ∈ (migrationPlan floats directory file.content object version).writes,
      write.Ready first files := fun write member => startable.ready member
  have readyAgain : ∀ write ∈ (migrationPlan floats directory file.content object version).writes,
      write.Ready second files := fun write member => again.ready member
  have started : ∀ process disk, disk.files[configFile directory]? = some file →
      loadAndMigrate floats directory process disk =
        (migrationPlan floats directory file.content object version).run process disk :=
    fun process disk held => loadAndMigrate_plan held parsed read old
  have whole : (loadAndMigrate floats directory ⟨first, none⟩ ⟨files, 0⟩).1.files =
      outcome files (migrationPlan floats directory file.content object version).writes := by
    rw [started _ _ stored]
    exact Plan.run_files separate first ready
  have movable : (∃ text, (migrationPlan floats directory file.content object
      version).result = .ok text) ↔ _ := migrationPlan_ok_iff
  rw [← movable]
  rcases performs_interrupted separate ready readyAgain point with
    ⟨complete, recoverable⟩ | ⟨crashed, calls, ended, facts⟩
  · -- the crash point lies behind the last write: the first run was a whole one
    have left : (loadAndMigrate floats directory ⟨first, some point⟩ ⟨files, 0⟩).1.files =
        outcome files (migrationPlan floats directory file.content object version).writes := by
      rw [started _ _ stored, run_of_performs complete]
    constructor
    · intro restarts
      refine ⟨?_, recoverable⟩
      obtain ⟨text, ok⟩ := restarts.succeeds
      by_contra failed
      have kept : (outcome files (migrationPlan floats directory file.content object
          version).writes)[configFile directory]? = some file := by
        rw [outcome_other, stored]
        intro write member same
        exact failed (migrationPlan_config member (same ▸ write.touches_path 0)).2.2.2
      rw [left] at ok
      exact failed ⟨text, (rerun_plan_ok kept parsed read old ok).1⟩
    · rintro ⟨⟨text, result⟩, _⟩
      obtain ⟨document, rfl, config, meaning, reparsed⟩ := outcome_meaning files parsed result
      have rerun : loadAndMigrate floats directory ⟨second, none⟩ ⟨outcome files
          (migrationPlan floats directory file.content object version).writes, 0⟩ = _ :=
        loadAndMigrate_again config reparsed meaning.current _
      exact {
        succeeds := by
          rw [left, rerun]
          exact ⟨_, rfl⟩
        same := by
          intro slot _
          rw [left, rerun, whole]
        meaning := by
          rw [left, rerun]
          exact ⟨document, config, meaning⟩ }
  · -- the run ended before its last write: the document still stands
    have left : (loadAndMigrate floats directory ⟨first, some point⟩ ⟨files, 0⟩).1.files =
        crashed := by
      rw [started _ _ stored, run_of_crash ended]
    have kept : crashed[configFile directory]? = some file := by
      rw [facts.target, stored]
      intro write member touched
      obtain ⟨last, same, installed, _⟩ := migrationPlan_config member touched
      exact ⟨last, same, installed⟩
    constructor
    · intro restarts
      obtain ⟨text, ok⟩ := restarts.succeeds
      rw [left] at ok
      obtain ⟨result, free⟩ := rerun_plan_ok kept parsed read old ok
      exact ⟨⟨text, result⟩, (facts.rerun 0).mp ((performs_ok_iff _ separate second 0).mpr free)⟩
    · rintro ⟨⟨text, result⟩, recoverable⟩
      have free := (performs_ok_iff _ separate second 0).mp ((facts.rerun 0).mpr recoverable)
      have rerun : (loadAndMigrate floats directory ⟨second, none⟩ ⟨crashed, 0⟩).1.files =
          outcome crashed (migrationPlan floats directory file.content object version).writes := by
        rw [started _ _ kept]
        exact Plan.run_files separate second free
      obtain ⟨document, rfl, config, meaning, _⟩ := outcome_meaning crashed parsed result
      exact {
        succeeds := by
          rw [left, started _ _ kept]
          exact ⟨_, (Plan.run_ok_iff separate second _).mpr ⟨result, free⟩⟩
        same := by
          intro slot _
          rw [left, rerun, whole]
          exact facts.same recoverable _ fun write member touched => slot_path_kept member touched
        meaning := by
          rw [left, rerun]
          exact ⟨document, config, meaning⟩ }

/-- A directory with nothing but its configuration can be migrated by any process. -/
theorem startable_fresh (directory : String) (file : File) (id : Nat) :
    Startable directory ((∅ : Files).insert (configFile directory) file) file.content id := by
  have elsewhere : ∀ place, configFile directory ≠ place →
      ((∅ : Files).insert (configFile directory) file)[place]? = none := by
    intro place distinct
    rw [Library.SortedMap.getElem?_insert_of_ne _ _ distinct]
    rfl
  constructor
  · intro slot member found held
    have distinct : Slot.config ≠ slot := by
      rintro rfl
      simp at member
    have apart := Slot.target_apart directory distinct
    rw [elsewhere _ fun same => apart 0 0 _ (Or.inl rfl) (Or.inl same)] at held
    cases held
  · intro slot member temporary beside
    apply elsewhere
    by_cases same : slot = .config
    · subst same
      exact fun equal => (Slot.target_own directory .config temporary beside).1 id equal.symm
    · intro equal
      exact Slot.target_apart directory (Ne.symm same) 0 id _ (Or.inl rfl)
        (Or.inr ⟨temporary, beside, equal⟩)

theorem migration_restarts_before_secret :
    Restarts bitFloats "/home" legacyFiles legacyDocument 7 7 (.before 2) := by
  have planned : ∃ text, (migrationPlan bitFloats "/home" legacyFile.content legacyDocument
      0).result = .ok text := ⟨_, rfl⟩
  exact (migration_restarts_iff bitFloats "/home" legacyFiles legacyFile legacyDocument 0 7 7
    (.before 2) legacyFiles_config parseBytes_legacy (by decide) (by decide)
    (startable_fresh "/home" legacyFile 7) (startable_fresh "/home" legacyFile 7)).mpr
    ⟨migrationPlan_ok_iff.mp planned, trivial⟩

/-- A backup with three bytes written stops every later migration. -/
theorem torn_backup_blocks_migration :
    ¬ Restarts bitFloats "/home" legacyFiles legacyDocument 7 8 (.inside 0 3) := by
  intro restarts
  obtain ⟨text, ok⟩ := restarts.succeeds
  have refused : (loadAndMigrate bitFloats "/home" ⟨8, none⟩ ⟨(loadAndMigrate bitFloats "/home"
      ⟨7, some (.inside 0 3)⟩ ⟨legacyFiles, 0⟩).1.files, 0⟩).2 =
      .error (.validation ("configuration backup /home/config.pre-v1.json" ++
        " already exists with different contents; refusing to overwrite it")) := by
    decide +kernel
  rw [refused] at ok
  cases ok

end SystemPilot.Configuration
