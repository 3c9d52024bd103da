import Mathlib.Tactic
import SystemPilot.Configuration.Secrets
import SystemPilot.Configuration.Settings

/-!
# What a migration keeps

The plan of a migration in closed form, and from it what a successful migration
makes of a document: which fields it changes, what the references resolve to,
and that there is nothing left to migrate.
-/

set_option autoImplicit false

namespace SystemPilot.Configuration

open SystemPilot.Text
open SystemPilot.Json
open SystemPilot.Library.CrashFiles

variable {floats : FloatText} {directory : String} {original : List UInt8} {object : Fields}
  {version : Nat}

/-! ## The plan -/

def backupWrites (directory : String) (original : List UInt8) (version : Nat) :
    List (Write ConfigError) :=
  if version = 0 then
    [immutableBackup (joinPath directory preV1Backup) original,
      immutableBackup (joinPath directory preV2Backup) original]
  else [immutableBackup (joinPath directory preV2Backup) original]

def currentDocument (object : Fields) : Fields :=
  Fields.insert "schema_version" (.number (.posInt currentSchemaVersion)) object

def printed (floats : FloatText) (document : Fields) : String :=
  String.ofList (pretty floats 0 (.object document))

theorem migrateSecrets_eq (object : Fields) (directory : String) :
    migrateSecrets object directory = migrateAll directory legacyPlaces object := by
  have last (plan : Plan ConfigError Fields) : (plan >>= fun fields => pure fields) = plan := by
    cases reached : plan.result with
    | error failure => rw [Plan.bind_error _ reached, ← reached]
    | ok value => rw [Plan.bind_ok _ reached, Plan.pure_writes, List.append_nil, Plan.pure_result, ← reached]
  simp only [migrateSecrets, migrateAll, legacyPlaces, migrateAt, last]

theorem migrationPlan_writes_ok {after : Fields} {secrets : List (Write ConfigError)}
    (moved : migrateAll (joinPath directory "credentials") legacyPlaces (migrateModel object) =
      ⟨secrets, .ok after⟩) :
    migrationPlan floats directory original object version =
      ⟨backupWrites directory original version ++ secrets ++
        [atomicWrite directory (bytesOf (printed floats (currentDocument after)))],
        .ok (printed floats (currentDocument after))⟩ := by
  rw [migrationPlan, migrateSecrets_eq, moved, backupWrites]
  split <;> simp [Plan.bind_ok, Plan.write, printed, currentDocument]

theorem migrationPlan_writes_error {failure : ConfigError} {secrets : List (Write ConfigError)}
    (stuck : migrateAll (joinPath directory "credentials") legacyPlaces (migrateModel object) =
      ⟨secrets, .error failure⟩) :
    migrationPlan floats directory original object version =
      ⟨backupWrites directory original version ++ secrets, .error failure⟩ := by
  rw [migrationPlan, migrateSecrets_eq, stuck, backupWrites]
  split <;> rfl

theorem migrationPlan_ok {text : String}
    (ok : (migrationPlan floats directory original object version).result = .ok text) :
    ∃ after secrets,
      migrateAll (joinPath directory "credentials") legacyPlaces (migrateModel object) =
        ⟨secrets, .ok after⟩ ∧ text = printed floats (currentDocument after) := by
  rcases moved : migrateAll (joinPath directory "credentials") legacyPlaces (migrateModel object)
    with ⟨secrets, failure | after⟩
  · rw [migrationPlan_writes_error moved] at ok
    cases ok
  · rw [migrationPlan_writes_ok moved] at ok
    cases ok
    exact ⟨after, secrets, rfl, rfl⟩

theorem backupWrites_targets :
    ((backupWrites directory original version).map Write.target).Sublist
      ([Slot.preV1, Slot.preV2].map (Slot.target directory)) := by
  unfold backupWrites
  split
  · exact List.Sublist.refl _
  · exact List.sublist_cons_self _ _

theorem secrets_targets {after : Except ConfigError Fields} {secrets : List (Write ConfigError)}
    (moved : migrateAll (joinPath directory "credentials") legacyPlaces (migrateModel object) =
      ⟨secrets, after⟩) :
    (secrets.map Write.target).Sublist
      ([Slot.gemini, .syspilot, .telemetry, .fleet].map (Slot.target directory)) := by
  have targets : ((migrateAll (joinPath directory "credentials") legacyPlaces
      (migrateModel object)).writes.map Write.target).Sublist _ :=
    migrateAll_targets legacyPlaces_orderly
  rw [moved] at targets
  exact targets

theorem migrationPlan_targets :
    ((migrationPlan floats directory original object version).writes.map Write.target).Sublist
      (Slot.migrated.map (Slot.target directory)) := by
  rcases moved : migrateAll (joinPath directory "credentials") legacyPlaces (migrateModel object)
    with ⟨secrets, failure | after⟩
  · rw [migrationPlan_writes_error moved, List.map_append]
    exact (backupWrites_targets.append (secrets_targets moved)).trans (List.sublist_append_left _
      [Slot.target directory .config])
  · rw [migrationPlan_writes_ok moved, List.map_append, List.map_append]
    exact (backupWrites_targets.append (secrets_targets moved)).append (List.Sublist.refl _)

/-- Each file of a migration is written once. -/
theorem migrationPlan_separate :
    Separate (migrationPlan floats directory original object version).writes :=
  separate_of_slots (show Slot.migrated.Nodup by decide) migrationPlan_targets

/-! ## The document -/

theorem lookup_insert_other {container : Option String} {key name : String} (value : Value)
    (field : container = none → key ≠ name) (holder : container ≠ some name) :
    lookup container key (Fields.insert name value object) = lookup container key object := by
  cases container with
  | none => exact Fields.get_insert_of_ne _ _ (field rfl).symm
  | some other =>
      have distinct : name ≠ other := fun same => holder (congrArg some same.symm)
      rw [lookup, lookup, fieldsAt_congr (Fields.get_insert_of_ne _ _ distinct)]

theorem lookup_migrateModel {container : Option String} {key : String}
    (field : container = none → key ≠ "gemini_model") (holder : container ≠ some "gemini_model") :
    lookup container key (migrateModel object) = lookup container key object := by
  unfold migrateModel
  split
  · split
    · exact lookup_insert_other _ field holder
    · rfl
  · rfl

theorem get_migrateModel_model :
    Fields.get (migrateModel object) "gemini_model" =
      match Fields.get object "gemini_model" with
      | some (.string model) =>
          if outdatedModel model then some (.string "gemini-3.6-flash") else some (.string model)
      | other => other := by
  unfold migrateModel
  cases held : Fields.get object "gemini_model" with
  | none => simp [held]
  | some value =>
      cases value with
      | string model =>
          simp only [Option.bind_some, Value.asString]
          split
          · exact Fields.get_insert_self _ _ _
          · exact held
      | null | bool | number | array | object => simpa [Value.asString] using held

theorem canonical_migrateModel (held : (Value.object object).canonical 127 = true) :
    (Value.object (migrateModel object)).canonical 127 = true := by
  unfold migrateModel
  split
  · split
    · exact canonical_insert held _ _ (canonical_string _ _)
    · exact held
  · exact held

/-- The fields a migration is about. -/
def MigrationTouches (container : Option String) (key : String) : Prop :=
  container = none ∧ (key = "schema_version" ∨ key = "gemini_model") ∨
    ∃ place ∈ legacyPlaces, place.Touches container key

/-- What a migration keeps of a document and what it makes of the rest; `files`
are those the migration leaves. -/
structure MeaningKept (directory : String) (files : Files) (object migrated : Fields) : Prop where
  current : Fields.get migrated "schema_version" = some (.number (.posInt currentSchemaVersion))
  modelReplaced : ∀ model, Fields.get object "gemini_model" = some (.string model) →
    outdatedModel model = true →
    Fields.get migrated "gemini_model" = some (.string "gemini-3.6-flash")
  modelKept : (∀ model, Fields.get object "gemini_model" = some (.string model) →
    outdatedModel model = false) →
    Fields.get migrated "gemini_model" = Fields.get object "gemini_model"
  modelAccepted : ∀ model, Fields.get migrated "gemini_model" = some (.string model) →
    invalidModel model = false
  others : ∀ container key, (∀ name, container = some name → name = "distributed_telemetry" ∨
      name = "fleet") → ¬ MigrationTouches container key →
    lookup container key migrated = lookup container key object
  containers : ∀ name, name = "distributed_telemetry" ∨ name = "fleet" →
    (fieldsAt (some name) migrated).isSome = (fieldsAt (some name) object).isSome ∧
      (fieldsAt (some name) object = none → Fields.get migrated name = Fields.get object name)
  secretsGone : ∀ place ∈ legacyPlaces, lookup place.container place.oldKey migrated = none
  absent : ∀ place ∈ legacyPlaces, lookup place.container place.oldKey object = none →
    lookup place.container place.referenceKey migrated =
      lookup place.container place.referenceKey object
  emptied : ∀ place ∈ legacyPlaces,
    lookup place.container place.oldKey object = some (.string "") →
    lookup place.container place.referenceKey migrated = some CredentialRef.none.toValue
  stored : ∀ place ∈ legacyPlaces, ∀ secret,
    lookup place.container place.oldKey object = some (.string secret) → secret ≠ "" →
    ∃ reference value, lookup place.container place.referenceKey migrated = some value ∧
      CredentialRef.fromValue value = some reference ∧
      ∀ environment, resolve environment files reference = .ok (some (trimLineEnds secret))

/-- The places stand apart from the version and the model. -/
theorem legacyPlaces_apart : ∀ place ∈ legacyPlaces,
    (place.container = none → place.oldKey ∉ ["schema_version", "gemini_model"] ∧
      place.referenceKey ∉ ["schema_version", "gemini_model"]) ∧
    place.container ∉ [some "schema_version", some "gemini_model"] := by
  decide

/-- A field of a place before the model rule and after the version rule. -/
theorem lookup_place (object after : Fields) {place : Place} (member : place ∈ legacyPlaces) (key : String)
    (about : key = place.oldKey ∨ key = place.referenceKey) :
    lookup place.container key (currentDocument after) = lookup place.container key after ∧
      lookup place.container key (migrateModel object) = lookup place.container key object := by
  obtain ⟨fields, holder⟩ := legacyPlaces_apart place member
  simp only [List.mem_cons, List.not_mem_nil, or_false, not_or] at fields holder
  constructor
  · apply lookup_insert_other _ _ holder.1
    intro top
    rcases about with rfl | rfl
    · exact (fields top).1.1
    · exact (fields top).2.1
  · apply lookup_migrateModel _ holder.2
    intro top
    rcases about with rfl | rfl
    · exact (fields top).1.2
    · exact (fields top).2.2

section Kept

variable {after : Fields} {secrets : List (Write ConfigError)}
  (moved : migrateAll (joinPath directory "credentials") legacyPlaces (migrateModel object) =
    ⟨secrets, .ok after⟩)

include moved

theorem model_of_moved :
    Fields.get (currentDocument after) "gemini_model" =
      Fields.get (migrateModel object) "gemini_model" := by
  obtain ⟨_, frame⟩ := migrateAll_settled legacyPlaces_orderly moved
  have untouched : ∀ place ∈ legacyPlaces, ¬ place.Touches none "gemini_model" := by decide
  have same := frame none "gemini_model" untouched
  rw [lookup_none, lookup_none] at same
  rw [currentDocument, Fields.get_insert_of_ne _ _ (by decide), same]

theorem meaning_kept {files : Files}
    (held : ∀ place ∈ legacyPlaces, ∀ secret,
      secretWrite (joinPath directory "credentials") place.filename secret ∈ secrets →
      files[joinPath (joinPath directory "credentials") place.filename]? =
        some ⟨bytesOf secret, ownerOnly⟩) :
    MeaningKept directory files object (currentDocument after) := by
  obtain ⟨settled, frame⟩ := migrateAll_settled legacyPlaces_orderly moved
  have model := model_of_moved moved
  rw [get_migrateModel_model] at model
  have old := fun place (member : place ∈ legacyPlaces) =>
    lookup_place object after member place.oldKey (Or.inl rfl)
  have reference := fun place (member : place ∈ legacyPlaces) =>
    lookup_place object after member place.referenceKey (Or.inr rfl)
  exact {
    current := Fields.get_insert_self _ _ _
    modelReplaced := by
      intro name named outdated
      rw [model, named]
      exact if_pos outdated
    modelKept := by
      intro fresh
      rw [model]
      split
      · rename_i name named
        rw [if_neg (by simp [fresh name named])]
        exact named.symm
      · rfl
    modelAccepted := by
      intro name named
      rw [model] at named
      split at named
      · rename_i before held
        split at named
        · cases named
          decide
        · rename_i fresh
          cases named
          rw [invalidModel_iff_outdated]
          simpa using fresh
      · rename_i other
        exact absurd named (other name)
    others := by
      intro container key among untouched
      have apart : ∀ name, container = some name → name ≠ "schema_version" ∧ name ≠ "gemini_model" := by
        intro name holds
        rcases among name holds with rfl | rfl <;> decide
      rw [currentDocument, lookup_insert_other, frame, lookup_migrateModel]
      · rintro rfl rfl
        exact untouched (Or.inl ⟨rfl, Or.inr rfl⟩)
      · exact fun holds => (apart _ holds).2 rfl
      · exact fun place member touched => untouched (Or.inr ⟨place, member, touched⟩)
      · rintro rfl rfl
        exact untouched (Or.inl ⟨rfl, Or.inl rfl⟩)
      · exact fun holds => (apart _ holds).1 rfl
    containers := by
      intro name among
      have apart : "schema_version" ≠ name ∧ name ≠ "gemini_model" := by
        rcases among with rfl | rfl <;> decide
      have final : Fields.get (currentDocument after) name = Fields.get after name :=
        Fields.get_insert_of_ne _ _ apart.1
      have first : Fields.get (migrateModel object) name = Fields.get object name :=
        (lookup_migrateModel (fun _ => apart.2) (by simp) :
          lookup none name (migrateModel object) = lookup none name object)
      have holder : ∃ place ∈ legacyPlaces, place.container = some name := by
        rcases among with rfl | rfl <;> decide
      obtain ⟨place, member, holds⟩ := holder
      obtain ⟨shape, scalar⟩ := (settled place member).objectKept name holds
      rw [fieldsAt_congr first] at shape scalar
      exact ⟨by rw [fieldsAt_congr final, shape], fun missing =>
        final.trans ((scalar missing).trans first)⟩
    secretsGone := by
      intro place member
      rw [(old place member).1, (settled place member).old]
    absent := by
      intro place member missing
      rw [(reference place member).1, (settled place member).reference, referenceAfter,
        (old place member).2, missing]
      exact (reference place member).2
    emptied := by
      intro place member found
      rw [(reference place member).1, (settled place member).reference, referenceAfter,
        (old place member).2, found]
      exact if_pos rfl
    stored := by
      intro place member secret found filled
      have before := (old place member).2.trans found
      have nonempty : Value.string secret ≠ .string "" := by simpa using filled
      refine ⟨.file (joinPath (joinPath directory "credentials") place.filename), _, ?_,
        CredentialRef.fromValue_toValue _, ?_⟩
      · rw [(reference place member).1, (settled place member).reference, referenceAfter, before]
        exact if_neg nonempty
      · intro environment
        obtain ⟨same, string, shape⟩ := (settled place member).movable _ before
        cases string
        exact resolve_stored environment
          (held place member secret ((settled place member).stored secret before filled))
          (shape.resolve_left filled) }

end Kept

/-! ## The run -/

theorem loadAndMigrate_plan {process : Process} {disk : Disk} {file : File}
    (stored : disk.files[configFile directory]? = some file)
    (parsed : parseBytes floats file.content = some (.object object))
    (read : schemaVersion object = .ok version) (old : version ≤ 1) :
    loadAndMigrate floats directory process disk =
      (migrationPlan floats directory file.content object version).run process disk := by
  have current : version ≠ currentSchemaVersion := by
    unfold currentSchemaVersion
    omega
  have legacy : version = 0 ∨ version = 1 := by omega
  rw [loadAndMigrate, Program.bind_apply, Program.read_apply, stored]
  dsimp only
  rw [parsed]
  dsimp only
  rw [read]
  dsimp only
  rw [if_neg current, if_pos legacy]

theorem loadAndMigrate_current {process : Process} {disk : Disk} {file : File} {text : String}
    (stored : disk.files[configFile directory]? = some file)
    (parsed : parseBytes floats file.content = some (.object object))
    (read : schemaVersion object = .ok currentSchemaVersion)
    (decoded : fromUtf8 file.content = some text) :
    loadAndMigrate floats directory process disk = (disk, .ok text) := by
  rw [loadAndMigrate, Program.bind_apply, Program.read_apply, stored]
  dsimp only
  rw [parsed]
  dsimp only
  rw [read]
  dsimp only
  rw [if_pos rfl, decoded]
  rfl

theorem parseBytes_bytesOf (text : String) :
    parseBytes floats (bytesOf text) = parseText floats text.toList := by
  rw [parseBytes, fromUtf8_bytesOf]
  rfl

/-- A printed document parses back, its doubles read again. -/
theorem parseBytes_printed {document : Fields}
    (canonical : (Value.object document).canonical 127 = true) :
    parseBytes floats (bytesOf (printed floats document)) =
      some (.object (mapFloatsFields floats.reread document)) := by
  rw [parseBytes_bytesOf, printed, String.toList_ofList, parseText_pretty floats _ canonical]
  rfl

theorem schemaVersion_printed {document : Fields}
    (current : Fields.get document "schema_version" = some (.number (.posInt currentSchemaVersion))) :
    schemaVersion (mapFloatsFields floats.reread document) = .ok currentSchemaVersion := by
  rw [schemaVersion, get_mapFloatsFields, current]
  rfl

theorem canonical_currentDocument {after : Fields}
    (held : (Value.object after).canonical 127 = true) :
    (Value.object (currentDocument after)).canonical 127 = true :=
  canonical_insert held _ _ (by decide)

theorem canonical_parsed_object (parsed : parseBytes floats original = some (.object object)) :
    (Value.object object).canonical 127 = true := by
  obtain ⟨text, _, read⟩ := Option.bind_eq_some_iff.mp parsed
  exact canonical_parseText read

/-- What the writes of a migration leave, whatever files it started from. -/
theorem outcome_meaning {text : String} (files : Files)
    (parsed : parseBytes floats original = some (.object object))
    (result : (migrationPlan floats directory original object version).result = .ok text) :
    ∃ document, text = printed floats document ∧
      (outcome files (migrationPlan floats directory original object version).writes)[configFile
        directory]? = some ⟨bytesOf text, ownerOnly⟩ ∧
      MeaningKept directory
        (outcome files (migrationPlan floats directory original object version).writes) object
        document ∧
      parseBytes floats (bytesOf text) = some (.object (mapFloatsFields floats.reread document)) := by
  have separate : Separate (migrationPlan floats directory original object version).writes :=
    migrationPlan_separate
  obtain ⟨after, secrets, moved, rfl⟩ := migrationPlan_ok result
  have written : migrationPlan floats directory original object version = _ :=
    migrationPlan_writes_ok moved
  have last : atomicWrite directory (bytesOf (printed floats (currentDocument after))) ∈
      (migrationPlan floats directory original object version).writes := by
    rw [written]
    simp
  refine ⟨currentDocument after, rfl, ?_, meaning_kept moved ?_, ?_⟩
  · exact (outcome_at separate last).trans Std.ExtTreeMap.getElem?_insert_self
  · intro place _ secret member
    have among : secretWrite (joinPath directory "credentials") place.filename secret ∈
        (migrationPlan floats directory original object version).writes := by
      rw [written]
      simp [member]
    exact (outcome_at separate among).trans Std.ExtTreeMap.getElem?_insert_self
  · exact parseBytes_printed (canonical_currentDocument (migrateAll_canonical legacyPlaces_orderly
      moved (canonical_migrateModel (canonical_parsed_object parsed))))

/-- A migrated document is left as it is. -/
theorem loadAndMigrate_again {disk : Disk} {document : Fields}
    (config : disk.files[configFile directory]? =
      some ⟨bytesOf (printed floats document), ownerOnly⟩)
    (parsed : parseBytes floats (bytesOf (printed floats document)) =
      some (.object (mapFloatsFields floats.reread document)))
    (current : Fields.get document "schema_version" = some (.number (.posInt currentSchemaVersion)))
    (process : Process) :
    loadAndMigrate floats directory process disk = (disk, .ok (printed floats document)) :=
  loadAndMigrate_current config parsed (schemaVersion_printed current) (fromUtf8_bytesOf _)

/-- A version 0 document in an otherwise empty directory. -/
def legacyDocument : Fields :=
  [("fleet", .object [("credential", .string "")]), ("gemini_api_key", .string "key\n")]

def legacyFile : File := ⟨bytesOf (printed bitFloats legacyDocument), ownerOnly⟩

def legacyFiles : Files := (∅ : Files).insert (configFile "/home") legacyFile

theorem legacyFiles_config : legacyFiles[configFile "/home"]? = some legacyFile :=
  Std.ExtTreeMap.getElem?_insert_self

theorem parseBytes_legacy :
    parseBytes bitFloats legacyFile.content = some (.object legacyDocument) := by
  decide +kernel

theorem legacy_migrates : ∃ disk text,
    loadAndMigrate bitFloats "/home" ⟨7, none⟩ ⟨legacyFiles, 0⟩ = (disk, .ok text) := by
  have ends : (loadAndMigrate bitFloats "/home" ⟨7, none⟩ ⟨legacyFiles, 0⟩).2 =
      .ok (printed bitFloats [
        ("fleet", .object [("credential_ref", CredentialRef.none.toValue)]),
        ("gemini_credential", (CredentialRef.file "/home/credentials/gemini-api-key").toValue),
        ("schema_version", .number (.posInt 2))]) := by
    decide +kernel
  rcases run : loadAndMigrate bitFloats "/home" ⟨7, none⟩ ⟨legacyFiles, 0⟩ with ⟨disk, ending⟩
  rw [run] at ends
  obtain rfl : ending = _ := ends
  exact ⟨disk, _, rfl⟩

end SystemPilot.Configuration
