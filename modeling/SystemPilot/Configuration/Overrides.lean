import Mathlib.Tactic
import SystemPilot.Configuration.Codec

/-!
# Environment overrides

Loading mixes what is stored with what the environment says, and saving stores
the mixture.  Which references come out of a load and a save as they went in is
said exactly.
-/

set_option autoImplicit false

namespace SystemPilot.Configuration

open SystemPilot.Text
open SystemPilot.Json
open SystemPilot.Library.CrashFiles

def adoptSystemdCredential (environment : Environment) (files : Files) (reference : CredentialRef)
    (name : String) : CredentialRef :=
  if reference ≠ .none then reference
  else match environment "CREDENTIALS_DIRECTORY" with
    | none => reference
    | some directory => if joinPath directory name ∈ files then .systemd name else reference

/-- A provider key and its reference after the provider's variable. -/
def overrideKey (environment : Environment) (variableName key : String)
    (reference : CredentialRef) : String × CredentialRef :=
  match environment variableName with
  | none => (key, reference)
  | some value => if value = "" then (key, reference) else (value, .environment variableName)

/-- The record with each runtime secret and its reference. -/
def Config.withCredentials (config : Config)
    (gemini syspilot bearer fleet : String × CredentialRef) : Config :=
  { config with
    geminiApiKey := gemini.1
    geminiCredential := gemini.2
    syspilotApiKey := syspilot.1
    syspilotCredential := syspilot.2
    distributedTelemetry := { config.distributedTelemetry with
      bearerToken := bearer.1
      bearerCredential := bearer.2 }
    fleet := { config.fleet with credential := fleet.1, credentialRef := fleet.2 } }

/-- `load_checked` from the deserialized record on. -/
def runtimeConfig (parseUrl : UrlParser) (environment : Environment) (files : Files)
    (config : Config) : ConfigResult Config := do
  let gemini := adoptSystemdCredential environment files config.geminiCredential "gemini-api-key"
  let syspilot :=
    adoptSystemdCredential environment files config.syspilotCredential "syspilot-api-key"
  let bearer := adoptSystemdCredential environment files
    config.distributedTelemetry.bearerCredential "telemetry-token"
  let fleet := adoptSystemdCredential environment files config.fleet.credentialRef "fleet-token"
  let geminiKey ← resolve environment files gemini
  let syspilotKey ← resolve environment files syspilot
  let bearerToken ← resolve environment files bearer
  let credential ← resolve environment files fleet
  let geminiPair := overrideKey environment "GEMINI_API_KEY" (geminiKey.getD "") gemini
  let syspilotPair := overrideKey environment "SYSPILOT_API_KEY" (syspilotKey.getD "") syspilot
  let config := config.withCredentials geminiPair syspilotPair (bearerToken.getD "", bearer)
    (credential.getD "", fleet)
  if config.embeddingProvider ∉ ["active", "gemini", "ollama"] then
    .error (.validation ("invalid embedding provider '" ++ config.embeddingProvider ++
      "'; use active, gemini, or ollama"))
  else
    validate parseUrl config
    pure config

def loadChecked {floats : FloatText} (codec : ConfigCodec floats) (parseUrl : UrlParser)
    (directory : String) (environment : Environment) : Program ConfigError Config := do
  let config ← (do
    match ← Program.read (configFile directory) with
    | none => pure {}
    | some _ =>
        let content ← loadAndMigrate floats directory
        match codec.decode content with
        | none => Program.fail (.configParse (configFile directory))
        | some config => pure config)
  let files ← Program.present
  match runtimeConfig parseUrl environment files config with
  | .ok config => pure config
  | .error failure => Program.fail failure

def save {floats : FloatText} (codec : ConfigCodec floats) (parseUrl : UrlParser)
    (directory : String) (config : Config) : Program ConfigError Unit :=
  match validate parseUrl config with
  | .error failure => Program.fail failure
  | .ok () => (atomicWrite directory (bytesOf (codec.encode config))).attempt

def Config.references (config : Config) : List CredentialRef :=
  [config.geminiCredential, config.syspilotCredential,
    config.distributedTelemetry.bearerCredential, config.fleet.credentialRef]

/-! ## One reference -/

/-- The variable is set, and not to the empty text. -/
def Exported (environment : Environment) (variableName : String) : Prop :=
  ∃ value, environment variableName = some value ∧ value ≠ ""

/-- A systemd credential of this name stands in for a missing reference. -/
def Adopts (environment : Environment) (files : Files) (reference : CredentialRef)
    (name : String) : Prop :=
  reference = .none ∧ ∃ directory, environment "CREDENTIALS_DIRECTORY" = some directory ∧
    joinPath directory name ∈ files

section Reference

variable {environment : Environment} {files : Files} {reference : CredentialRef} {name : String}

theorem adopt_eq_iff : adoptSystemdCredential environment files reference name = reference ↔
    ¬ Adopts environment files reference name := by
  unfold adoptSystemdCredential Adopts
  split
  · rename_i given
    simp [given]
  · rename_i missing
    obtain rfl : reference = .none := not_not.mp missing
    split
    · rename_i unset
      simp [unset]
    · rename_i directory set
      split
      · rename_i held
        simp [set, held]
      · rename_i absent
        simp [set, absent]

theorem override_eq_iff {variableName key : String} :
    (overrideKey environment variableName key
      (adoptSystemdCredential environment files reference name)).2 = reference ↔
      (Exported environment variableName → reference = .environment variableName) ∧
        (¬ Exported environment variableName → ¬ Adopts environment files reference name) := by
  unfold overrideKey
  split
  · rename_i unset
    have silent : ¬ Exported environment variableName := by
      rintro ⟨value, set, _⟩
      rw [unset] at set
      cases set
    simpa [silent] using adopt_eq_iff
  · rename_i value set
    split
    · rename_i empty
      have silent : ¬ Exported environment variableName := by
        rintro ⟨other, same, filled⟩
        rw [set] at same
        cases same
        exact filled empty
      simpa [silent] using adopt_eq_iff
    · rename_i filled
      have exported : Exported environment variableName := ⟨value, set, filled⟩
      simp only [exported, true_implies, not_true, false_implies, and_true]
      exact eq_comm

/-- Resolving reads one file, and only for a reference that names one. -/
theorem resolve_congr {others : Files} (systemd : environment "CREDENTIALS_DIRECTORY" = none)
    (same : ∀ path, reference = .file path → files[path]? = others[path]?) :
    resolve environment files reference = resolve environment others reference := by
  have source : credentialSource environment files reference =
      credentialSource environment others reference := by
    cases reference with
    | none => rfl
    | environment variableName => rfl
    | file path => rw [credentialSource, credentialSource, readOwnerFile, readOwnerFile, same path rfl]
    | systemd name => simp only [credentialSource, systemd]
  rw [resolve, resolve, source]

end Reference

/-! ## The record -/

section Record

variable {parseUrl : UrlParser} {environment : Environment} {files : Files}
  {config runtime : Config}

/-- What of a record its environment decides. -/
structure Runtime (environment : Environment) (files : Files) (config runtime : Config) : Prop where
  gemini : ∃ key, runtime.geminiCredential = (overrideKey environment "GEMINI_API_KEY" key
    (adoptSystemdCredential environment files config.geminiCredential "gemini-api-key")).2
  syspilot : ∃ key, runtime.syspilotCredential = (overrideKey environment "SYSPILOT_API_KEY" key
    (adoptSystemdCredential environment files config.syspilotCredential "syspilot-api-key")).2
  bearer : runtime.distributedTelemetry.bearerCredential = adoptSystemdCredential environment files
    config.distributedTelemetry.bearerCredential "telemetry-token"
  fleet : runtime.fleet.credentialRef =
    adoptSystemdCredential environment files config.fleet.credentialRef "fleet-token"
  version : runtime.schemaVersion = config.schemaVersion
  fits : config.Fits → runtime.Fits

theorem runtimeConfig_ok (ok : runtimeConfig parseUrl environment files config = .ok runtime) :
    Runtime environment files config runtime := by
  unfold runtimeConfig at ok
  simp only [bind, Except.bind] at ok
  split at ok
  · cases ok
  · rename_i geminiKey _
    split at ok
    · cases ok
    · rename_i syspilotKey _
      split at ok
      · cases ok
      · split at ok
        · cases ok
        · split at ok
          · cases ok
          · split at ok
            · cases ok
            · cases ok
              exact ⟨⟨geminiKey.getD "", rfl⟩, ⟨syspilotKey.getD "", rfl⟩, rfl, rfl, rfl,
                fun fits => fits⟩

theorem Runtime.references_iff (loaded : Runtime environment files config runtime) :
    runtime.references = config.references ↔
      ((Exported environment "GEMINI_API_KEY" →
          config.geminiCredential = .environment "GEMINI_API_KEY") ∧
        (¬ Exported environment "GEMINI_API_KEY" →
          ¬ Adopts environment files config.geminiCredential "gemini-api-key")) ∧
      ((Exported environment "SYSPILOT_API_KEY" →
          config.syspilotCredential = .environment "SYSPILOT_API_KEY") ∧
        (¬ Exported environment "SYSPILOT_API_KEY" →
          ¬ Adopts environment files config.syspilotCredential "syspilot-api-key")) ∧
      ¬ Adopts environment files config.distributedTelemetry.bearerCredential "telemetry-token" ∧
      ¬ Adopts environment files config.fleet.credentialRef "fleet-token" := by
  obtain ⟨geminiKey, gemini⟩ := loaded.gemini
  obtain ⟨syspilotKey, syspilot⟩ := loaded.syspilot
  rw [Config.references, Config.references, gemini, syspilot, loaded.bearer, loaded.fleet]
  simp only [List.cons.injEq, and_true]
  rw [override_eq_iff, override_eq_iff, adopt_eq_iff, adopt_eq_iff]

end Record

section Saved

variable {floats : FloatText} {codec : ConfigCodec floats} {parseUrl : UrlParser}
  {directory : String} {environment : Environment} {disk after : Disk} {config : Config} {id : Nat}

theorem save_eq (codec : ConfigCodec floats) (parseUrl : UrlParser) (directory : String)
    (config : Config) (id : Nat) (disk : Disk) (valid : validate parseUrl config = .ok ()) :
    save codec parseUrl directory config ⟨id, none⟩ disk =
      (atomicWrite directory (bytesOf (codec.encode config))).attempt ⟨id, none⟩ disk := by
  rw [save, valid]

theorem save_ok (saved : save codec parseUrl directory config ⟨id, none⟩ disk = (after, .ok ())) :
    after.files = disk.files.insert (configFile directory)
      ⟨bytesOf (codec.encode config), ownerOnly⟩ := by
  cases checked : validate parseUrl config with
  | error failure =>
      rw [save, checked] at saved
      cases saved
  | ok _ =>
      rw [save_eq codec parseUrl directory config id disk checked, Write.attempt_run] at saved
      split at saved
      · cases saved
        rfl
      · cases saved

/-- Loading a schema 2 document writes nothing. -/
theorem loadChecked_eq {file : File} {object : Fields} {text : String} {before : Config}
    (stored : disk.files[configFile directory]? = some file)
    (parsed : parseBytes floats file.content = some (.object object))
    (current : schemaVersion object = .ok currentSchemaVersion)
    (decoded : fromUtf8 file.content = some text) (read : codec.decode text = some before) :
    loadChecked codec parseUrl directory environment ⟨id, none⟩ disk =
      (disk, match runtimeConfig parseUrl environment disk.files before with
        | .ok runtime => .ok runtime
        | .error failure => .error failure) := by
  rw [loadChecked, Program.bind_apply, Program.bind_apply, Program.read_apply, stored]
  dsimp only
  rw [Program.bind_apply, loadAndMigrate_current stored parsed current decoded]
  dsimp only
  rw [read]
  dsimp only [Program.pure_apply]
  rw [Program.bind_apply, Program.present]
  dsimp only
  cases runtimeConfig parseUrl environment disk.files before <;> rfl

end Saved

/-- No override of the environment ends up in the saved document. -/
structure NothingCopied (environment : Environment) (files : Files) (before : Config) : Prop where
  geminiVariable : Exported environment "GEMINI_API_KEY" →
    before.geminiCredential = .environment "GEMINI_API_KEY"
  gemini : ¬ Exported environment "GEMINI_API_KEY" →
    ¬ Adopts environment files before.geminiCredential "gemini-api-key"
  syspilotVariable : Exported environment "SYSPILOT_API_KEY" →
    before.syspilotCredential = .environment "SYSPILOT_API_KEY"
  syspilot : ¬ Exported environment "SYSPILOT_API_KEY" →
    ¬ Adopts environment files before.syspilotCredential "syspilot-api-key"
  bearer : ¬ Adopts environment files before.distributedTelemetry.bearerCredential
    "telemetry-token"
  fleet : ¬ Adopts environment files before.fleet.credentialRef "fleet-token"

/-- Saving what was loaded keeps the stored references exactly when the environment
overrides none of them; then they resolve as before. -/
theorem references_persist_iff {floats : FloatText} (codec : ConfigCodec floats)
    (parseUrl : UrlParser) (directory : String) (environment : Environment) (id : Nat)
    (files : Files) (file : File) (object : Fields) (text : String) (before runtime : Config)
    (loadedDisk savedDisk : Disk)
    (stored : files[configFile directory]? = some file)
    (parsed : parseBytes floats file.content = some (.object object))
    (current : schemaVersion object = .ok currentSchemaVersion)
    (decoded : fromUtf8 file.content = some text) (read : codec.decode text = some before)
    (loaded : loadChecked codec parseUrl directory environment ⟨id, none⟩ ⟨files, 0⟩ =
      (loadedDisk, .ok runtime))
    (saved : save codec parseUrl directory runtime ⟨id, none⟩ loadedDisk = (savedDisk, .ok ())) :
    ∃ content persisted, savedDisk.files[configFile directory]? = some ⟨bytesOf content, ownerOnly⟩ ∧
      codec.decode content = some persisted ∧
      (persisted.references = before.references ↔ NothingCopied environment files before) ∧
      (persisted.references = before.references →
        ∀ later : Environment, later "CREDENTIALS_DIRECTORY" = none →
          ∀ reference ∈ persisted.references, reference ≠ .file (configFile directory) →
            resolve later savedDisk.files reference = resolve later files reference) := by
  rw [loadChecked_eq stored parsed current decoded read] at loaded
  obtain ⟨rfl, decided⟩ : loadedDisk = ⟨files, 0⟩ ∧ Runtime environment files before runtime := by
    cases ran : runtimeConfig parseUrl environment files before with
    | error failure =>
        rw [ran] at loaded
        cases loaded
    | ok config =>
        rw [ran] at loaded
        cases loaded
        exact ⟨rfl, runtimeConfig_ok ran⟩
  have written := save_ok saved
  have fits := decided.fits (codec.decode_fits text before read)
  refine ⟨codec.encode runtime, runtime.stored, ?_, codec.decode_encode runtime fits, ?_, ?_⟩
  · rw [written]
    exact Std.ExtTreeMap.getElem?_insert_self
  · have same : runtime.stored.references = runtime.references := rfl
    rw [same, decided.references_iff]
    constructor
    · rintro ⟨⟨geminiVariable, gemini⟩, ⟨syspilotVariable, syspilot⟩, bearer, fleet⟩
      exact ⟨geminiVariable, gemini, syspilotVariable, syspilot, bearer, fleet⟩
    · intro kept
      exact ⟨⟨kept.geminiVariable, kept.gemini⟩, ⟨kept.syspilotVariable, kept.syspilot⟩,
        kept.bearer, kept.fleet⟩
  · intro _ later unset reference _ elsewhere
    apply resolve_congr unset
    intro path named
    rw [written]
    apply Library.SortedMap.getElem?_insert_of_ne
    rintro rfl
    exact elsewhere named

/-! ## A stored default configuration -/

def defaultFile : File := ⟨bytesOf (recordText {}), ownerOnly⟩

def defaultFiles : Files := (∅ : Files).insert (configFile "/home") defaultFile

/-- A parser that takes every text for an HTTPS URL. -/
def anyUrl : UrlParser := fun _ => .ok "https"

/-- An environment of one variable. -/
def onlyVariable (name value : String) : Environment := fun other =>
  if other = name then some value else none

theorem default_document : ∃ object,
    parseBytes bitFloats defaultFile.content = some (.object object) ∧
      schemaVersion object = .ok currentSchemaVersion := by
  obtain ⟨object, parsed, version⟩ := recordCodec.object_encode {} (by decide)
  refine ⟨object, ?_, ?_⟩
  · rw [defaultFile, parseBytes_bytesOf]
    exact parsed
  · rw [schemaVersion, version]
    rfl

theorem defaultFiles_config : defaultFiles[configFile "/home"]? = some defaultFile :=
  Std.ExtTreeMap.getElem?_insert_self

theorem default_decoded : fromUtf8 defaultFile.content = some (recordText {}) := by
  rw [defaultFile, fromUtf8_bytesOf]

theorem default_read : recordCodec.decode (recordText {}) = some {} := by
  have fits : ({} : Config).Fits := by decide
  exact recordCodec.decode_encode {} fits

/-- A load and a save of the stored default under an environment. -/
theorem default_runs {environment : Environment} {runtime : Config}
    (ran : runtimeConfig anyUrl environment defaultFiles {} = .ok runtime)
    (valid : validate anyUrl runtime = .ok ()) :
    loadChecked recordCodec anyUrl "/home" environment ⟨7, none⟩ ⟨defaultFiles, 0⟩ =
        (⟨defaultFiles, 0⟩, .ok runtime) ∧
      ∃ after, save recordCodec anyUrl "/home" runtime ⟨7, none⟩ ⟨defaultFiles, 0⟩ =
        (after, .ok ()) := by
  obtain ⟨object, parsed, version⟩ := default_document
  constructor
  · have held : (⟨defaultFiles, 0⟩ : Disk).files[configFile "/home"]? = some defaultFile :=
      defaultFiles_config
    rw [loadChecked_eq held parsed version default_decoded default_read]
    dsimp only
    rw [ran]
  · have ready : (atomicWrite "/home" (bytesOf (recordText runtime))).Ready 7 defaultFiles := by
      show ((∅ : Files).insert (configFile "/home") defaultFile)[_]? = none
      rw [Library.SortedMap.getElem?_insert_of_ne _ _ (by decide)]
      rfl
    rw [save_eq recordCodec anyUrl "/home" runtime 7 _ valid, Write.attempt_run]
    exact ⟨_, if_pos ready⟩

theorem silent_runs :
    loadChecked recordCodec anyUrl "/home" (fun _ => none) ⟨7, none⟩ ⟨defaultFiles, 0⟩ =
        (⟨defaultFiles, 0⟩, .ok {}) ∧
      ∃ after, save recordCodec anyUrl "/home" {} ⟨7, none⟩ ⟨defaultFiles, 0⟩ =
        (after, .ok ()) :=
  default_runs rfl (by decide +kernel)

theorem references_persist_default : ∃ (savedDisk : Disk) (content : String) (persisted : Config),
    savedDisk.files[configFile "/home"]? = some ⟨bytesOf content, ownerOnly⟩ ∧
      recordCodec.decode content = some persisted ∧
      persisted.references = ({} : Config).references := by
  obtain ⟨object, parsed, version⟩ := default_document
  obtain ⟨loaded, savedDisk, saved⟩ := silent_runs
  obtain ⟨content, persisted, held, read, kept, _⟩ := references_persist_iff recordCodec anyUrl
    "/home" (fun _ => none) 7 defaultFiles defaultFile object _ {} _ _ savedDisk
    defaultFiles_config parsed version default_decoded default_read loaded saved
  refine ⟨savedDisk, content, persisted, held, read, kept.mpr ?_⟩
  exact ⟨by simp [Exported], by simp [Adopts], by simp [Exported], by simp [Adopts],
    by simp [Adopts], by simp [Adopts]⟩

/-- With `GEMINI_API_KEY` set, the missing reference of a document is saved as one
to the variable, and without the variable the next load fails. -/
theorem exported_key_is_saved : ∃ (runtime : Config) (savedDisk : Disk) (persisted : Config),
    loadChecked recordCodec anyUrl "/home" (onlyVariable "GEMINI_API_KEY" "key") ⟨7, none⟩
      ⟨defaultFiles, 0⟩ = (⟨defaultFiles, 0⟩, .ok runtime) ∧
    save recordCodec anyUrl "/home" runtime ⟨7, none⟩ ⟨defaultFiles, 0⟩ = (savedDisk, .ok ()) ∧
    savedDisk.files[configFile "/home"]? = some ⟨bytesOf (recordText runtime), ownerOnly⟩ ∧
    recordCodec.decode (recordText runtime) = some persisted ∧
    persisted.references ≠ ({} : Config).references ∧
    resolve (fun _ => none) defaultFiles ({} : Config).geminiCredential = .ok none ∧
    resolve (fun _ => none) savedDisk.files persisted.geminiCredential = .error
      (.validation "credential environment variable GEMINI_API_KEY is unavailable") := by
  have ran : runtimeConfig anyUrl (onlyVariable "GEMINI_API_KEY" "key") defaultFiles {} =
      .ok (({} : Config).withCredentials ("key", .environment "GEMINI_API_KEY") ("", .none)
        ("", .none) ("", .none)) := rfl
  obtain ⟨loaded, savedDisk, saved⟩ := default_runs ran (by decide +kernel)
  refine ⟨_, savedDisk, _, loaded, saved, ?_, recordCodec.decode_encode _ (by decide), by decide, rfl,
    rfl⟩
  rw [save_ok saved]
  exact Std.ExtTreeMap.getElem?_insert_self

end SystemPilot.Configuration
