import SystemPilot.Configuration.Loading

/-!
# The configuration that stands on the disk

What the files must hold for a load to give a configuration, in an environment that
overrides nothing, and what a saved document, a stored secret and a torn temporary
file make of it.
-/

set_option autoImplicit false

namespace SystemPilot.Configuration

open SystemPilot.Text
open SystemPilot.Json
open SystemPilot.Telemetry
open SystemPilot.Library
open SystemPilot.Library.CrashFiles

/-! ## Keys -/

/-- The references of a record, each with the key that was resolved from it. -/
def Config.credentials (config : Config) : List (CredentialRef × String) :=
  [(config.geminiCredential, config.geminiApiKey),
    (config.syspilotCredential, config.syspilotApiKey),
    (config.distributedTelemetry.bearerCredential, config.distributedTelemetry.bearerToken),
    (config.fleet.credentialRef, config.fleet.credential)]

/-- The record when the file at `path` holds `value`. -/
def Config.swapped (path value : String) (config : Config) : Config :=
  let keyed := fun (reference : CredentialRef) (key : String) =>
    (if reference = .file path then trimLineEnds value else key, reference)
  config.withCredentials (keyed config.geminiCredential config.geminiApiKey)
    (keyed config.syspilotCredential config.syspilotApiKey)
    (keyed config.distributedTelemetry.bearerCredential config.distributedTelemetry.bearerToken)
    (keyed config.fleet.credentialRef config.fleet.credential)

theorem credentials_swapped (path value : String) (config : Config) :
    (config.swapped path value).credentials = config.credentials.map fun pair =>
      (pair.1, if pair.1 = .file path then trimLineEnds value else pair.2) := rfl

/-- A record is its stored form with its keys. -/
theorem withCredentials_of_stored {before config : Config} (same : before.stored = config.stored) :
    before.withCredentials (config.geminiApiKey, before.geminiCredential)
      (config.syspilotApiKey, before.syspilotCredential)
      (config.distributedTelemetry.bearerToken, before.distributedTelemetry.bearerCredential)
      (config.fleet.credential, before.fleet.credentialRef) = config := by
  have restored : ∀ record : Config, record = record.stored.withCredentials
      (record.geminiApiKey, record.geminiCredential)
      (record.syspilotApiKey, record.syspilotCredential)
      (record.distributedTelemetry.bearerToken, record.distributedTelemetry.bearerCredential)
      (record.fleet.credential, record.fleet.credentialRef) := fun _ => rfl
  have references : before.stored.references = config.stored.references := by rw [same]
  have listed : before.references = config.references := references
  simp only [Config.references, List.cons.injEq, and_true] at listed
  obtain ⟨gemini, syspilot, bearer, fleet⟩ := listed
  conv_rhs => rw [restored config, ← same, ← gemini, ← syspilot, ← bearer, ← fleet]
  rfl

/-! ## A plain environment -/

/-- The environment overrides no reference. -/
structure Plain (environment : Environment) : Prop where
  directory : environment "CREDENTIALS_DIRECTORY" = none
  gemini : ¬ Exported environment "GEMINI_API_KEY"
  syspilot : ¬ Exported environment "SYSPILOT_API_KEY"

section Load

variable {environment : Environment} {files : Files} {parseUrl : UrlParser} {before config : Config}

theorem Plain.adopt (plain : Plain environment) (reference : CredentialRef) (name : String) :
    adoptSystemdCredential environment files reference name = reference := by
  rw [adoptSystemdCredential, plain.directory]
  dsimp only
  split <;> rfl

theorem override_silent {variableName : String} (silent : ¬ Exported environment variableName)
    (key : String) (reference : CredentialRef) :
    overrideKey environment variableName key reference = (key, reference) := by
  unfold overrideKey
  cases found : environment variableName with
  | none => rfl
  | some value =>
      by_cases empty : value = ""
      · simp only [if_pos empty]
      · exact absurd ⟨value, found, empty⟩ silent

/-- The key of a reference is what it resolves to. -/
def Resolves (environment : Environment) (files : Files) (pair : CredentialRef × String) : Prop :=
  ∃ value, resolve environment files pair.1 = .ok value ∧ value.getD "" = pair.2

def embeddingProviders : List String := ["active", "gemini", "ollama"]

theorem runtimeConfig_plain_iff (plain : Plain environment) :
    runtimeConfig parseUrl environment files before = .ok config ↔
      before.stored = config.stored ∧
        (∀ pair ∈ config.credentials, Resolves environment files pair) ∧
        config.embeddingProvider ∈ embeddingProviders ∧ validate parseUrl config = .ok () := by
  unfold runtimeConfig
  simp only [plain.adopt, override_silent plain.gemini, override_silent plain.syspilot]
  constructor
  · intro loaded
    simp only [bind, Except.bind] at loaded
    split at loaded
    · cases loaded
    · rename_i gemini geminiRead
      split at loaded
      · cases loaded
      · rename_i syspilot syspilotRead
        split at loaded
        · cases loaded
        · rename_i bearer bearerRead
          split at loaded
          · cases loaded
          · rename_i fleet fleetRead
            split at loaded
            · cases loaded
            · rename_i provider
              split at loaded
              · cases loaded
              · rename_i done valid
                cases loaded
                refine ⟨rfl, ?_, not_not.mp provider, valid⟩
                simp only [Config.credentials, List.forall_mem_cons, List.not_mem_nil,
                  false_imp_iff, implies_true, and_true]
                exact ⟨⟨gemini, geminiRead, rfl⟩, ⟨syspilot, syspilotRead, rfl⟩,
                  ⟨bearer, bearerRead, rfl⟩, fleet, fleetRead, rfl⟩
  · intro ⟨same, resolved, provider, valid⟩
    simp only [Config.credentials, List.forall_mem_cons, List.not_mem_nil, false_imp_iff,
      implies_true, and_true] at resolved
    obtain ⟨⟨gemini, geminiRead, geminiKey⟩, ⟨syspilot, syspilotRead, syspilotKey⟩,
      ⟨bearer, bearerRead, bearerKey⟩, fleet, fleetRead, fleetKey⟩ := resolved
    have references : before.stored.references = config.stored.references := by rw [same]
    have listed : before.references = config.references := references
    simp only [Config.references, List.cons.injEq, and_true] at listed
    obtain ⟨geminiSame, syspilotSame, bearerSame, fleetSame⟩ := listed
    have whole := withCredentials_of_stored same
    rw [geminiSame, syspilotSame, bearerSame, fleetSame, geminiRead, syspilotRead, bearerRead,
      fleetRead]
    rw [geminiSame, syspilotSame, bearerSame, fleetSame] at whole
    simp only [bind, Except.bind, geminiKey, syspilotKey, bearerKey, fleetKey, whole]
    have known : config.embeddingProvider ∈ ["active", "gemini", "ollama"] := provider
    rw [if_neg (not_not.mpr known), valid]
    rfl

end Load

/-! ## Standing configurations -/

/-- Every load gives this configuration. -/
structure Stands {floats : FloatText} (codec : ConfigCodec floats) (parseUrl : UrlParser)
    (directory : String) (environment : Environment) (files : Files) (config : Config) :
    Prop where
  document : ∃ before, Holds codec directory files before ∧ before.stored = config.stored
  resolved : ∀ pair ∈ config.credentials, Resolves environment files pair
  valid : validate parseUrl config = .ok ()
  embedding : config.embeddingProvider ∈ embeddingProviders
  apart : ∀ pair ∈ config.credentials, pair.1 ≠ .file (configFile directory)

section Standing

variable {floats : FloatText} {codec : ConfigCodec floats} {parseUrl : UrlParser}
  {directory : String} {environment : Environment} {files : Files} {config : Config}

theorem Stands.load (stands : Stands codec parseUrl directory environment files config)
    (plain : Plain environment) (process : Process) (calls : Nat) :
    loadChecked codec parseUrl directory environment process ⟨files, calls⟩ =
      (⟨files, calls⟩, .ok config) := by
  obtain ⟨before, holds, same⟩ := stands.document
  have read := (@runtimeConfig_plain_iff environment files parseUrl before config plain).mpr
    ⟨same, stands.resolved, stands.embedding, stands.valid⟩
  rw [holds.load, read]

theorem Stands.fits (stands : Stands codec parseUrl directory environment files config) :
    config.Fits := by
  obtain ⟨before, holds, same⟩ := stands.document
  have fits : before.stored.Fits := holds.fits
  rw [same] at fits
  exact fits

theorem stands_of_loaded (plain : Plain environment) {id : Nat} {after : CrashFiles.Disk}
    (loaded : loadChecked codec parseUrl directory environment ⟨id, none⟩ ⟨files, 0⟩ =
      (after, .ok config))
    (apart : ∀ reference ∈ config.references, reference ≠ .file (configFile directory)) :
    Stands codec parseUrl directory environment after.files config := by
  obtain ⟨before, holds, read⟩ := loadChecked_ok loaded
  obtain ⟨same, resolved, embedding, valid⟩ := (runtimeConfig_plain_iff plain).mp read
  refine ⟨⟨before, holds, same⟩, resolved, valid, embedding, ?_⟩
  intro pair member
  apply apart
  simp only [Config.credentials, List.mem_cons, List.not_mem_nil, or_false] at member
  rcases member with rfl | rfl | rfl | rfl <;> simp [Config.references]

/-! ## Writes -/

/-- A reference resolves to the same key where its file is the same. -/
theorem Resolves.congr (plain : Plain environment) {others : Files} {pair : CredentialRef × String}
    (resolves : Resolves environment files pair)
    (same : ∀ path, pair.1 = .file path → files[path]? = others[path]?) :
    Resolves environment others pair := by
  obtain ⟨value, read, key⟩ := resolves
  exact ⟨value, (resolve_congr plain.directory same).symm.trans read, key⟩

/-- A reference that resolves names a file that is there. -/
theorem Resolves.present {path key : String} (resolves : Resolves environment files (.file path, key)) :
    files[path]? ≠ none := by
  intro absent
  obtain ⟨value, read, -⟩ := resolves
  rw [resolve, credentialSource, readOwnerFile, absent] at read
  cases read

theorem Holds.congr {others : Files} {before : Config} (holds : Holds codec directory files before)
    (same : files[configFile directory]? = others[configFile directory]?) :
    Holds codec directory others before := by
  rcases holds with ⟨absent, fresh⟩ | ⟨file, object, text, document⟩
  · exact .inl ⟨same ▸ absent, fresh⟩
  · exact .inr ⟨file, object, text, { document with stored := same ▸ document.stored }⟩

/-- A file that was not there before changes nothing. -/
theorem Stands.torn (stands : Stands codec parseUrl directory environment files config)
    (plain : Plain environment) {path : String} (file : File) (absent : files[path]? = none)
    (elsewhere : path ≠ configFile directory) :
    Stands codec parseUrl directory environment (files.insert path file) config := by
  obtain ⟨before, holds, same⟩ := stands.document
  refine { stands with document := ⟨before, holds.congr ?_, same⟩, resolved := ?_ }
  · exact (SortedMap.getElem?_insert_of_ne _ _ elsewhere).symm
  · intro pair member
    have resolves := stands.resolved pair member
    refine resolves.congr plain ?_
    intro named reference
    refine (SortedMap.getElem?_insert_of_ne _ _ ?_).symm
    rintro rfl
    obtain ⟨other, key⟩ := pair
    obtain rfl : other = .file path := reference
    exact resolves.present absent

/-- A pair of a configuration that stands, or no reference and no key. -/
def Known (config : Config) (pair : CredentialRef × String) : Prop :=
  pair ∈ config.credentials ∨ pair = (.none, "")

theorem Stands.known (stands : Stands codec parseUrl directory environment files config)
    {pair : CredentialRef × String} (known : Known config pair) :
    Resolves environment files pair ∧ pair.1 ≠ .file (configFile directory) := by
  rcases known with member | rfl
  · exact ⟨stands.resolved pair member, stands.apart pair member⟩
  · exact ⟨⟨none, rfl, rfl⟩, by simp⟩

/-- A configuration whose keys resolve is the one that stands once it is written. -/
theorem stands_saved (plain : Plain environment) {written next : Config}
    (same : written.stored = next.stored) (fits : written.Fits)
    (valid : validate parseUrl next = .ok ()) (embedding : next.embeddingProvider ∈ embeddingProviders)
    (keys : ∀ pair ∈ next.credentials,
      Resolves environment files pair ∧ pair.1 ≠ .file (configFile directory)) (mode : Nat) :
    Stands codec parseUrl directory environment
      (files.insert (configFile directory) ⟨bytesOf (codec.encode written), mode⟩) next := by
  refine ⟨⟨written.stored, .inr ?_, same⟩, ?_, valid, embedding, fun pair member => (keys pair member).2⟩
  · obtain ⟨object, parsed, version⟩ := codec.object_encode written fits
    refine ⟨_, object, codec.encode written, Std.ExtTreeMap.getElem?_insert_self, ?_, ?_,
      fromUtf8_bytesOf _, codec.decode_encode written fits⟩
    · rw [parseBytes_bytesOf, parsed]
    · have stored : written.stored.schemaVersion = next.stored.schemaVersion := by rw [same]
      have current : written.schemaVersion = currentSchemaVersion :=
        stored.trans (validate_ok_iff.mp valid).schema
      rw [schemaVersion, version, current]
      rfl
  · intro pair member
    obtain ⟨resolves, apart⟩ := keys pair member
    refine resolves.congr plain ?_
    intro path named
    refine (SortedMap.getElem?_insert_of_ne _ _ ?_).symm
    rintro rfl
    exact apart named

theorem isBlank_trimLineEnds {value : String} (filled : isBlank value = false) :
    isBlank (trimLineEnds value) = false := by
  rw [Bool.eq_false_iff, ne_eq, isBlank_iff] at filled ⊢
  intro blank
  apply filled
  intro character member
  rw [trimLineEnds, String.toList_ofList] at blank
  by_cases ended : character = '\r' ∨ character = '\n'
  · rcases ended with rfl | rfl <;> decide
  · apply blank
    rw [List.mem_reverse]
    have listed : character ∈ value.toList.reverse := List.mem_reverse.mpr member
    rw [← @List.takeWhile_append_dropWhile _
      (fun letter => letter = '\r' || letter = '\n') value.toList.reverse] at listed
    rcases List.mem_append.mp listed with early | late
    · have lineEnd := List.mem_takeWhile_imp early
      exact absurd (by simpa using lineEnd) ended
    · exact late

/-- A key that is not blank takes no configuration its validity. -/
theorem swapped_valid {path value : String} (filled : isBlank value = false)
    (valid : validate parseUrl config = .ok ()) :
    validate parseUrl (config.swapped path value) = .ok () := by
  rw [validate_ok_iff] at valid ⊢
  have keyed : ∀ (reference : CredentialRef) (key : String), key = "" ∨ reference ≠ .none →
      (if reference = .file path then trimLineEnds value else key) = "" ∨ reference ≠ .none := by
    intro reference key held
    by_cases named : reference = .file path
    · exact .inr (by simp [named])
    · rwa [if_neg named]
  refine { valid with
    telemetry := valid.telemetry
    fleet := ?_
    gemini := keyed _ _ valid.gemini
    syspilot := keyed _ _ valid.syspilot
    bearer := keyed _ _ valid.bearer
    credential := keyed _ _ valid.credential }
  have fleet := fleet_validate_ok_iff.mp valid.fleet
  rw [fleet_validate_ok_iff]
  intro enabled
  obtain ⟨node, credential, endpoint⟩ := fleet enabled
  refine ⟨node, ?_, endpoint⟩
  show isBlank (if config.fleet.credentialRef = .file path then trimLineEnds value
    else config.fleet.credential) = false
  by_cases named : config.fleet.credentialRef = .file path
  · rw [if_pos named]
    exact isBlank_trimLineEnds filled
  · rwa [if_neg named]

/-- A secret stored in its file is the key of every reference to that file. -/
theorem Stands.stored (stands : Stands codec parseUrl directory environment files config)
    (plain : Plain environment) {path value : String} (filled : isBlank value = false)
    (elsewhere : path ≠ configFile directory) :
    Stands codec parseUrl directory environment (files.insert path ⟨bytesOf value, ownerOnly⟩)
      (config.swapped path value) := by
  obtain ⟨before, holds, same⟩ := stands.document
  refine ⟨⟨before, holds.congr ?_, same⟩, ?_, ?_, stands.embedding, ?_⟩
  · exact (SortedMap.getElem?_insert_of_ne _ _ elsewhere).symm
  · intro pair member
    rw [credentials_swapped] at member
    obtain ⟨⟨reference, key⟩, known, rfl⟩ := List.mem_map.mp member
    dsimp only
    by_cases named : reference = .file path
    · rw [if_pos named, named]
      exact ⟨_, resolve_stored environment Std.ExtTreeMap.getElem?_insert_self filled, rfl⟩
    · rw [if_neg named]
      refine (stands.resolved _ known).congr plain ?_
      intro other reference
      refine (SortedMap.getElem?_insert_of_ne _ _ ?_).symm
      rintro rfl
      exact named reference
  · exact swapped_valid filled stands.valid
  · intro pair member
    rw [credentials_swapped] at member
    obtain ⟨⟨reference, key⟩, known, rfl⟩ := List.mem_map.mp member
    exact stands.apart (reference, key) known

end Standing

end SystemPilot.Configuration
