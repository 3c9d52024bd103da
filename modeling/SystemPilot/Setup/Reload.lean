import SystemPilot.Setup.Wizard

/-!
# What a setup leaves to the next process

The configuration a setup has confirmed and applied is the one that every later load
gives, with the keys its references resolve to.
-/

set_option autoImplicit false

namespace SystemPilot.Setup

open SystemPilot.Library
open SystemPilot.Library.CrashFiles (File Files)
open SystemPilot.Text
open SystemPilot.Json (FloatText)
open SystemPilot.Configuration
open SystemPilot.Commands (CommandFailure)

/-! ## Keys -/

section Keys

variable {environment : Environment} {files : Files} {parseUrl : UrlParser} {loaded config : Config}
  {lines rest : List Line}

/-- A token of the environment is resolved without its line ends. -/
theorem Given.resolves {reference : CredentialRef} {key : String}
    (given : Given environment reference key) :
    Resolves environment files (reference, trimLineEnds key) ∧
      isBlank (trimLineEnds key) = false := by
  obtain ⟨variableName, rfl, found, filled⟩ := given
  refine ⟨⟨some (trimLineEnds key), ?_, rfl⟩, isBlank_trimLineEnds filled⟩
  rw [resolve, credentialSource, found]
  dsimp only
  rw [if_neg (trimLineEnds_ne_empty filled)]

theorem resolves_none : Resolves environment files (.none, "") := ⟨none, rfl, rfl⟩

theorem key_filled {reference : CredentialRef} {key : String}
    (resolves : Resolves environment files (reference, key)) : key = "" ∨ reference ≠ .none := by
  by_cases absent : reference = .none
  · subst absent
    obtain ⟨value, read, same⟩ := resolves
    cases read
    exact .inl same.symm
  · exact .inr absent

/-- A valid configuration stays valid with the keys its references resolve to. -/
theorem validate_resolved {gemini syspilot token credential : String}
    (valid : validate parseUrl config = .ok ())
    (first : Resolves environment files (config.geminiCredential, gemini))
    (second : Resolves environment files (config.syspilotCredential, syspilot))
    (third : Resolves environment files (config.distributedTelemetry.bearerCredential, token))
    (fourth : Resolves environment files (config.fleet.credentialRef, credential))
    (filled : config.fleet.enabled = true → isBlank credential = false) :
    validate parseUrl (config.withCredentials (gemini, config.geminiCredential)
      (syspilot, config.syspilotCredential)
      (token, config.distributedTelemetry.bearerCredential)
      (credential, config.fleet.credentialRef)) = .ok () := by
  rw [validate_ok_iff] at valid ⊢
  refine { valid with
    telemetry := valid.telemetry
    fleet := ?_
    gemini := key_filled first
    syspilot := key_filled second
    bearer := key_filled third
    credential := key_filled fourth }
  have fleet := fleet_validate_ok_iff.mp valid.fleet
  rw [fleet_validate_ok_iff]
  intro enabled
  obtain ⟨node, -, endpoint⟩ := fleet enabled
  exact ⟨node, filled enabled, endpoint⟩

/-- Where a reference of a reviewed configuration comes from. -/
def Sourced (loaded : Config) (reference : CredentialRef) : Prop :=
  reference ∈ loaded.references ∨ reference = .none ∨ ∃ variableName, reference = .environment variableName

/-- The token of a reviewed configuration resolves. -/
theorem Reviewed.bearerKey (reviewed : Reviewed parseUrl environment loaded config lines rest)
    (keys : ∀ pair ∈ loaded.credentials, Resolves environment files pair) :
    ∃ token, Resolves environment files (config.distributedTelemetry.bearerCredential, token) ∧
      Sourced loaded config.distributedTelemetry.bearerCredential ∧
      (config.distributedTelemetry.enabled = true → isBlank token = false) := by
  have given := reviewed.given
  by_cases exports : config.distributedTelemetry.enabled = true
  · rw [if_pos exports] at given
    obtain ⟨variableName, reference, -⟩ := id given
    obtain ⟨resolves, filled⟩ := @Given.resolves environment files _ _ given
    exact ⟨_, resolves, .inr (.inr ⟨variableName, reference⟩), fun _ => filled⟩
  · rw [if_neg exports] at given
    rcases given with same | cleared
    · have reference : config.distributedTelemetry.bearerCredential =
          loaded.distributedTelemetry.bearerCredential := congrArg Prod.fst same
      rw [reference]
      refine ⟨_, keys (bearer loaded) (by simp [Config.credentials, bearer]), .inl ?_,
        fun enabled => absurd enabled exports⟩
      simp [Config.references]
    · rw [show config.distributedTelemetry.bearerCredential = .none from congrArg Prod.fst cleared]
      exact ⟨"", resolves_none, .inr (.inl rfl), fun enabled => absurd enabled exports⟩

/-- The keys of a reviewed configuration resolve where those of the loaded one do. -/
theorem Reviewed.resolved (reviewed : Reviewed parseUrl environment loaded config lines rest)
    (gemini : config.geminiCredential = loaded.geminiCredential)
    (keys : ∀ pair ∈ loaded.credentials, Resolves environment files pair) :
    ∃ next, next.stored = config.stored ∧ validate parseUrl next = .ok () ∧
      next.embeddingProvider = loaded.embeddingProvider ∧
      ∀ pair ∈ next.credentials, Resolves environment files pair ∧ Sourced loaded pair.1 := by
  have gemini' : Resolves environment files (config.geminiCredential, loaded.geminiApiKey) := by
    rw [gemini]
    exact keys (loaded.geminiCredential, loaded.geminiApiKey) (by simp [Config.credentials])
  have syspilotSame : config.syspilotCredential = loaded.syspilotCredential := by
    rw [reviewed.same]
  have syspilot : Resolves environment files
      (config.syspilotCredential, loaded.syspilotApiKey) := by
    rw [syspilotSame]
    exact keys (loaded.syspilotCredential, loaded.syspilotApiKey) (by simp [Config.credentials])
  obtain ⟨token, bearerKey, bearerSource, tokenFilled⟩ := reviewed.bearerKey keys
  obtain ⟨credential, fleetKey, fleetSource, credentialFilled⟩ :
      ∃ credential, Resolves environment files (config.fleet.credentialRef, credential) ∧
        Sourced loaded config.fleet.credentialRef ∧
        (config.fleet.enabled = true → isBlank credential = false) := by
    have enrolled := reviewed.enrolled
    by_cases fleet : config.fleet.enabled = true
    · rw [if_pos fleet] at enrolled
      obtain ⟨exports, -, same, -⟩ := enrolled
      have reference : config.fleet.credentialRef = config.distributedTelemetry.bearerCredential :=
        congrArg Prod.fst same
      rw [reference]
      exact ⟨token, bearerKey, bearerSource, fun _ => tokenFilled exports⟩
    · rw [if_neg fleet] at enrolled
      rw [show config.fleet.credentialRef = .none from congrArg Prod.fst enrolled]
      exact ⟨"", resolves_none, .inr (.inl rfl), fun enabled => absurd enabled fleet⟩
  refine ⟨config.withCredentials (loaded.geminiApiKey, config.geminiCredential)
    (loaded.syspilotApiKey, config.syspilotCredential)
    (token, config.distributedTelemetry.bearerCredential)
    (credential, config.fleet.credentialRef), rfl,
    validate_resolved reviewed.valid gemini' syspilot bearerKey fleetKey credentialFilled, ?_, ?_⟩
  · show config.embeddingProvider = _
    rw [reviewed.same]
  · have sources : ∀ reference ∈ loaded.references, Sourced loaded reference :=
      fun _ member => .inl member
    have geminiSource : Sourced loaded config.geminiCredential := by
      rw [gemini]
      exact sources _ (by simp [Config.references])
    have syspilotSource : Sourced loaded config.syspilotCredential := by
      rw [syspilotSame]
      exact sources _ (by simp [Config.references])
    simp only [Config.credentials, List.forall_mem_cons, List.not_mem_nil, false_imp_iff,
      implies_true, and_true]
    exact ⟨⟨gemini', geminiSource⟩, ⟨syspilot, syspilotSource⟩, ⟨bearerKey, bearerSource⟩,
      fleetKey, fleetSource⟩

end Keys

/-! ## The next load -/

section Load

variable {floats : FloatText} {codec : ConfigCodec floats} {parseUrl : UrlParser} {host : Host}
  {files after : Files} {loaded config : Config} {lines rest : List Line}

/-- A file that holds the document already. -/
theorem insert_same {path : String} {file : File} (there : after[path]? = some file) :
    after.insert path file = after := by
  refine Std.ExtTreeMap.ext_getElem? fun other => ?_
  by_cases own : path = other
  · subst own
    rw [there]
    exact Std.ExtTreeMap.getElem?_insert_self
  · exact SortedMap.getElem?_insert_of_ne _ _ own

/-- Calls none of which fails. -/
def cleanCalls : List Fault := List.replicate 40 ⟨false, none⟩

end Load

end SystemPilot.Setup
