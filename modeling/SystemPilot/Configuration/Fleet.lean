import SystemPilot.Configuration.Settings

/-!
# Fleet enrolment

`enroll_with_reference` and `disable` on the configuration record.  Enrolment checks
the new section, puts it and the export destination into the configuration and then
checks the whole; `disable` takes both out again.
-/

set_option autoImplicit false

namespace SystemPilot.Configuration

open SystemPilot.Text
open SystemPilot.Telemetry

/-! ## The operations -/

/-- The section of an enrolment at a time. -/
def enrollment (now : Nat) (endpoint nodeId credential : String) (credentialRef : CredentialRef) :
    FleetEnrollment where
  enabled := true
  endpoint := endpoint
  nodeId := nodeId
  credential := credential
  credentialRef := credentialRef
  enrolledAtUnixNanos := now
  policySource := "local_enrollment"
  uploadScope := ["process_lifecycle", "process_alert", "health"]
  lastAcknowledgementUnixNanos := none

/-- The assignments of an enrolment. -/
def Config.enrolled (config : Config) (fleet : FleetEnrollment) : Config :=
  { config with
    fleet := fleet
    distributedTelemetry := { config.distributedTelemetry with
      enabled := true
      endpoint := fleet.endpoint
      nodeId := fleet.nodeId
      bearerToken := fleet.credential
      bearerCredential := fleet.credentialRef } }

/-- What is returned, and the configuration as it is left. -/
def enrollWithReference (parseUrl : UrlParser) (now : Nat) (config : Config)
    (endpoint nodeId credential : String) (credentialRef : CredentialRef) :
    ConfigResult Unit × Config :=
  let fleet := enrollment now endpoint nodeId credential credentialRef
  match fleet.validate parseUrl with
  | .error failure => (.error failure, config)
  | .ok () =>
      let config := config.enrolled fleet
      (validate parseUrl config, config)

/-- The fleet owns the export destination. -/
def Config.ownsDestination (config : Config) : Bool :=
  config.fleet.enabled && config.distributedTelemetry.endpoint == config.fleet.endpoint &&
    config.distributedTelemetry.nodeId == config.fleet.nodeId

/-- `enroll`: the secret is stored first; `stored` is how that ends. -/
def enroll (parseUrl : UrlParser) (now : Nat) (stored : ConfigResult CredentialRef)
    (config : Config) (endpoint nodeId credential : String) : ConfigResult Unit × Config :=
  match (enrollment now endpoint nodeId credential .none).validate parseUrl with
  | .error failure => (.error failure, config)
  | .ok () =>
      match stored with
      | .error failure => (.error failure, config)
      | .ok credentialRef =>
          enrollWithReference parseUrl now config endpoint nodeId credential credentialRef

def disable (config : Config) : Config :=
  let telemetry :=
    if config.ownsDestination then
      { config.distributedTelemetry with
        enabled := false
        bearerToken := ""
        bearerCredential := .none }
    else config.distributedTelemetry
  { config with
    distributedTelemetry := telemetry
    fleet := { config.fleet with
      enabled := false
      credential := ""
      credentialRef := .none } }

/-! ## What `validate` accepts -/

section Checks

variable {ε α : Type}

theorem not_ok {failure : ε} {value : α} : ¬ (Except.error failure : Except ε α) = .ok value := by
  intro same
  cases same

theorem bind_ok_iff {first : Except ε Unit} {next : Unit → Except ε α} {value : α} :
    (first >>= next) = .ok value ↔ first = .ok () ∧ next () = .ok value := by
  cases first with
  | error failure => exact ⟨fun done => absurd done not_ok, fun both => absurd both.1 not_ok⟩
  | ok done => exact ⟨fun rest => ⟨rfl, rest⟩, fun both => both.2⟩

theorem throw_unless_iff {refused : Prop} [Decidable refused] {failure : ε}
    {next : Unit → Except ε α} {value : α} :
    (if refused then (throw failure : Except ε Unit) >>= next else next ()) = .ok value ↔
      ¬ refused ∧ next () = .ok value := by
  by_cases refuse : refused
  · rw [if_pos refuse]
    exact ⟨fun done => absurd done not_ok, fun both => absurd refuse both.1⟩
  · rw [if_neg refuse]
    exact ⟨fun rest => ⟨refuse, rest⟩, fun both => both.2⟩

end Checks

variable {parseUrl : UrlParser} {config : Config}

/-- A configuration `validate` accepts. -/
structure ValidConfig (parseUrl : UrlParser) (config : Config) : Prop where
  schema : config.schemaVersion = currentSchemaVersion
  model : invalidModel config.geminiModel = false
  telemetry : config.distributedTelemetry.validate
    (fun text => (parseUrl text).map fun _ => ()) = .ok ()
  fleet : config.fleet.validate parseUrl = .ok ()
  destination : config.fleet.enabled = true → config.distributedTelemetry.enabled = true ∧
    config.distributedTelemetry.endpoint = config.fleet.endpoint ∧
    config.distributedTelemetry.nodeId = config.fleet.nodeId
  timeouts : config.aiRequestTimeoutSeconds ≠ 0 ∧ config.aiConnectTimeoutSeconds ≠ 0
  provider : config.activeProvider ∈ ["disabled", "gemini", "ollama", "syspilot"]
  gemini : config.geminiApiKey = "" ∨ config.geminiCredential ≠ .none
  syspilot : config.syspilotApiKey = "" ∨ config.syspilotCredential ≠ .none
  bearer : config.distributedTelemetry.bearerToken = "" ∨
    config.distributedTelemetry.bearerCredential ≠ .none
  credential : config.fleet.credential = "" ∨ config.fleet.credentialRef ≠ .none
  ollamaUrl : ∃ scheme, parseUrl config.ollamaUrl = .ok scheme
  syspilotUrl : ∃ scheme, parseUrl config.syspilotUrl = .ok scheme

theorem liftApp_ok_iff {result : AppResult Unit} : liftApp result = .ok () ↔ result = .ok () := by
  cases result with
  | error failure => exact ⟨fun done => absurd done not_ok, fun done => absurd done not_ok⟩
  | ok done => exact ⟨fun _ => rfl, fun _ => rfl⟩

theorem validate_ok_iff : validate parseUrl config = .ok () ↔ ValidConfig parseUrl config := by
  have parsed : ∀ text reason, parseUrl text = .error reason →
      ¬ ∃ scheme, parseUrl text = .ok scheme := by
    intro text reason failed ⟨scheme, read⟩
    rw [failed] at read
    cases read
  unfold validate
  dsimp only
  simp only [throw_unless_iff, bind_ok_iff, liftApp_ok_iff, not_and_or, not_or, not_not,
    Bool.not_eq_true, Bool.not_eq_false]
  cases ollama : parseUrl config.ollamaUrl with
  | error reason =>
      refine ⟨fun checks => ?_, fun valid => absurd valid.ollamaUrl (parsed _ _ ollama)⟩
      exact absurd checks.2.2.2.2.2.2.2.2 not_ok
  | ok scheme =>
      cases syspilot : parseUrl config.syspilotUrl with
      | error reason =>
          refine ⟨fun checks => ?_, fun valid => absurd valid.syspilotUrl (parsed _ _ syspilot)⟩
          exact absurd checks.2.2.2.2.2.2.2.2 not_ok
      | ok other =>
          constructor
          · intro ⟨schema, model, telemetry, fleet, destination, timeouts, provider,
              ⟨gemini, api, bearer, credential⟩, _⟩
            exact ⟨schema, model, telemetry, fleet,
              fun enabled => destination.resolve_left (by simp [enabled]), timeouts, provider,
              gemini, api, bearer, credential, ⟨scheme, ollama⟩, other, syspilot⟩
          · intro valid
            refine ⟨valid.schema, valid.model, valid.telemetry, valid.fleet, ?_, valid.timeouts,
              valid.provider, ⟨valid.gemini, valid.syspilot, valid.bearer, valid.credential⟩, rfl⟩
            by_cases enabled : config.fleet.enabled = true
            · exact .inr (valid.destination enabled)
            · exact .inl (by simpa using enabled)

/-! ## Telemetry and fleet sections -/

/-- The telemetry section passes when its policy and rules do and, where export is on,
its destination is complete and can be parsed. -/
theorem telemetry_validate_ok_iff {parse : String → Except String Unit}
    {telemetry : DistributedTelemetryConfig} :
    telemetry.validate parse = .ok () ↔
      telemetry.exportPolicy.validate = .ok () ∧ checkRules telemetry.processAlertRules [] = .ok () ∧
        (telemetry.enabled = true → isBlank telemetry.endpoint = false ∧
          isBlank telemetry.nodeId = false ∧ parse telemetry.endpoint = .ok ()) := by
  unfold DistributedTelemetryConfig.validate
  rw [bind_ok_iff, bind_ok_iff]
  refine and_congr_right fun _ => and_congr_right fun _ => ?_
  by_cases enabled : telemetry.enabled = true
  · rw [if_pos enabled]
    dsimp only
    rw [throw_unless_iff, Bool.or_eq_true, not_or, Bool.not_eq_true, Bool.not_eq_true, and_assoc]
    cases parsed : parse telemetry.endpoint with
    | error reason =>
        exact ⟨fun checks => absurd checks.2.2 not_ok, fun checks => absurd (checks enabled).2.2 not_ok⟩
    | ok done => exact ⟨fun checks _ => ⟨checks.1, checks.2.1, rfl⟩,
        fun checks => ⟨(checks enabled).1, (checks enabled).2.1, rfl⟩⟩
  · rw [if_neg enabled]
    exact ⟨fun _ on => absurd on enabled, fun _ => rfl⟩

theorem fleet_validate_ok_iff {fleet : FleetEnrollment} :
    fleet.validate parseUrl = .ok () ↔ (fleet.enabled = true → isBlank fleet.nodeId = false ∧
      isBlank fleet.credential = false ∧ parseUrl fleet.endpoint = .ok "https") := by
  unfold FleetEnrollment.validate
  by_cases enabled : fleet.enabled = true
  · rw [if_neg (by simp [enabled])]
    by_cases blank : (isBlank fleet.nodeId || isBlank fleet.credential) = true
    · rw [if_pos blank]
      refine ⟨fun checks => absurd checks not_ok, fun checks => ?_⟩
      rw [(checks enabled).1, (checks enabled).2.1] at blank
      exact absurd blank Bool.false_ne_true
    · rw [if_neg blank]
      rw [Bool.or_eq_true, not_or, Bool.not_eq_true, Bool.not_eq_true] at blank
      cases parsed : parseUrl fleet.endpoint with
      | error reason =>
          exact ⟨fun checks => absurd checks not_ok, fun checks => absurd (checks enabled).2.2 not_ok⟩
      | ok scheme =>
          dsimp only
          by_cases secure : scheme = "https"
          · rw [if_neg (not_not.mpr secure), secure]
            exact ⟨fun _ _ => ⟨blank.1, blank.2, rfl⟩, fun _ => rfl⟩
          · rw [if_pos secure]
            refine ⟨fun checks => absurd checks not_ok, fun checks => ?_⟩
            exact absurd (Except.ok.inj (checks enabled).2.2) secure
  · rw [if_pos (by simpa using enabled)]
    exact ⟨fun _ on => absurd on enabled, fun _ => rfl⟩

/-! ## Enrolment -/

/-- The rest of the configuration takes an enrolment: the destination and the reference
are there, and everything the enrolment leaves alone is valid. -/
structure Enrollable (parseUrl : UrlParser) (config : Config) (endpoint : String)
    (credentialRef : CredentialRef) : Prop where
  endpoint : isBlank endpoint = false
  reference : credentialRef ≠ .none
  schema : config.schemaVersion = currentSchemaVersion
  model : invalidModel config.geminiModel = false
  policy : config.distributedTelemetry.exportPolicy.validate = .ok ()
  rules : checkRules config.distributedTelemetry.processAlertRules [] = .ok ()
  timeouts : config.aiRequestTimeoutSeconds ≠ 0 ∧ config.aiConnectTimeoutSeconds ≠ 0
  provider : config.activeProvider ∈ ["disabled", "gemini", "ollama", "syspilot"]
  gemini : config.geminiApiKey = "" ∨ config.geminiCredential ≠ .none
  syspilot : config.syspilotApiKey = "" ∨ config.syspilotCredential ≠ .none
  ollamaUrl : ∃ scheme, parseUrl config.ollamaUrl = .ok scheme
  syspilotUrl : ∃ scheme, parseUrl config.syspilotUrl = .ok scheme

section Enrolment

/-- An enrolment that passes its own check is valid in exactly the configurations that
take it. -/
theorem enrolled_valid_iff {parseUrl : UrlParser} {config : Config} {now : Nat}
    {endpoint nodeId credential : String} {credentialRef : CredentialRef}
    (checked : (enrollment now endpoint nodeId credential credentialRef).validate parseUrl = .ok ()) :
    validate parseUrl (config.enrolled (enrollment now endpoint nodeId credential credentialRef)) =
        .ok () ↔
      Enrollable parseUrl config endpoint credentialRef := by
  obtain ⟨node, secret, secure⟩ := fleet_validate_ok_iff.mp checked rfl
  have filled : credential ≠ "" := by
    rintro rfl
    have blank : isBlank "" = true := by decide
    exact Bool.false_ne_true (secret.symm.trans blank)
  rw [validate_ok_iff]
  constructor
  · intro valid
    obtain ⟨policy, rules, destination⟩ := telemetry_validate_ok_iff.mp valid.telemetry
    exact ⟨(destination rfl).1, valid.credential.resolve_left filled, valid.schema, valid.model,
      policy, rules, valid.timeouts, valid.provider, valid.gemini, valid.syspilot,
      valid.ollamaUrl, valid.syspilotUrl⟩
  · intro enrollable
    have parsed : (parseUrl endpoint).map (fun _ => ()) = .ok () := by
      rw [show parseUrl endpoint = .ok "https" from secure]
      rfl
    exact ⟨enrollable.schema, enrollable.model,
      telemetry_validate_ok_iff.mpr ⟨enrollable.policy, enrollable.rules,
        fun _ => ⟨enrollable.endpoint, node, parsed⟩⟩,
      checked, fun _ => ⟨rfl, rfl, rfl⟩, enrollable.timeouts, enrollable.provider,
      enrollable.gemini, enrollable.syspilot, .inr enrollable.reference,
      .inr enrollable.reference, enrollable.ollamaUrl, enrollable.syspilotUrl⟩

/-- An enrolment that fails leaves the configuration as it was, and one that succeeds
leaves a valid configuration that exports to the destination. -/
structure Transactional (parseUrl : UrlParser) (now : Nat) (config : Config)
    (endpoint nodeId credential : String) (credentialRef : CredentialRef) : Prop where
  unchanged : ∀ failure,
    (enrollWithReference parseUrl now config endpoint nodeId credential credentialRef).1 =
        .error failure →
      (enrollWithReference parseUrl now config endpoint nodeId credential credentialRef).2 = config
  applied : ∀ after,
    enrollWithReference parseUrl now config endpoint nodeId credential credentialRef =
        (.ok (), after) →
      validate parseUrl after = .ok () ∧ after.fleet.enabled = true ∧
        after.fleet.endpoint = endpoint ∧ after.fleet.nodeId = nodeId ∧
        after.distributedTelemetry.enabled = true ∧
        after.distributedTelemetry.endpoint = after.fleet.endpoint ∧
        after.distributedTelemetry.nodeId = after.fleet.nodeId

/-- An enrolment is transactional exactly when it fails its own check, or the
configuration takes it, or it changes nothing. -/
theorem transactional_iff {parseUrl : UrlParser} {now : Nat} {config : Config}
    {endpoint nodeId credential : String} {credentialRef : CredentialRef} :
    Transactional parseUrl now config endpoint nodeId credential credentialRef ↔
      (isBlank nodeId = true ∨ isBlank credential = true ∨ parseUrl endpoint ≠ .ok "https") ∨
        Enrollable parseUrl config endpoint credentialRef ∨
        config.enrolled (enrollment now endpoint nodeId credential credentialRef) = config := by
  have own := @fleet_validate_ok_iff parseUrl
    (enrollment now endpoint nodeId credential credentialRef)
  cases checked : (enrollment now endpoint nodeId credential credentialRef).validate parseUrl with
  | error failure =>
      have result : enrollWithReference parseUrl now config endpoint nodeId credential
          credentialRef = (.error failure, config) := by
        rw [enrollWithReference, checked]
      refine ⟨fun _ => .inl ?_, fun _ => ⟨fun _ _ => by rw [result], ?_⟩⟩
      · rw [checked] at own
        by_contra fine
        rw [not_or, not_or, Bool.not_eq_true, Bool.not_eq_true, not_not] at fine
        exact not_ok (own.mpr fun _ => fine)
      · intro after done
        rw [result] at done
        exact absurd (Prod.mk.inj done).1 not_ok
  | ok done =>
      have result : enrollWithReference parseUrl now config endpoint nodeId credential
          credentialRef = (validate parseUrl (config.enrolled
            (enrollment now endpoint nodeId credential credentialRef)),
          config.enrolled (enrollment now endpoint nodeId credential credentialRef)) := by
        rw [enrollWithReference, checked]
      obtain ⟨node, secret, secure⟩ := own.mp checked rfl
      have valid := @enrolled_valid_iff parseUrl config now endpoint nodeId credential credentialRef
        checked
      constructor
      · intro transactional
        refine .inr ?_
        by_cases taken : Enrollable parseUrl config endpoint credentialRef
        · exact .inl taken
        · refine .inr ?_
          have unchanged := transactional.unchanged
          rw [result] at unchanged
          cases failed : validate parseUrl (config.enrolled
              (enrollment now endpoint nodeId credential credentialRef)) with
          | error failure => exact unchanged failure failed
          | ok done => exact absurd (valid.mp failed) taken
      · intro condition
        refine ⟨?_, ?_⟩
        · intro failure failed
          rw [result] at failed ⊢
          rcases condition with (blank | blank | insecure) | taken | same
          · exact absurd (node.symm.trans blank) Bool.false_ne_true
          · exact absurd (secret.symm.trans blank) Bool.false_ne_true
          · exact absurd secure insecure
          · exact absurd (failed.symm.trans (valid.mpr taken)) not_ok
          · exact same
        · intro after succeeded
          rw [result] at succeeded
          obtain ⟨accepted, rfl⟩ := Prod.mk.inj succeeded
          exact ⟨accepted, rfl, rfl, rfl, rfl, rfl, rfl⟩

/-- Storing the secret first changes nothing about that. -/
theorem enroll_unchanged {parseUrl : UrlParser} {now : Nat} {stored : ConfigResult CredentialRef}
    {config : Config} {endpoint nodeId credential : String}
    (transactional : ∀ credentialRef, stored = .ok credentialRef →
      Transactional parseUrl now config endpoint nodeId credential credentialRef)
    {failure : ConfigError}
    (failed : (enroll parseUrl now stored config endpoint nodeId credential).1 = .error failure) :
    (enroll parseUrl now stored config endpoint nodeId credential).2 = config := by
  unfold enroll at failed ⊢
  cases checked : (enrollment now endpoint nodeId credential .none).validate parseUrl with
  | error reason => rfl
  | ok done =>
      rw [checked] at failed
      cases stored with
      | error reason => rfl
      | ok credentialRef => exact (transactional credentialRef rfl).unchanged failure failed

end Enrolment

/-! ## Disabling -/

/-- What `disable` leaves of a configuration. -/
structure Reversed (parseUrl : UrlParser) (config : Config) : Prop where
  valid : validate parseUrl (disable config) = .ok ()
  disabled : (disable config).fleet.enabled = false
  fleet : (disable config).fleet.credential = "" ∧ (disable config).fleet.credentialRef = .none
  owned : config.ownsDestination = true →
    (disable config).distributedTelemetry.enabled = false ∧
      (disable config).distributedTelemetry.bearerToken = "" ∧
      (disable config).distributedTelemetry.bearerCredential = .none
  kept : config.ownsDestination = false →
    (disable config).distributedTelemetry = config.distributedTelemetry

theorem disable_owned (owned : config.ownsDestination = true) :
    (disable config).distributedTelemetry = { config.distributedTelemetry with
      enabled := false, bearerToken := "", bearerCredential := .none } :=
  if_pos owned

theorem disable_kept (other : config.ownsDestination = false) :
    (disable config).distributedTelemetry = config.distributedTelemetry :=
  if_neg (by simp [other])

theorem reversed_of_valid (valid : validate parseUrl config = .ok ()) :
    Reversed parseUrl config := by
  have checks := validate_ok_iff.mp valid
  obtain ⟨policy, rules, destination⟩ := telemetry_validate_ok_iff.mp checks.telemetry
  refine ⟨?_, rfl, ⟨rfl, rfl⟩, ?_, disable_kept⟩
  · rw [validate_ok_iff]
    have telemetry : (disable config).distributedTelemetry.validate
          (fun text => (parseUrl text).map fun _ => ()) = .ok () ∧
        ((disable config).distributedTelemetry.bearerToken = "" ∨
          (disable config).distributedTelemetry.bearerCredential ≠ .none) := by
      cases owned : config.ownsDestination with
      | true =>
          rw [disable_owned owned]
          exact ⟨telemetry_validate_ok_iff.mpr ⟨policy, rules,
            fun on => absurd on Bool.false_ne_true⟩, .inl rfl⟩
      | false =>
          rw [disable_kept owned]
          exact ⟨checks.telemetry, checks.bearer⟩
    exact ⟨checks.schema, checks.model, telemetry.1,
      fleet_validate_ok_iff.mpr fun on => absurd on Bool.false_ne_true,
      fun on => absurd on Bool.false_ne_true, checks.timeouts, checks.provider, checks.gemini,
      checks.syspilot, telemetry.2, .inl rfl, checks.ollamaUrl, checks.syspilotUrl⟩
  · intro owned
    rw [disable_owned owned]
    exact ⟨rfl, rfl, rfl⟩

/-- Enrolment is transactional and `disable` takes it back, exactly when the enrolment
fails its own check, or the configuration takes it, or it changes nothing. -/
theorem fleet_enrolment_iff (parseUrl : UrlParser) (now : Nat) (config : Config)
    (endpoint nodeId credential : String) (credentialRef : CredentialRef) :
    Transactional parseUrl now config endpoint nodeId credential credentialRef ∧
        (validate parseUrl config = .ok () → Reversed parseUrl config) ↔
      (isBlank nodeId = true ∨ isBlank credential = true ∨ parseUrl endpoint ≠ .ok "https") ∨
        Enrollable parseUrl config endpoint credentialRef ∨
        config.enrolled (enrollment now endpoint nodeId credential credentialRef) = config := by
  rw [transactional_iff]
  exact and_iff_left reversed_of_valid

/-- A parser that knows the two schemes. -/
def schemes : UrlParser := fun text =>
  if startsWith text "https://" then .ok "https"
  else if startsWith text "http://" then .ok "http"
  else .error "relative URL without a base"

/-- A draft in which the Ollama URL is not one: the enrolment fails and stays in it. -/
theorem failed_enrolment_stays :
    ¬ Transactional schemes 1 { ollamaUrl := "localhost" } "https://fleet.example/ingest" "node-a"
      "secret" (.environment "SYSPILOT_FLEET_TOKEN") := by
  intro transactional
  have failed : (enrollWithReference schemes 1 { ollamaUrl := "localhost" }
      "https://fleet.example/ingest" "node-a" "secret"
      (.environment "SYSPILOT_FLEET_TOKEN")).1 =
        .error (.validation "invalid Ollama URL: relative URL without a base") := by
    decide +kernel
  have enabled := congrArg (fun config => config.fleet.enabled)
    (transactional.unchanged _ failed)
  exact absurd enabled (by decide +kernel)

end SystemPilot.Configuration
