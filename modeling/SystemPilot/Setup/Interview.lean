import SystemPilot.Agent.Preview
import SystemPilot.Commands.Edits

/-!
# The setup interview

What `wizard` asks, line by line of the standard input, up to the configuration that is
reviewed and confirmed.  Nothing is written before that.
-/

set_option autoImplicit false

namespace SystemPilot.Setup

open SystemPilot.Text
open SystemPilot.Json (Value)
open SystemPilot.Telemetry
open SystemPilot.Agent (previewEnvelope)
open SystemPilot.Configuration
open SystemPilot.Commands (CommandFailure exporting)

inductive DeploymentMode where
  | localOnly
  | selfHostedCollector
  | hostedFleet
  deriving DecidableEq, Repr

inductive AiMode where
  | keepCurrent
  | gemini
  | ollama
  | disabled
  deriving DecidableEq, Repr

/-! ## Questions -/

/-- A line of the standard input, or why it cannot be read. -/
abbrev Line := Except String String

abbrev Dialogue (Value : Type) := StateT (List Line) (Except CommandFailure) Value

def closedInput : CommandFailure := .refused
  "terminal input closed before setup completed; no pending configuration was applied"

/-- What is made of one line; a line without any character is the end of the input. -/
def answer : Line → Except CommandFailure String
  | .error reason => .error (.refused ("could not read terminal input: " ++ reason))
  | .ok line => if line = "" then .error closedInput else .ok (String.ofList (trim line))

/-- The loop of `choose` and `confirm`: a line that is not accepted is asked for again. -/
def ask {Value : Type} (accepts : String → Option Value) : Dialogue Value
  | [] => .error closedInput
  | line :: rest =>
      match answer line with
      | .error failure => .error failure
      | .ok text =>
          match accepts text with
          | some value => .ok (value, rest)
          | none => ask accepts rest

def prompt : Dialogue String := ask some

def promptDefault (standard : String) : Dialogue String :=
  ask fun text => some (if text = "" then standard else text)

/-- The answers `choose` accepts. -/
def choice (options standard : Nat) (text : String) : Option Nat :=
  if text = "" then some standard
  else (parseUnsigned (2 ^ 64) text.toList).filter fun chosen => 1 ≤ chosen && chosen ≤ options

def choose (options standard : Nat) : Dialogue Nat := ask (choice options standard)

/-- The answers `confirm` accepts. -/
def decision (text : String) : Option Bool :=
  let text := toAsciiLowercase text
  if text = "y" ∨ text = "yes" then some true
  else if text = "" ∨ text = "n" ∨ text = "no" then some false
  else none

def confirm : Dialogue Bool := ask decision

/-! ## The interview -/

structure Destination where
  endpoint : String := ""
  nodeId : String := ""
  credential : String := ""
  deriving DecidableEq, Repr

def tokenVariable (mode : DeploymentMode) : String :=
  if mode = .hostedFleet then "SYSPILOT_FLEET_TOKEN" else "SYSPILOT_TELEMETRY_TOKEN"

section Review

variable (parseUrl : UrlParser) (environment : Environment) (now : UInt64)

def askMode : Dialogue DeploymentMode := do
  match ← choose 3 1 with
  | 1 => pure .localOnly
  | 2 => pure .selfHostedCollector
  | _ => pure .hostedFleet

def askDestination (mode : DeploymentMode) : Dialogue Destination := do
  if mode = .localOnly then pure {}
  else
    let endpoint ← prompt
    let nodeId ← prompt
    match environment (tokenVariable mode) with
    | none => throw (.refused
        (tokenVariable mode ++ " is required; credentials are never echoed by the setup UI"))
    | some credential =>
        if isBlank credential then throw (.refused (tokenVariable mode ++ " must not be empty"))
        else pure { endpoint, nodeId, credential }

def askAi : Dialogue AiMode := do
  match ← choose 4 1 with
  | 1 => pure .keepCurrent
  | 2 => pure .gemini
  | 3 => pure .ollama
  | _ => pure .disabled

/-- The provider of an answer; a key in the environment is taken with it. -/
def withAi (config : Config) : AiMode → Dialogue Config
  | .keepCurrent => pure config
  | .gemini =>
      let config := { config with activeProvider := "gemini" }
      match environment "GEMINI_API_KEY" with
      | none => pure config
      | some key =>
          if key = "" then pure config
          else pure { config with
            geminiApiKey := key
            geminiCredential := .environment "GEMINI_API_KEY" }
  | .ollama => do
      let ollamaUrl ← promptDefault config.ollamaUrl
      pure { config with activeProvider := "ollama", ollamaUrl }
  | .disabled =>
      pure { config with activeProvider := "disabled", geminiApiKey := "", syspilotApiKey := "" }

def offline (config : Config) : Config :=
  { config with distributedTelemetry := { config.distributedTelemetry with enabled := false } }

def deploy (config : Config) (mode : DeploymentMode) (destination : Destination) :
    Except CommandFailure Config :=
  match mode with
  | .localOnly => .ok (offline (disable config))
  | .selfHostedCollector =>
      .ok (exporting (disable config) destination.endpoint destination.nodeId
        destination.credential (.environment (tokenVariable mode)))
  | .hostedFleet =>
      match enrollWithReference parseUrl now.toNat config destination.endpoint destination.nodeId
        destination.credential (.environment (tokenVariable mode)) with
      | (.ok (), config) => .ok config
      | (.error failure, _) => .error (.failed "fleet enrollment is invalid" failure)

/-- The preview an export has to be inspected in; `payload` is what the host reports. -/
def preview (payload : Except String Value) (config : Config) : Except CommandFailure Unit :=
  match previewEnvelope (fun text => (parseUrl text).map fun _ => ())
    config.distributedTelemetry.toDistributedTelemetryConfig .systemSnapshot payload now.toNat with
  | .ok _ => .ok ()
  | .error failure => .error (.failed "could not create telemetry preview" (.app failure))

/-- The interview up to the last confirmation, none when it is cancelled. -/
def review (payload : Except String Value) (config : Config) : Dialogue (Option Config) := do
  let mode ← askMode
  let destination ← askDestination environment mode
  let config ← withAi environment config (← askAi)
  let config ← deploy parseUrl now config mode destination
  match validate parseUrl config with
  | .error failure => throw (.failed "configuration is invalid" failure)
  | .ok () =>
      if mode = .localOnly then
        if ← confirm then pure (some config) else pure none
      else
        preview parseUrl now payload config
        if ← confirm then
          if ← confirm then pure (some config) else pure none
        else pure none

end Review

/-! ## What was agreed to -/

/-- A line that confirms. -/
def agrees (line : Line) : Bool :=
  match answer line with
  | .error _ => false
  | .ok text => decision text = some true

section Dialogues

variable {Value Other : Type} {lines rest : List Line}

theorem dialogue_bind {first : Dialogue Value} {next : Value → Dialogue Other} {value : Other} :
    (first >>= next) lines = .ok (value, rest) ↔
      ∃ middle between, first lines = .ok (middle, between) ∧ next middle between = .ok (value, rest) := by
  show (first lines >>= fun asked => next asked.1 asked.2) = _ ↔ _
  cases first lines with
  | error failure =>
      constructor
      · intro done
        cases done
      · intro held
        obtain ⟨_, _, done, _⟩ := held
        cases done
  | ok asked =>
      refine ⟨fun done => ⟨asked.1, asked.2, rfl, done⟩, ?_⟩
      intro held
      obtain ⟨middle, between, same, done⟩ := held
      obtain rfl := Except.ok.inj same
      exact done

theorem dialogue_pure {value other : Value} :
    (pure value : Dialogue Value) lines = .ok (other, rest) ↔ value = other ∧ lines = rest := by
  show (Except.ok (value, lines) : Except CommandFailure (Value × List Line)) = _ ↔ _
  simp

theorem dialogue_lift {result : Except CommandFailure Value} {value : Value} :
    (liftM result : Dialogue Value) lines = .ok (value, rest) ↔ result = .ok value ∧ lines = rest := by
  cases result with
  | error failure =>
      constructor
      · intro done
        cases done
      · intro held
        obtain ⟨done, _⟩ := held
        cases done
  | ok other =>
      show (Except.ok (other, lines) : Except CommandFailure (Value × List Line)) = _ ↔ _
      simp

/-- A question skips the lines it does not accept. -/
theorem ask_ok {accepts : String → Option Value} {value : Value}
    (asked : ask accepts lines = .ok (value, rest)) :
    ∃ skipped line text, lines = skipped ++ line :: rest ∧ answer line = .ok text ∧
      accepts text = some value := by
  induction lines with
  | nil => cases asked
  | cons line lines inductionHypothesis =>
      unfold ask at asked
      cases answered : answer line with
      | error failure =>
          rw [answered] at asked
          cases asked
      | ok text =>
          rw [answered] at asked
          dsimp only at asked
          cases accepted : accepts text with
          | some found =>
              rw [accepted] at asked
              cases asked
              exact ⟨[], line, text, rfl, answered, accepted⟩
          | none =>
              rw [accepted] at asked
              obtain ⟨skipped, last, final, rfl, known⟩ := inductionHypothesis asked
              exact ⟨line :: skipped, last, final, rfl, known⟩

/-- How many of the lines a dialogue has read confirm. -/
def Agreed (count : Nat) (lines rest : List Line) : Prop :=
  ∃ read, lines = read ++ rest ∧ count ≤ read.countP agrees

theorem Agreed.trans {first second : Nat} {middle : List Line} (before : Agreed first lines middle)
    (after : Agreed second middle rest) : Agreed (first + second) lines rest := by
  obtain ⟨early, rfl, most⟩ := before
  obtain ⟨late, rfl, more⟩ := after
  refine ⟨early ++ late, (List.append_assoc ..).symm, ?_⟩
  rw [List.countP_append]
  omega

theorem ask_agreed {accepts : String → Option Value} {value : Value}
    (asked : ask accepts lines = .ok (value, rest)) : Agreed 0 lines rest := by
  obtain ⟨skipped, line, text, rfl, -⟩ := ask_ok asked
  exact ⟨skipped ++ [line], by simp, Nat.zero_le _⟩

theorem confirm_agreed (confirmed : confirm lines = .ok (true, rest)) : Agreed 1 lines rest := by
  obtain ⟨skipped, line, text, rfl, answered, decided⟩ := ask_ok confirmed
  refine ⟨skipped ++ [line], by simp, ?_⟩
  have yes : agrees line = true := by
    rw [agrees, answered]
    exact decide_eq_true decided
  rw [List.countP_append, List.countP_singleton, if_pos yes]
  omega

end Dialogues

/-! ## The reviewed configuration -/

/-- A reference with the key that the environment gives for it. -/
def Given (environment : Environment) (reference : CredentialRef) (key : String) : Prop :=
  ∃ variableName, reference = .environment variableName ∧ environment variableName = some key ∧
    isBlank key = false

/-- The reference of the export token, with the token. -/
def bearer (config : Config) : CredentialRef × String :=
  (config.distributedTelemetry.bearerCredential, config.distributedTelemetry.bearerToken)

/-- What is confirmed at the end of an interview: a valid configuration that differs from
the loaded one in the provider and the destination only, and that exports nothing without
a second confirmation and a token of the environment. -/
structure Reviewed (parseUrl : UrlParser) (environment : Environment) (loaded config : Config)
    (lines rest : List Line) : Prop where
  valid : validate parseUrl config = .ok ()
  same : config = { loaded with
    activeProvider := config.activeProvider
    ollamaUrl := config.ollamaUrl
    geminiApiKey := config.geminiApiKey
    geminiCredential := config.geminiCredential
    syspilotApiKey := config.syspilotApiKey
    distributedTelemetry := { loaded.distributedTelemetry with
      enabled := config.distributedTelemetry.enabled
      endpoint := config.distributedTelemetry.endpoint
      nodeId := config.distributedTelemetry.nodeId
      bearerToken := config.distributedTelemetry.bearerToken
      bearerCredential := config.distributedTelemetry.bearerCredential }
    fleet := config.fleet }
  agreed : Agreed (if config.distributedTelemetry.enabled then 2 else 1) lines rest
  given : if config.distributedTelemetry.enabled then
      Given environment (bearer config).1 (bearer config).2
    else bearer config = bearer loaded ∨ bearer config = (.none, "")
  enrolled : if config.fleet.enabled then config.distributedTelemetry.enabled = true ∧
      config.fleet.endpoint = config.distributedTelemetry.endpoint ∧
      (config.fleet.credentialRef, config.fleet.credential) = bearer config ∧
      parseUrl config.fleet.endpoint = .ok "https"
    else (config.fleet.credentialRef, config.fleet.credential) = (.none, "")

section Parts

variable {parseUrl : UrlParser} {environment : Environment} {now : UInt64}
  {loaded config next : Config} {mode : DeploymentMode} {destination : Destination}
  {lines rest : List Line}

theorem askMode_agreed (asked : askMode lines = .ok (mode, rest)) : Agreed 0 lines rest := by
  unfold askMode at asked
  obtain ⟨chosen, between, first, last⟩ := dialogue_bind.mp asked
  have agreed := ask_agreed first
  split at last <;>
  · obtain ⟨-, rfl⟩ := dialogue_pure.mp last
    exact agreed

theorem askDestination_given (asked : askDestination environment mode lines = .ok (destination, rest)) :
    Agreed 0 lines rest ∧ (mode ≠ .localOnly →
      Given environment (.environment (tokenVariable mode)) destination.credential) := by
  unfold askDestination at asked
  by_cases silent : mode = .localOnly
  · rw [if_pos silent] at asked
    obtain ⟨-, rfl⟩ := dialogue_pure.mp asked
    exact ⟨⟨[], rfl, Nat.zero_le _⟩, fun exports => absurd silent exports⟩
  · rw [if_neg silent] at asked
    obtain ⟨endpoint, between, first, asked⟩ := dialogue_bind.mp asked
    obtain ⟨nodeId, last, second, asked⟩ := dialogue_bind.mp asked
    cases token : environment (tokenVariable mode) with
    | none =>
        rw [token] at asked
        cases asked
    | some credential =>
        rw [token] at asked
        dsimp only at asked
        cases blank : isBlank credential with
        | true =>
            rw [blank] at asked
            cases asked
        | false =>
            rw [blank] at asked
            obtain ⟨rfl, rfl⟩ := dialogue_pure.mp asked
            exact ⟨(ask_agreed first).trans (ask_agreed second), fun _ => ⟨_, rfl, token, blank⟩⟩

theorem askAi_agreed {ai : AiMode} (asked : askAi lines = .ok (ai, rest)) : Agreed 0 lines rest := by
  unfold askAi at asked
  obtain ⟨chosen, between, first, last⟩ := dialogue_bind.mp asked
  have agreed := ask_agreed first
  split at last <;>
  · obtain ⟨-, rfl⟩ := dialogue_pure.mp last
    exact agreed

/-- The provider is all that an answer about it changes, with the key of the environment. -/
structure Provided (environment : Environment) (config next : Config) : Prop where
  same : next = { config with
    activeProvider := next.activeProvider
    ollamaUrl := next.ollamaUrl
    geminiApiKey := next.geminiApiKey
    geminiCredential := next.geminiCredential
    syspilotApiKey := next.syspilotApiKey }
  gemini : next.geminiCredential = config.geminiCredential ∨ Exported environment "GEMINI_API_KEY"
  fits : config.Fits → next.Fits

theorem withAi_provided {ai : AiMode} (asked : withAi environment config ai lines = .ok (next, rest)) :
    Agreed 0 lines rest ∧ Provided environment config next := by
  have none : Agreed 0 lines lines := ⟨[], rfl, Nat.zero_le _⟩
  cases ai with
  | keepCurrent =>
      obtain ⟨rfl, rfl⟩ := dialogue_pure.mp asked
      exact ⟨none, rfl, .inl rfl, id⟩
  | disabled =>
      obtain ⟨rfl, rfl⟩ := dialogue_pure.mp asked
      exact ⟨none, rfl, .inl rfl, id⟩
  | ollama =>
      unfold withAi at asked
      obtain ⟨url, between, first, asked⟩ := dialogue_bind.mp asked
      obtain ⟨rfl, rfl⟩ := dialogue_pure.mp asked
      exact ⟨ask_agreed first, rfl, .inl rfl, id⟩
  | gemini =>
      unfold withAi at asked
      dsimp only at asked
      cases found : environment "GEMINI_API_KEY" with
      | none =>
          rw [found] at asked
          obtain ⟨rfl, rfl⟩ := dialogue_pure.mp asked
          exact ⟨none, rfl, .inl rfl, id⟩
      | some key =>
          rw [found] at asked
          dsimp only at asked
          by_cases empty : key = ""
          · rw [if_pos empty] at asked
            obtain ⟨rfl, rfl⟩ := dialogue_pure.mp asked
            exact ⟨none, rfl, .inl rfl, id⟩
          · rw [if_neg empty] at asked
            obtain ⟨rfl, rfl⟩ := dialogue_pure.mp asked
            exact ⟨none, rfl, .inr ⟨key, found, empty⟩, id⟩

/-- The destination is all that a deployment changes. -/
structure Deployed (config next : Config) (mode : DeploymentMode) (destination : Destination) :
    Prop where
  same : next = { config with
    distributedTelemetry := { config.distributedTelemetry with
      enabled := next.distributedTelemetry.enabled
      endpoint := next.distributedTelemetry.endpoint
      nodeId := next.distributedTelemetry.nodeId
      bearerToken := next.distributedTelemetry.bearerToken
      bearerCredential := next.distributedTelemetry.bearerCredential }
    fleet := next.fleet }
  exports : next.distributedTelemetry.enabled = true ↔ mode ≠ .localOnly
  enrolled : next.fleet.enabled = true ↔ mode = .hostedFleet
  token : mode ≠ .localOnly → next.distributedTelemetry.bearerToken = destination.credential ∧
    next.distributedTelemetry.bearerCredential = .environment (tokenVariable mode)
  fleet : mode = .hostedFleet → next.fleet.endpoint = next.distributedTelemetry.endpoint ∧
    (next.fleet.credentialRef, next.fleet.credential) = bearer next
  kept : mode = .localOnly → bearer next = bearer config ∨ bearer next = (.none, "")
  alone : mode ≠ .hostedFleet → (next.fleet.credentialRef, next.fleet.credential) = (.none, "")
  fits : config.Fits → next.Fits

theorem deploy_deployed (deployed : deploy parseUrl now config mode destination = .ok next) :
    Deployed config next mode destination := by
  cases mode with
  | localOnly =>
      cases deployed
      unfold offline disable
      dsimp only
      split
      · exact ⟨rfl, by simp, by simp, by simp, by simp, fun _ => .inr rfl, fun _ => rfl, id⟩
      · exact ⟨rfl, by simp, by simp, by simp, by simp, fun _ => .inl rfl, fun _ => rfl, id⟩
  | selfHostedCollector =>
      cases deployed
      unfold exporting disable
      dsimp only
      split <;>
      · exact ⟨rfl, by simp, by simp, by simp, by simp, by simp, fun _ => rfl, id⟩
  | hostedFleet =>
      unfold deploy enrollWithReference at deployed
      dsimp only at deployed
      split at deployed
      · rename_i same
        split at same
        · cases same
        · cases deployed
          obtain ⟨-, rfl⟩ := Prod.mk.inj same
          refine ⟨rfl, by simp [Config.enrolled], by simp [Config.enrolled, enrollment],
            fun _ => ⟨rfl, rfl⟩, fun _ => ⟨rfl, rfl⟩, by simp, by simp, ?_⟩
          intro ⟨schema, request, connect, batch, flush, queue, backoff, retries, timeout, bytes, age,
            _, _⟩
          exact ⟨schema, request, connect, batch, flush, queue, backoff, retries, timeout, bytes, age,
            now.toNat_lt, by simp [Config.enrolled, enrollment]⟩
      · cases deployed

theorem confirmed {again : Dialogue (Option Config)}
    (asked : (do if ← confirm then again else pure none : Dialogue (Option Config)) lines =
      .ok (some config, rest)) :
    ∃ between, Agreed 1 lines between ∧ again between = .ok (some config, rest) := by
  obtain ⟨yes, between, first, asked⟩ := dialogue_bind.mp asked
  cases yes with
  | false => cases (dialogue_pure.mp asked).1
  | true => exact ⟨between, confirm_agreed first, asked⟩

/-- The confirmations at the end of an interview. -/
theorem confirmations {payload : Except String Value}
    (asked : (if mode = .localOnly then do
        if ← confirm then pure (some next) else pure none
      else do
        preview parseUrl now payload next
        if ← confirm then
          if ← confirm then pure (some next) else pure none
        else pure none : Dialogue (Option Config)) lines = .ok (some config, rest)) :
    config = next ∧ Agreed (if mode = .localOnly then 1 else 2) lines rest := by
  by_cases silent : mode = .localOnly
  · rw [if_pos silent] at asked ⊢
    obtain ⟨between, agreed, asked⟩ := confirmed asked
    obtain ⟨same, rfl⟩ := dialogue_pure.mp asked
    exact ⟨(Option.some.inj same).symm, agreed⟩
  · rw [if_neg silent] at asked ⊢
    obtain ⟨_, between, previewed, asked⟩ := dialogue_bind.mp asked
    obtain ⟨-, rfl⟩ := dialogue_lift.mp previewed
    obtain ⟨between, agreed, asked⟩ := confirmed asked
    obtain ⟨last, again, asked⟩ := confirmed asked
    obtain ⟨same, rfl⟩ := dialogue_pure.mp asked
    exact ⟨(Option.some.inj same).symm, agreed.trans again⟩

/-- Whatever the answers are, the configuration of an interview is a reviewed one. -/
theorem review_reviewed {payload : Except String Value}
    (reviewed : review parseUrl environment now payload loaded lines = .ok (some config, rest)) :
    Reviewed parseUrl environment loaded config lines rest ∧
      (config.geminiCredential = loaded.geminiCredential ∨ Exported environment "GEMINI_API_KEY") ∧
      (loaded.Fits → config.Fits) := by
  unfold review at reviewed
  obtain ⟨mode, afterMode, first, reviewed⟩ := dialogue_bind.mp reviewed
  obtain ⟨destination, afterDestination, second, reviewed⟩ := dialogue_bind.mp reviewed
  obtain ⟨ai, afterAi, third, reviewed⟩ := dialogue_bind.mp reviewed
  obtain ⟨provided, afterProvider, fourth, reviewed⟩ := dialogue_bind.mp reviewed
  obtain ⟨deployed, between, fifth, reviewed⟩ := dialogue_bind.mp reviewed
  obtain ⟨placed, rfl⟩ := dialogue_lift.mp fifth
  obtain ⟨asked, given⟩ := askDestination_given second
  obtain ⟨chosen, provider⟩ := withAi_provided fourth
  have deployment := deploy_deployed placed
  cases valid : validate parseUrl deployed with
  | error failure =>
      rw [valid] at reviewed
      cases reviewed
  | ok done =>
      rw [valid] at reviewed
      obtain ⟨rfl, agreed⟩ := confirmations reviewed
      have whole := (((askMode_agreed first).trans asked).trans (askAi_agreed third)).trans
        (chosen.trans agreed)
      have active : config.activeProvider = provided.activeProvider := by rw [deployment.same]
      have url : config.ollamaUrl = provided.ollamaUrl := by rw [deployment.same]
      have geminiKey : config.geminiApiKey = provided.geminiApiKey := by rw [deployment.same]
      have gemini : config.geminiCredential = provided.geminiCredential := by rw [deployment.same]
      have syspilotKey : config.syspilotApiKey = provided.syspilotApiKey := by rw [deployment.same]
      refine ⟨⟨valid, ?_, ?_, ?_, ?_⟩, ?_⟩
      · have same := deployment.same
        rw [provider.same] at same
        rw [active, url, geminiKey, gemini, syspilotKey]
        exact same
      · by_cases silent : mode = .localOnly
        · rw [if_pos silent] at whole
          rw [if_neg fun exports => deployment.exports.mp exports silent]
          exact whole
        · rw [if_neg silent] at whole
          rw [if_pos (deployment.exports.mpr silent)]
          exact whole
      · by_cases silent : mode = .localOnly
        · rw [if_neg fun exports => deployment.exports.mp exports silent]
          have same : bearer provided = bearer loaded := by rw [bearer, provider.same, bearer]
          rw [← same]
          exact deployment.kept silent
        · rw [if_pos (deployment.exports.mpr silent)]
          obtain ⟨token, reference⟩ := deployment.token silent
          rw [bearer, token, reference]
          exact given silent
      · by_cases hosted : mode = .hostedFleet
        · have enrolled := deployment.enrolled.mpr hosted
          rw [if_pos enrolled]
          have exports : mode ≠ .localOnly := by
            rw [hosted]
            decide
          obtain ⟨endpoint, credential⟩ := deployment.fleet hosted
          have secure := fleet_validate_ok_iff.mp (validate_ok_iff.mp valid).fleet enrolled
          exact ⟨deployment.exports.mpr exports, endpoint, credential, secure.2.2⟩
        · rw [if_neg fun enrolled => hosted (deployment.enrolled.mp enrolled)]
          exact deployment.alone hosted
      · refine ⟨?_, fun fits => deployment.fits (provider.fits fits)⟩
        rw [gemini]
        exact provider.gemini

end Parts

end SystemPilot.Setup
