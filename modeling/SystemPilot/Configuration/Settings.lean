import Mathlib.Tactic
import SystemPilot.Telemetry.Config
import SystemPilot.Configuration.Migration

/-!
# The configuration record

`Config` with the checks it passes before it is used or saved.  URL parsing is
the HTTP client's and enters as a parameter; `scheme` of an accepted URL is all
the agent reads of it.
-/

set_option autoImplicit false

namespace SystemPilot.Configuration

open SystemPilot.Text
open SystemPilot.Telemetry
open SystemPilot.Library.CrashFiles

structure FleetEnrollment where
  enabled : Bool := false
  endpoint : String := ""
  nodeId : String := ""
  credential : String := ""
  credentialRef : CredentialRef := .none
  enrolledAtUnixNanos : Nat := 0
  policySource : String := ""
  uploadScope : List String := []
  lastAcknowledgementUnixNanos : Option Nat := none
  deriving DecidableEq

/-- `DistributedTelemetryConfig` with the reference its token is resolved from. -/
structure TelemetrySettings extends DistributedTelemetryConfig where
  bearerCredential : CredentialRef := .none
  deriving DecidableEq

structure Config where
  schemaVersion : Nat := currentSchemaVersion
  activeProvider : String := "gemini"
  geminiApiKey : String := ""
  geminiCredential : CredentialRef := .none
  geminiModel : String := "gemini-3.6-flash"
  syspilotApiKey : String := ""
  syspilotCredential : CredentialRef := .none
  syspilotModel : String := "syspilot-1"
  ollamaUrl : String := "http://localhost:11434"
  ollamaModel : String := "llama3"
  embeddingModel : String := "text-embedding-004"
  embeddingProvider : String := "active"
  chunkStrategy : String := "syntactic"
  aiRequestTimeoutSeconds : Nat := 120
  aiConnectTimeoutSeconds : Nat := 15
  syspilotUrl : String := "https://api.syspilot.dev/v1/chat/completions"
  distributedTelemetry : TelemetrySettings := {}
  fleet : FleetEnrollment := {}
  deriving DecidableEq

/-- `reqwest::Url::parse`: the scheme of the URL, or the text of the error. -/
abbrev UrlParser := String → Except String String

def liftApp {α : Type} : AppResult α → ConfigResult α
  | .ok value => .ok value
  | .error failure => .error (.app failure)

def FleetEnrollment.validate (parseUrl : UrlParser) (fleet : FleetEnrollment) : ConfigResult Unit :=
  if fleet.enabled = false then .ok ()
  else if isBlank fleet.nodeId || isBlank fleet.credential then
    .error (.validation "fleet enrollment requires a node ID and credential")
  else match parseUrl fleet.endpoint with
    | .error reason => .error (.validation ("invalid fleet endpoint: " ++ reason))
    | .ok scheme =>
        if scheme ≠ "https" then
          .error (.validation "hosted fleet enrollment requires an HTTPS endpoint")
        else .ok ()

/-- The models `validate` refuses. -/
def invalidModel (model : String) : Bool :=
  model = "" || model = "gemini" || model = "gemini-2.0-flash" ||
    ('/' ∉ model.toList && '-' ∉ model.toList)

def validate (parseUrl : UrlParser) (config : Config) : ConfigResult Unit := do
  if config.schemaVersion ≠ currentSchemaVersion then
    throw (.validation ("configuration schema " ++ toString config.schemaVersion ++
      " is not supported; expected " ++ toString currentSchemaVersion))
  if invalidModel config.geminiModel then
    throw (.validation ("invalid Gemini model '" ++ config.geminiModel ++
      "'; set an explicit supported model"))
  liftApp (config.distributedTelemetry.validate fun text => (parseUrl text).map fun _ => ())
  config.fleet.validate parseUrl
  if config.fleet.enabled ∧ (config.distributedTelemetry.enabled = false
      ∨ config.distributedTelemetry.endpoint ≠ config.fleet.endpoint
      ∨ config.distributedTelemetry.nodeId ≠ config.fleet.nodeId) then
    throw (.validation "fleet enrollment and telemetry destination are inconsistent")
  if config.aiRequestTimeoutSeconds = 0 ∨ config.aiConnectTimeoutSeconds = 0 then
    throw (.validation "AI request and connect timeouts must be greater than zero")
  if config.activeProvider ∉ ["disabled", "gemini", "ollama", "syspilot"] then
    throw (.validation ("invalid AI provider '" ++ config.activeProvider ++
      "'; use disabled, gemini, ollama, or syspilot"))
  if (config.geminiApiKey ≠ "" ∧ config.geminiCredential = .none)
      ∨ (config.syspilotApiKey ≠ "" ∧ config.syspilotCredential = .none)
      ∨ (config.distributedTelemetry.bearerToken ≠ ""
        ∧ config.distributedTelemetry.bearerCredential = .none)
      ∨ (config.fleet.credential ≠ "" ∧ config.fleet.credentialRef = .none) then
    throw (.validation "runtime credentials must have a CredentialRef before configuration is saved")
  match parseUrl config.ollamaUrl with
  | .error reason => throw (.validation ("invalid Ollama URL: " ++ reason))
  | .ok _ => pure ()
  match parseUrl config.syspilotUrl with
  | .error reason => throw (.validation ("invalid SysPilot API URL: " ++ reason))
  | .ok _ => pure ()

/-- A migrated model passes the check of the loader. -/
theorem invalidModel_iff_outdated (model : String) : invalidModel model = outdatedModel model := rfl

end SystemPilot.Configuration
