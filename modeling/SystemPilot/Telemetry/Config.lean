import Mathlib.Tactic
import SystemPilot.Text
import SystemPilot.Telemetry.Envelope
import SystemPilot.Telemetry.Redaction

/-!
# Distributed telemetry configuration

The export policy, the process alert rules and the configuration that holds
them, each with the validation the agent runs before it exports anything.  URL
parsing is the HTTP client's and enters as a parameter.
-/

set_option autoImplicit false

namespace SystemPilot.Telemetry

open SystemPilot.Text

structure ExportPolicy where
  batchSize : Nat := 256
  flushIntervalMs : Nat := 1000
  maxQueueMessages : Nat := 4096
  retryBackoffMs : Nat := 1000
  maxRetries : Nat := 3
  requestTimeoutMs : Nat := 10000
  spoolMaxBytes : Nat := 512 * 1024 * 1024
  spoolMaxAgeSeconds : Nat := 7 * 24 * 60 * 60
  deriving DecidableEq, Repr

def ExportPolicy.validate (policy : ExportPolicy) : AppResult Unit :=
  if ¬(1 ≤ policy.batchSize ∧ policy.batchSize ≤ 10000)
      ∨ policy.flushIntervalMs = 0
      ∨ policy.maxQueueMessages < policy.batchSize
      ∨ policy.requestTimeoutMs = 0
      ∨ policy.spoolMaxBytes = 0
      ∨ policy.spoolMaxAgeSeconds = 0 then
    .error (.validation ("distributed export policy has an invalid batch, queue, " ++
      "flush interval, or request timeout"))
  else
    .ok ()

/-- A policy `validate` accepts. -/
structure ExportPolicy.Valid (policy : ExportPolicy) : Prop where
  batchPositive : 1 ≤ policy.batchSize
  batchBound : policy.batchSize ≤ 10000
  flush : policy.flushIntervalMs ≠ 0
  queue : policy.batchSize ≤ policy.maxQueueMessages
  timeout : policy.requestTimeoutMs ≠ 0
  spoolBytes : policy.spoolMaxBytes ≠ 0
  spoolAge : policy.spoolMaxAgeSeconds ≠ 0

theorem ExportPolicy.validate_ok_iff (policy : ExportPolicy) :
    policy.validate = .ok () ↔ policy.Valid := by
  unfold ExportPolicy.validate
  constructor
  · intro accepted
    split at accepted
    · contradiction
    · rename_i limits
      simp only [not_or, not_not, not_lt] at limits
      obtain ⟨⟨positive, bound⟩, flush, queue, timeout, bytes, age⟩ := limits
      exact ⟨positive, bound, flush, queue, timeout, bytes, age⟩
  · rintro ⟨positive, bound, flush, queue, timeout, bytes, age⟩
    rw [if_neg]
    simp only [not_or, not_not, not_lt]
    exact ⟨⟨positive, bound⟩, flush, queue, timeout, bytes, age⟩

/-- The policy an agent starts from passes its own check. -/
theorem ExportPolicy.default_valid : ({} : ExportPolicy).Valid :=
  ⟨by decide, by decide, by decide, by decide, by decide, by decide, by decide⟩

inductive ProcessNameMatch where
  | exact
  | prefixOf
  deriving DecidableEq, Repr

structure ProcessAlertRule where
  id : String
  processName : String
  matchType : ProcessNameMatch := .exact
  enabled : Bool := false
  labels : StringMap := ∅
  deriving DecidableEq

def ProcessAlertRule.validate (rule : ProcessAlertRule) : AppResult Unit :=
  if isBlank rule.id || isBlank rule.processName then
    .error (.validation "process alert rule id and process_name must not be empty")
  else
    .ok ()

/-- The loop of `ProcessAlertEngine::new`, with the identifiers seen so far. -/
def checkRules : List ProcessAlertRule → List String → AppResult Unit
  | [], _ => .ok ()
  | rule :: rest, ids => do
      rule.validate
      if rule.id ∈ ids then
        throw (.validation ("duplicate process alert rule id: " ++ rule.id))
      checkRules rest (rule.id :: ids)

structure DistributedTelemetryConfig where
  enabled : Bool := false
  endpoint : String := ""
  nodeId : String := ""
  bearerToken : String := ""
  attributes : StringMap := ∅
  exportPolicy : ExportPolicy := {}
  processAlertRules : List ProcessAlertRule := []
  redaction : RedactionPolicy := {}
  deriving DecidableEq

/-- `DistributedTelemetryConfig::validate`; `parseUrl` is `reqwest::Url::parse`
with the text of its error. -/
def DistributedTelemetryConfig.validate (parseUrl : String → Except String Unit)
    (config : DistributedTelemetryConfig) : AppResult Unit := do
  config.exportPolicy.validate
  checkRules config.processAlertRules []
  if config.enabled then
    if isBlank config.endpoint || isBlank config.nodeId then
      throw (.validation "distributed telemetry requires endpoint and node_id when enabled")
    match parseUrl config.endpoint with
    | .ok () => pure ()
    | .error reason =>
        throw (.validation ("invalid distributed telemetry endpoint: " ++ reason))

/-- What an accepted configuration guarantees about the exporter it starts. -/
theorem DistributedTelemetryConfig.validate_ok
    (parseUrl : String → Except String Unit) (config : DistributedTelemetryConfig)
    (accepted : config.validate parseUrl = .ok ()) :
    config.exportPolicy.Valid ∧
      (config.enabled = true → isBlank config.endpoint = false ∧ isBlank config.nodeId = false) := by
  unfold DistributedTelemetryConfig.validate at accepted
  simp only [bind, Except.bind] at accepted
  cases policyChecked : config.exportPolicy.validate with
  | error failure => simp [policyChecked] at accepted
  | ok done =>
      refine ⟨(config.exportPolicy.validate_ok_iff).mp policyChecked, ?_⟩
      intro enabled
      cases rulesChecked : checkRules config.processAlertRules [] with
      | error failure => simp [policyChecked, rulesChecked] at accepted
      | ok done =>
          by_cases blank : (isBlank config.endpoint || isBlank config.nodeId) = true
          · simp [policyChecked, rulesChecked, enabled, blank, throw, throwThe,
              MonadExceptOf.throw] at accepted
          · simpa using blank

end SystemPilot.Telemetry
