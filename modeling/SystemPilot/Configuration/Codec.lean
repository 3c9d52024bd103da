import Mathlib.Tactic
import SystemPilot.Configuration.Upgrade

/-!
# The configuration as text

The derived serializer of `Config` enters as a parameter: a text it has written
is a JSON object with the schema version of the record, and reads back as the
record without its runtime secrets.  `recordCodec` is one such serializer.
-/

set_option autoImplicit false

namespace SystemPilot.Configuration

open SystemPilot.Text
open SystemPilot.Json
open SystemPilot.Telemetry
open SystemPilot.Library
open SystemPilot.Library.CrashFiles

/-- The numbers of a record fit the types of its fields. -/
def Config.Fits (config : Config) : Prop :=
  config.schemaVersion < 2 ^ 64 ∧ config.aiRequestTimeoutSeconds < 2 ^ 64 ∧
    config.aiConnectTimeoutSeconds < 2 ^ 64 ∧
    config.distributedTelemetry.exportPolicy.batchSize < 2 ^ 64 ∧
    config.distributedTelemetry.exportPolicy.flushIntervalMs < 2 ^ 64 ∧
    config.distributedTelemetry.exportPolicy.maxQueueMessages < 2 ^ 64 ∧
    config.distributedTelemetry.exportPolicy.retryBackoffMs < 2 ^ 64 ∧
    config.distributedTelemetry.exportPolicy.maxRetries < 2 ^ 32 ∧
    config.distributedTelemetry.exportPolicy.requestTimeoutMs < 2 ^ 64 ∧
    config.distributedTelemetry.exportPolicy.spoolMaxBytes < 2 ^ 64 ∧
    config.distributedTelemetry.exportPolicy.spoolMaxAgeSeconds < 2 ^ 64 ∧
    config.fleet.enrolledAtUnixNanos < 2 ^ 64 ∧
    ∀ nanos ∈ config.fleet.lastAcknowledgementUnixNanos, nanos < 2 ^ 64

instance decidableFits (config : Config) : Decidable config.Fits := by
  unfold Config.Fits
  infer_instance

/-- The record without the fields that are not serialized. -/
def Config.stored (config : Config) : Config :=
  { config with
    geminiApiKey := ""
    syspilotApiKey := ""
    distributedTelemetry := { config.distributedTelemetry with bearerToken := "" }
    fleet := { config.fleet with credential := "" } }

structure ConfigCodec (floats : FloatText) where
  decode : String → Option Config
  encode : Config → String
  decode_fits : ∀ text config, decode text = some config → config.Fits
  decode_encode : ∀ config, config.Fits → decode (encode config) = some config.stored
  object_encode : ∀ config, config.Fits → ∃ object,
    parseText floats (encode config).toList = some (.object object) ∧
      Fields.get object "schema_version" = some (.number (.posInt config.schemaVersion))

/-! ## A serializer of the record -/

/-- A field of a derived deserializer: `absent` when it is missing. -/
def readField {α : Type} (fields : Fields) (key : String) (absent : Option α) (read : Value → Option α) :
    Option α :=
  match Fields.get fields key with
  | none => absent
  | some value => read value

def asBool : Value → Option Bool
  | .bool value => some value
  | _ => none

def ofNat (value : Nat) : Value := .number (.posInt value)

def ofStringMap (entries : StringMap) : Value :=
  .object (entries.toList.map fun entry => (entry.1, .string entry.2))

def asStringMap : Value → Option StringMap
  | .object fields =>
      (fields.mapM fun (entry : String × Value) =>
        entry.2.asString.map fun text => (entry.1, text)).map
        fun entries => Std.ExtTreeMap.ofList entries
  | _ => none

def ofList {α : Type} (write : α → Value) (items : List α) : Value := .array (items.map write)

def asList {α : Type} (read : Value → Option α) : Value → Option (List α)
  | .array items => items.mapM read
  | _ => none

def asObject {α : Type} (read : Fields → Option α) : Value → Option α
  | .object fields => read fields
  | _ => none

/-- The members of a serialized record, in the order of its fields. -/
def ofMembers (members : Fields) : Value := .object (fieldsOfMembers members)

def ofExportPolicy (policy : ExportPolicy) : Value := ofMembers [
  ("batch_size", ofNat policy.batchSize),
  ("flush_interval_ms", ofNat policy.flushIntervalMs),
  ("max_queue_messages", ofNat policy.maxQueueMessages),
  ("retry_backoff_ms", ofNat policy.retryBackoffMs),
  ("max_retries", ofNat policy.maxRetries),
  ("request_timeout_ms", ofNat policy.requestTimeoutMs),
  ("spool_max_bytes", ofNat policy.spoolMaxBytes),
  ("spool_max_age_seconds", ofNat policy.spoolMaxAgeSeconds)]

def readExportPolicy (fields : Fields) : Option ExportPolicy := do
  let standard : ExportPolicy := {}
  pure {
    batchSize := ← readField fields "batch_size" (some standard.batchSize) Value.asU64
    flushIntervalMs := ← readField fields "flush_interval_ms" (some standard.flushIntervalMs) Value.asU64
    maxQueueMessages :=
      ← readField fields "max_queue_messages" (some standard.maxQueueMessages) Value.asU64
    retryBackoffMs := ← readField fields "retry_backoff_ms" (some standard.retryBackoffMs) Value.asU64
    maxRetries := ← readField fields "max_retries" (some standard.maxRetries) Value.asU64
    requestTimeoutMs :=
      ← readField fields "request_timeout_ms" (some standard.requestTimeoutMs) Value.asU64
    spoolMaxBytes := ← readField fields "spool_max_bytes" (some standard.spoolMaxBytes) Value.asU64
    spoolMaxAgeSeconds :=
      ← readField fields "spool_max_age_seconds" (some standard.spoolMaxAgeSeconds) Value.asU64 }

def ofRedaction (policy : RedactionPolicy) : Value := ofMembers [
  ("command_arguments", .bool policy.commandArguments),
  ("environment_variables", .bool policy.environmentVariables),
  ("paths", .bool policy.paths),
  ("usernames", .bool policy.usernames),
  ("ip_addresses", .bool policy.ipAddresses),
  ("source_snippets", .bool policy.sourceSnippets)]

def readRedaction (fields : Fields) : Option RedactionPolicy := do
  let standard : RedactionPolicy := {}
  pure {
    commandArguments := ← readField fields "command_arguments" (some standard.commandArguments) asBool
    environmentVariables :=
      ← readField fields "environment_variables" (some standard.environmentVariables) asBool
    paths := ← readField fields "paths" (some standard.paths) asBool
    usernames := ← readField fields "usernames" (some standard.usernames) asBool
    ipAddresses := ← readField fields "ip_addresses" (some standard.ipAddresses) asBool
    sourceSnippets := ← readField fields "source_snippets" (some standard.sourceSnippets) asBool }

def ofNameMatch : ProcessNameMatch → Value
  | .exact => .string "exact"
  | .prefixOf => .string "prefix"

def readNameMatch : Value → Option ProcessNameMatch
  | .string "exact" => some .exact
  | .string "prefix" => some .prefixOf
  | _ => none

def ofAlertRule (rule : ProcessAlertRule) : Value := ofMembers [
  ("id", .string rule.id),
  ("process_name", .string rule.processName),
  ("match_type", ofNameMatch rule.matchType),
  ("enabled", .bool rule.enabled),
  ("labels", ofStringMap rule.labels)]

def readAlertRule (fields : Fields) : Option ProcessAlertRule := do
  pure {
    id := ← readField fields "id" none Value.asString
    processName := ← readField fields "process_name" none Value.asString
    matchType := ← readField fields "match_type" (some .exact) readNameMatch
    enabled := ← readField fields "enabled" (some false) asBool
    labels := ← readField fields "labels" (some ∅) asStringMap }

def ofTelemetry (settings : TelemetrySettings) : Value := ofMembers [
  ("enabled", .bool settings.enabled),
  ("endpoint", .string settings.endpoint),
  ("node_id", .string settings.nodeId),
  ("bearer_credential", settings.bearerCredential.toValue),
  ("attributes", ofStringMap settings.attributes),
  ("export_policy", ofExportPolicy settings.exportPolicy),
  ("process_alert_rules", ofList ofAlertRule settings.processAlertRules),
  ("redaction", ofRedaction settings.redaction)]

def readTelemetry (fields : Fields) : Option TelemetrySettings := do
  pure {
    enabled := ← readField fields "enabled" (some false) asBool
    endpoint := ← readField fields "endpoint" (some "") Value.asString
    nodeId := ← readField fields "node_id" (some "") Value.asString
    bearerCredential := ← readField fields "bearer_credential" (some .none) CredentialRef.fromValue
    attributes := ← readField fields "attributes" (some ∅) asStringMap
    exportPolicy := ← readField fields "export_policy" (some {}) (asObject readExportPolicy)
    processAlertRules :=
      ← readField fields "process_alert_rules" (some []) (asList (asObject readAlertRule))
    redaction := ← readField fields "redaction" (some {}) (asObject readRedaction) }

def ofOption : Option Nat → Value
  | none => .null
  | some value => ofNat value

def readOption : Value → Option (Option Nat)
  | .null => some none
  | value => value.asU64.map some

def ofFleet (fleet : FleetEnrollment) : Value := ofMembers [
  ("enabled", .bool fleet.enabled),
  ("endpoint", .string fleet.endpoint),
  ("node_id", .string fleet.nodeId),
  ("credential_ref", fleet.credentialRef.toValue),
  ("enrolled_at_unix_nanos", ofNat fleet.enrolledAtUnixNanos),
  ("policy_source", .string fleet.policySource),
  ("upload_scope", ofList Value.string fleet.uploadScope),
  ("last_acknowledgement_unix_nanos", ofOption fleet.lastAcknowledgementUnixNanos)]

def readFleet (fields : Fields) : Option FleetEnrollment := do
  pure {
    enabled := ← readField fields "enabled" (some false) asBool
    endpoint := ← readField fields "endpoint" (some "") Value.asString
    nodeId := ← readField fields "node_id" (some "") Value.asString
    credentialRef := ← readField fields "credential_ref" (some .none) CredentialRef.fromValue
    enrolledAtUnixNanos := ← readField fields "enrolled_at_unix_nanos" (some 0) Value.asU64
    policySource := ← readField fields "policy_source" (some "") Value.asString
    uploadScope := ← readField fields "upload_scope" (some []) (asList Value.asString)
    lastAcknowledgementUnixNanos :=
      ← readField fields "last_acknowledgement_unix_nanos" (some none) readOption }

def ofConfig (config : Config) : Value := ofMembers [
  ("schema_version", ofNat config.schemaVersion),
  ("active_provider", .string config.activeProvider),
  ("gemini_credential", config.geminiCredential.toValue),
  ("gemini_model", .string config.geminiModel),
  ("syspilot_credential", config.syspilotCredential.toValue),
  ("syspilot_model", .string config.syspilotModel),
  ("ollama_url", .string config.ollamaUrl),
  ("ollama_model", .string config.ollamaModel),
  ("embedding_model", .string config.embeddingModel),
  ("embedding_provider", .string config.embeddingProvider),
  ("chunk_strategy", .string config.chunkStrategy),
  ("ai_request_timeout_seconds", ofNat config.aiRequestTimeoutSeconds),
  ("ai_connect_timeout_seconds", ofNat config.aiConnectTimeoutSeconds),
  ("syspilot_url", .string config.syspilotUrl),
  ("distributed_telemetry", ofTelemetry config.distributedTelemetry),
  ("fleet", ofFleet config.fleet)]

def readConfig (fields : Fields) : Option Config := do
  let standard : Config := {}
  pure {
    schemaVersion := ← readField fields "schema_version" (some standard.schemaVersion) Value.asU64
    activeProvider := ← readField fields "active_provider" (some standard.activeProvider) Value.asString
    geminiCredential := ← readField fields "gemini_credential" (some .none) CredentialRef.fromValue
    geminiModel := ← readField fields "gemini_model" (some standard.geminiModel) Value.asString
    syspilotCredential := ← readField fields "syspilot_credential" (some .none) CredentialRef.fromValue
    syspilotModel := ← readField fields "syspilot_model" (some standard.syspilotModel) Value.asString
    ollamaUrl := ← readField fields "ollama_url" (some standard.ollamaUrl) Value.asString
    ollamaModel := ← readField fields "ollama_model" (some standard.ollamaModel) Value.asString
    embeddingModel := ← readField fields "embedding_model" (some standard.embeddingModel) Value.asString
    embeddingProvider :=
      ← readField fields "embedding_provider" (some standard.embeddingProvider) Value.asString
    chunkStrategy := ← readField fields "chunk_strategy" (some standard.chunkStrategy) Value.asString
    aiRequestTimeoutSeconds :=
      ← readField fields "ai_request_timeout_seconds" (some standard.aiRequestTimeoutSeconds) Value.asU64
    aiConnectTimeoutSeconds :=
      ← readField fields "ai_connect_timeout_seconds" (some standard.aiConnectTimeoutSeconds) Value.asU64
    syspilotUrl := ← readField fields "syspilot_url" (some standard.syspilotUrl) Value.asString
    distributedTelemetry :=
      ← readField fields "distributed_telemetry" (some {}) (asObject readTelemetry)
    fleet := ← readField fields "fleet" (some {}) (asObject readFleet) }

/-! ## Reading back -/

theorem readField_members {α : Type} {members : Fields}
    (distinct : members.Pairwise fun left right => left.1 ≠ right.1) (key : String)
    (absent : Option α) (read : Value → Option α) :
    readField (fieldsOfMembers members) key absent read = readField members key absent read := by
  rw [readField, readField, get_fieldsOfMembers distinct]

theorem readField_cons {α : Type} (name : String) (value : Value) (rest : Fields) (key : String)
    (absent : Option α) (read : Value → Option α) :
    readField ((name, value) :: rest) key absent read =
      if name = key then read value else readField rest key absent read := by
  rw [readField, readField, Fields.get_cons]
  by_cases same : name = key
  · rw [if_pos same, if_pos same]
  · rw [if_neg same, if_neg same]

theorem asU64_ofNat {value : Nat} (fits : value < 2 ^ 64) : (ofNat value).asU64 = some value := by
  rw [ofNat, Value.asU64, if_pos fits]

theorem asStringMap_ofStringMap (entries : StringMap) :
    asStringMap (ofStringMap entries) = some entries := by
  have each : ∀ items : List (String × String), (items.map fun entry =>
      (entry.1, Value.string entry.2)).mapM (fun (entry : String × Value) =>
        entry.2.asString.map fun text => (entry.1, text)) = some items := by
    intro items
    induction items with
    | nil => rfl
    | cons item rest inductionHypothesis =>
        rw [List.map_cons, List.mapM_cons, inductionHypothesis]
        rfl
  rw [ofStringMap, asStringMap, each, Option.map_some, SortedMap.ofList_toList]

theorem asList_ofList {α : Type} {write : α → Value} {read : Value → Option α} {items : List α}
    (back : ∀ item ∈ items, read (write item) = some item) :
    asList read (ofList write items) = some items := by
  rw [ofList, asList]
  induction items with
  | nil => rfl
  | cons item rest inductionHypothesis =>
      rw [List.map_cons, List.mapM_cons, back item (by simp),
        inductionHypothesis fun other member => back other (by simp [member])]
      rfl

theorem readOption_ofOption {value : Option Nat} (fits : ∀ number ∈ value, number < 2 ^ 64) :
    readOption (ofOption value) = some value := by
  cases value with
  | none => rfl
  | some number =>
      show (ofNat number).asU64.map some = some (some number)
      rw [asU64_ofNat (fits number rfl)]
      rfl

theorem read_exportPolicy {policy : ExportPolicy} (batch : policy.batchSize < 2 ^ 64)
    (flush : policy.flushIntervalMs < 2 ^ 64) (queue : policy.maxQueueMessages < 2 ^ 64)
    (backoff : policy.retryBackoffMs < 2 ^ 64) (retries : policy.maxRetries < 2 ^ 64)
    (timeout : policy.requestTimeoutMs < 2 ^ 64) (bytes : policy.spoolMaxBytes < 2 ^ 64)
    (age : policy.spoolMaxAgeSeconds < 2 ^ 64) :
    asObject readExportPolicy (ofExportPolicy policy) = some policy := by
  rw [ofExportPolicy, ofMembers, asObject, readExportPolicy]
  simp (disch := simp) only [readField_members]
  simp [readField_cons, asU64_ofNat batch, asU64_ofNat flush, asU64_ofNat queue,
    asU64_ofNat backoff, asU64_ofNat retries, asU64_ofNat timeout, asU64_ofNat bytes,
    asU64_ofNat age]

theorem read_redaction (policy : RedactionPolicy) :
    asObject readRedaction (ofRedaction policy) = some policy := by
  rw [ofRedaction, ofMembers, asObject, readRedaction]
  simp (disch := simp) only [readField_members]
  simp [readField_cons, asBool]

theorem read_alertRule (rule : ProcessAlertRule) :
    asObject readAlertRule (ofAlertRule rule) = some rule := by
  have matched : readNameMatch (ofNameMatch rule.matchType) = some rule.matchType := by
    cases rule.matchType <;> rfl
  rw [ofAlertRule, ofMembers, asObject, readAlertRule]
  simp (disch := simp) only [readField_members]
  simp [readField_cons, asBool, Value.asString, matched, asStringMap_ofStringMap]

/-- A reader of a record gives back what was written, its runtime secrets apart. -/
theorem read_telemetry {settings : TelemetrySettings}
    (policy : asObject readExportPolicy (ofExportPolicy settings.exportPolicy) =
      some settings.exportPolicy) :
    asObject readTelemetry (ofTelemetry settings) = some { settings with bearerToken := "" } := by
  have rules : asList (asObject readAlertRule) (ofList ofAlertRule settings.processAlertRules) =
      some settings.processAlertRules := asList_ofList fun rule _ => read_alertRule rule
  rw [ofTelemetry, ofMembers, asObject, readTelemetry]
  simp (disch := simp) only [readField_members]
  simp [readField_cons, asBool, Value.asString, CredentialRef.fromValue_toValue,
    asStringMap_ofStringMap, policy, rules, read_redaction]

theorem read_fleet {fleet : FleetEnrollment} (enrolled : fleet.enrolledAtUnixNanos < 2 ^ 64)
    (acknowledged : ∀ nanos ∈ fleet.lastAcknowledgementUnixNanos, nanos < 2 ^ 64) :
    asObject readFleet (ofFleet fleet) = some { fleet with credential := "" } := by
  have scope : asList Value.asString (ofList Value.string fleet.uploadScope) =
      some fleet.uploadScope := asList_ofList fun _ _ => rfl
  rw [ofFleet, ofMembers, asObject, readFleet]
  simp (disch := simp) only [readField_members]
  simp [readField_cons, asBool, Value.asString, CredentialRef.fromValue_toValue,
    asU64_ofNat enrolled, scope, readOption_ofOption acknowledged]

theorem readConfig_members {members : Fields}
    (distinct : members.Pairwise fun left right => left.1 ≠ right.1) :
    readConfig (fieldsOfMembers members) = readConfig members := by
  simp only [readConfig, readField_members distinct]

theorem read_config {config : Config} (fits : config.Fits) :
    asObject readConfig (ofConfig config) = some config.stored := by
  obtain ⟨version, request, connect, batch, flush, queue, backoff, retries, timeout, bytes, age,
    enrolled, acknowledged⟩ := fits
  have telemetry := read_telemetry (read_exportPolicy batch flush queue backoff
    (retries.trans (by decide)) timeout bytes age)
  have fleet := read_fleet enrolled acknowledged
  rw [ofConfig, ofMembers, asObject, readConfig_members (by simp), readConfig]
  simp [readField_cons, Value.asString, CredentialRef.fromValue_toValue, asU64_ofNat version,
    asU64_ofNat request, asU64_ofNat connect, telemetry, fleet, Config.stored]

/-! ## The written text -/

theorem canonical_ofNat {value : Nat} (depth : Nat) (fits : value < 2 ^ 64) :
    (ofNat value).canonical depth = true := by
  cases depth <;> exact decide_eq_true fits

theorem canonical_ofOption {value : Option Nat} (depth : Nat)
    (fits : ∀ number ∈ value, number < 2 ^ 64) : (ofOption value).canonical depth = true := by
  cases value with
  | none => exact canonical_null depth
  | some number => exact canonical_ofNat depth (fits number rfl)

theorem canonical_ofStringMap (depth : Nat) (entries : StringMap) :
    (ofStringMap entries).canonical (depth + 1) = true := by
  refine canonical_object_iff.mpr ⟨?_, ?_⟩
  · have sorted := Std.ExtTreeMap.ordered_keys_toList (t := entries)
    rw [Fields.Sorted, List.pairwise_map]
    exact sorted.imp fun ordered => compareOfLessAndEq_eq_lt.mp ordered
  · intro field member
    obtain ⟨entry, _, rfl⟩ := List.mem_map.mp member
    exact canonical_string depth _

theorem canonical_ofList {α : Type} {depth : Nat} {write : α → Value}
    (each : ∀ item, (write item).canonical depth = true) (items : List α) :
    (ofList write items).canonical (depth + 1) = true := by
  simp [ofList, Value.canonical, each]

theorem canonical_ofMembers {depth : Nat} {members : Fields}
    (each : ∀ member ∈ members, member.2.canonical depth = true) :
    (ofMembers members).canonical (depth + 1) = true :=
  canonical_fieldsOfMembers each

theorem canonical_ofAlertRule (depth : Nat) (rule : ProcessAlertRule) :
    (ofAlertRule rule).canonical (depth + 2) = true := by
  have matched : (ofNameMatch rule.matchType).canonical (depth + 1) = true := by
    cases rule.matchType <;> exact canonical_string _ _
  exact canonical_ofMembers (by simp [matched, canonical_ofStringMap])

theorem canonical_ofConfig {config : Config} (fits : config.Fits) :
    (ofConfig config).canonical 127 = true := by
  obtain ⟨version, request, connect, batch, flush, queue, backoff, retries, timeout, bytes, age,
    enrolled, acknowledged⟩ := fits
  have retries' := retries.trans (show 2 ^ 32 < 2 ^ 64 by decide)
  have policy : (ofExportPolicy config.distributedTelemetry.exportPolicy).canonical 125 = true :=
    canonical_ofMembers (by
      simp [canonical_ofNat _ batch, canonical_ofNat _ flush, canonical_ofNat _ queue,
        canonical_ofNat _ backoff, canonical_ofNat _ retries', canonical_ofNat _ timeout,
        canonical_ofNat _ bytes, canonical_ofNat _ age])
  have redaction : (ofRedaction config.distributedTelemetry.redaction).canonical 125 = true :=
    canonical_ofMembers (by simp)
  have rules := canonical_ofList (canonical_ofAlertRule 122)
    config.distributedTelemetry.processAlertRules
  have scope : (ofList Value.string config.fleet.uploadScope).canonical 125 = true :=
    canonical_ofList (canonical_string 124) _
  have telemetry : (ofTelemetry config.distributedTelemetry).canonical 126 = true :=
    canonical_ofMembers (by
      simp [policy, redaction, rules, canonical_ofStringMap, CredentialRef.canonical_toValue])
  have fleet : (ofFleet config.fleet).canonical 126 = true :=
    canonical_ofMembers (by
      simp [scope, canonical_ofNat _ enrolled, canonical_ofOption _ acknowledged,
        CredentialRef.canonical_toValue])
  exact canonical_ofMembers (by
    simp [telemetry, fleet, canonical_ofNat _ version, canonical_ofNat _ request,
      canonical_ofNat _ connect, CredentialRef.canonical_toValue])

/-- The text of a record, printed as a sorted object. -/
def recordText (config : Config) : String := String.ofList (pretty bitFloats 0 (ofConfig config))

theorem parse_recordText {config : Config} (fits : config.Fits) :
    parseText bitFloats (recordText config).toList = some (ofConfig config) := by
  rw [recordText, String.toList_ofList, parseText_pretty bitFloats _ (canonical_ofConfig fits)]
  exact congrArg some (mapFloats_same _)

/-- A serializer as derived for the record, with the sorted field order of a
JSON value. -/
def recordCodec : ConfigCodec bitFloats where
  decode text := ((parseText bitFloats text.toList).bind (asObject readConfig)).filter fun config =>
    decide config.Fits
  encode := recordText
  decode_fits text config read := by
    simpa using (Option.filter_eq_some_iff.mp read).2
  decode_encode config fits := by
    rw [parse_recordText fits, Option.bind_some, read_config fits, Option.filter_some]
    exact if_pos (decide_eq_true fits)
  object_encode config fits := by
    refine ⟨_, parse_recordText fits, ?_⟩
    rw [get_fieldsOfMembers (by simp)]
    rfl

end SystemPilot.Configuration
