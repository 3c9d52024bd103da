import Mathlib.Tactic
import SystemPilot.Agent.Publisher

/-!
# The privacy preview

`preview_envelope` against what `publish` persists.  Both redact the payload;
only the preview redacts the attributes, so the two agree exactly when
redaction has nothing to do on the configured attributes.
-/

set_option autoImplicit false

namespace SystemPilot.Agent

open SystemPilot.Json
open SystemPilot.Library
open SystemPilot.Telemetry
open SystemPilot.Spool

/-- `preview_envelope`; `payload` is the result of `serde_json::to_value`. -/
def previewEnvelope (parseUrl : String → Except String Unit)
    (config : DistributedTelemetryConfig) (kind : TelemetryKind)
    (payload : Except String Value) (observedAtUnixNanos : Nat) : AppResult TelemetryEnvelope := do
  config.validate parseUrl
  match payload with
  | .error reason => throw (.protocol ("could not serialize telemetry preview: " ++ reason))
  | .ok value =>
      let payload := redactValue config.redaction value
      match stringMapOfValue (redactValue config.redaction (stringMapValue config.attributes)) with
      | none => throw (.protocol "could not decode redacted telemetry attributes")
      | some attributes =>
          let nodeId := if config.nodeId.isEmpty then "unenrolled-node" else config.nodeId
          return {
            schemaVersion := telemetrySchemaVersion
            messageId := nodeId ++ "-preview"
            nodeId
            sequence := 0
            observedAtUnixNanos
            kind
            payload
            attributes }

/-- The part of an envelope the preview promises. -/
structure SameContent (persisted shown : TelemetryEnvelope) : Prop where
  kind : persisted.kind = shown.kind
  payload : persisted.payload = shown.payload
  attributes : persisted.attributes = shown.attributes
  hidden : ∀ key : String, shown.attributes[key]? = some redacted →
    persisted.attributes[key]? = some redacted

/-- Redaction has nothing to hide in the attributes: each value is already the
redaction text, or neither its key nor its text is sensitive. -/
def NothingToRedact (policy : RedactionPolicy) (attributes : StringMap) : Prop :=
  ∀ key value : String, attributes[key]? = some value →
    value = redacted ∨
      (sensitiveKey key policy = false ∧ containsPath policy value = false ∧
        containsIp policy value = false)

theorem redactAttribute_eq_self_iff (policy : RedactionPolicy) (key value : String) :
    redactAttribute policy key value = value ↔
      value = redacted ∨
        (sensitiveKey key policy = false ∧ containsPath policy value = false ∧
          containsIp policy value = false) := by
  unfold redactAttribute redactText
  by_cases sensitive : sensitiveKey key policy = true
  · rw [if_pos sensitive]
    refine ⟨fun same => Or.inl same.symm, ?_⟩
    rintro (same | ⟨insensitive, _⟩)
    · exact same.symm
    · rw [sensitive] at insensitive
      contradiction
  · rw [if_neg sensitive]
    rw [Bool.not_eq_true] at sensitive
    by_cases hidden : (containsPath policy value || containsIp policy value) = true
    · rw [if_pos hidden]
      refine ⟨fun same => Or.inl same.symm, ?_⟩
      rintro (same | ⟨_, path, ip⟩)
      · exact same.symm
      · simp [path, ip] at hidden
    · rw [if_neg hidden]
      rw [Bool.not_eq_true, Bool.or_eq_false_iff] at hidden
      exact ⟨fun _ => Or.inr ⟨sensitive, hidden.1, hidden.2⟩, fun _ => rfl⟩

theorem map_redactAttribute_eq_self_iff (policy : RedactionPolicy) (attributes : StringMap) :
    attributes.map (redactAttribute policy) = attributes ↔
      NothingToRedact policy attributes := by
  constructor
  · intro same key value found
    have entry := congrArg (fun entries : StringMap => entries[key]?) same
    simp only [Std.ExtTreeMap.getElem?_map, found, Option.map_some, Option.some.injEq] at entry
    exact (redactAttribute_eq_self_iff policy key value).mp entry
  · intro clear
    apply Std.ExtTreeMap.ext_getElem?
    intro key
    rw [Std.ExtTreeMap.getElem?_map]
    cases found : attributes[key]? with
    | none => rfl
    | some value =>
        have entry := (redactAttribute_eq_self_iff policy key value).mpr (clear key value found)
        rw [Option.map_some, entry]

/-- The preview of a valid configuration shows the redacted payload and the
redacted attributes. -/
theorem previewEnvelope_ok (parseUrl : String → Except String Unit)
    (config : DistributedTelemetryConfig) (kind : TelemetryKind) (payload : Value)
    (observedAtUnixNanos : Nat) (accepted : config.validate parseUrl = .ok ()) :
    ∃ shown, previewEnvelope parseUrl config kind (.ok payload) observedAtUnixNanos = .ok shown ∧
      shown.kind = kind ∧ shown.payload = redactValue config.redaction payload ∧
      shown.attributes = config.attributes.map (redactAttribute config.redaction) := by
  unfold previewEnvelope
  rw [accepted, stringMapOfValue_redactValue]
  exact ⟨_, rfl, rfl, rfl, rfl⟩

/-- A record `publish` adds to the spool is the envelope it built: the redacted
payload with the configured attributes. -/
theorem publish_persisted {Bytes : Type} (codec : Codec Bytes) (faithful : codec.Faithful)
    (publisher : TelemetryPublisher) (moments : PublishMoments) (files : SpoolFiles Bytes)
    (kind : TelemetryKind) (payload : Value) (path : String) (file : StoredFile Bytes)
    (persisted : TelemetryEnvelope)
    (named : isRecordName path = true)
    (fresh : files.records[path]? = none)
    (written : (publisher.publish codec moments files kind (.ok payload)).1.records[path]? =
      some file)
    (decoded : codec.fromSlice file.content = some persisted) :
    ∃ sequence, persisted = publisher.envelope sequence moments.observedAtUnixNanos kind
      (redactValue publisher.redaction payload) := by
  rcases publish_records codec publisher moments files kind payload with
    kept | ⟨spool, sequence, _, exact_⟩
  · rw [kept, fresh] at written
    cases written
  · obtain ⟨kept, _⟩ :=
      nextSequence_records spool moments.reserve.faults moments.reserve.clock files
    rw [exact_] at written
    rcases append_cases codec spool moments.append.faults moments.append.clock
        (nextSequence spool moments.reserve.faults moments.reserve.clock files).1
        (publisher.envelope sequence moments.observedAtUnixNanos kind
          (redactValue publisher.redaction payload)) with
      ⟨_, _, appended⟩ | ⟨_, unchanged | ⟨name, content, temporary, left⟩⟩
    · rw [appended] at written
      simp only [SortedMap.getElem?_insert, kept, fresh] at written
      split at written
      · cases written
        rw [faithful] at decoded
        cases decoded
        exact ⟨sequence, rfl⟩
      · cases written
    · rw [unchanged, kept, fresh] at written
      cases written
    · have other : name ≠ path := by
        rintro rfl
        rw [named] at temporary
        cases temporary
      rw [left] at written
      simp only [SortedMap.getElem?_insert_of_ne _ _ other, kept, fresh] at written
      cases written

/-- An enabled configuration with one attribute. -/
def labelledConfig (key value : String) : DistributedTelemetryConfig :=
  { plainConfig "node-a" with attributes := {(key, value)} }

def plainMoments : PublishMoments where
  reserve := plainMoment
  observedAtUnixNanos := 1700000000000000000
  append := plainMoment
  inspect := plainMoment

/-- The publisher `labelledConfig` starts on an empty spool. -/
def labelledPublisher (key value : String) : TelemetryPublisher where
  sender := true
  nodeId := "node-a"
  attributes := {(key, value)}
  spool := some { maxBytes := 512 * 1024 * 1024, maxAgeSecs := 7 * 24 * 60 * 60, processId := 7 }

/-- The first health record of `labelledPublisher`. -/
def labelledEnvelope (key value : String) : TelemetryEnvelope :=
  (labelledPublisher key value).envelope 1 1700000000000000000 .health (.bool true)

end SystemPilot.Agent
