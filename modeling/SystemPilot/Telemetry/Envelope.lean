import Mathlib.Tactic
import SystemPilot.Text
import SystemPilot.Json

/-!
# Telemetry envelopes

The record the agent spools and the collector stores, with its validation and
its JSON document.  The byte encoding is `serde_json`'s; it enters as a `Codec`
and the developments that rely on it name what they assume.
-/

set_option autoImplicit false

namespace SystemPilot

/-- Errors at the filesystem, configuration and protocol boundaries. -/
inductive AppError where
  | io (context : String)
  | validation (message : String)
  | protocol (message : String)
  deriving DecidableEq, Repr

abbrev AppResult (α : Type) := Except AppError α

/-- `BTreeMap<String, String>`. -/
abbrev StringMap := Std.ExtTreeMap String String

end SystemPilot

namespace SystemPilot.Telemetry

open SystemPilot.Json
open SystemPilot.Text

/-- `TELEMETRY_SCHEMA_VERSION`. -/
def telemetrySchemaVersion : Nat := 1

inductive TelemetryKind where
  | processLifecycle
  | processAlert
  | processSnapshot
  | systemSnapshot
  | causalGraph
  | health
  deriving DecidableEq, Repr

/-- The snake-case name under which a kind is serialized. -/
def TelemetryKind.name : TelemetryKind → String
  | .processLifecycle => "process_lifecycle"
  | .processAlert => "process_alert"
  | .processSnapshot => "process_snapshot"
  | .systemSnapshot => "system_snapshot"
  | .causalGraph => "causal_graph"
  | .health => "health"

structure TelemetryEnvelope where
  schemaVersion : Nat
  messageId : String
  nodeId : String
  sequence : Nat
  observedAtUnixNanos : Nat
  kind : TelemetryKind
  payload : Value
  attributes : StringMap
  deriving DecidableEq

def TelemetryEnvelope.validate (envelope : TelemetryEnvelope) : AppResult Unit :=
  if envelope.schemaVersion ≠ telemetrySchemaVersion then
    .error (.protocol ("unsupported telemetry schema version " ++
      toString envelope.schemaVersion ++ "; expected " ++ toString telemetrySchemaVersion))
  else if isBlank envelope.messageId || isBlank envelope.nodeId then
    .error (.validation "telemetry message_id and node_id must not be empty")
  else if envelope.observedAtUnixNanos == 0 || envelope.payload.isNull then
    .error (.validation "telemetry timestamp must be set and payload must not be null")
  else
    .ok ()

/-- A record `validate` accepts. -/
structure TelemetryEnvelope.Valid (envelope : TelemetryEnvelope) : Prop where
  schema : envelope.schemaVersion = telemetrySchemaVersion
  messageId : isBlank envelope.messageId = false
  nodeId : isBlank envelope.nodeId = false
  observed : envelope.observedAtUnixNanos ≠ 0
  payload : envelope.payload.isNull = false

theorem TelemetryEnvelope.validate_ok_iff (envelope : TelemetryEnvelope) :
    envelope.validate = .ok () ↔ envelope.Valid := by
  unfold TelemetryEnvelope.validate
  constructor
  · intro accepted
    split at accepted
    · contradiction
    · rename_i schema
      split at accepted
      · contradiction
      · rename_i identity
        split at accepted
        · contradiction
        · rename_i content
          simp only [Bool.or_eq_true, not_or, Bool.not_eq_true, beq_iff_eq] at identity content
          exact ⟨not_not.mp schema, identity.1, identity.2, content.1, content.2⟩
  · rintro ⟨schema, messageId, nodeId, observed, payload⟩
    simp [schema, messageId, nodeId, observed, payload]

/-! ## The JSON document of a record -/

/-- `serde_json::to_value` of a string map. -/
def stringMapValue (entries : StringMap) : Value :=
  .object (entries.toList.map fun entry => (entry.1, .string entry.2))

/-- `serde_json::to_value` of a record, its fields in the order of the map. -/
def TelemetryEnvelope.toValue (envelope : TelemetryEnvelope) : Value :=
  .object [
    ("attributes", stringMapValue envelope.attributes),
    ("kind", .string envelope.kind.name),
    ("message_id", .string envelope.messageId),
    ("node_id", .string envelope.nodeId),
    ("observed_at_unix_nanos", .number (.posInt envelope.observedAtUnixNanos)),
    ("payload", envelope.payload),
    ("schema_version", .number (.posInt envelope.schemaVersion)),
    ("sequence", .number (.posInt envelope.sequence))]

theorem TelemetryKind.name_injective : Function.Injective TelemetryKind.name := by
  intro left right same
  cases left <;> cases right <;> first | rfl | exact absurd same (by decide)

theorem stringMapValue_injective : Function.Injective stringMapValue := by
  intro left right same
  have fields : left.toList.map (fun entry => (entry.1, Value.string entry.2)) =
      right.toList.map (fun entry => (entry.1, Value.string entry.2)) := by
    simpa [stringMapValue] using same
  have pairInjective :
      Function.Injective (fun entry : String × String => (entry.1, Value.string entry.2)) := by
    rintro ⟨key, text⟩ ⟨otherKey, otherText⟩ pairs
    simpa using pairs
  exact Std.ExtTreeMap.toList_inj.mp (List.map_injective_iff.mpr pairInjective fields)

/-- Two records with one document are one record. -/
theorem TelemetryEnvelope.toValue_injective :
    Function.Injective TelemetryEnvelope.toValue := by
  rintro ⟨schema, message, node, sequence, observed, kind, payload, attributes⟩
    ⟨schema', message', node', sequence', observed', kind', payload', attributes'⟩ same
  simp only [TelemetryEnvelope.toValue, Value.object.injEq, List.cons.injEq, Prod.mk.injEq,
    true_and, and_true, Value.string.injEq, Value.number.injEq, Number.posInt.injEq] at same
  obtain ⟨attributesEq, kindEq, messageEq, nodeEq, observedEq, payloadEq, schemaEq,
    sequenceEq⟩ := same
  cases stringMapValue_injective attributesEq
  cases TelemetryKind.name_injective kindEq
  subst messageEq nodeEq observedEq payloadEq schemaEq sequenceEq
  rfl

@[simp] theorem TelemetryEnvelope.toValue_isObject (envelope : TelemetryEnvelope) :
    envelope.toValue.isObject = true := rfl

/-! ## The byte encoding -/

/-- `serde_json::to_vec` and `serde_json::from_slice` on records, and the
length of an encoding. -/
structure Codec (Bytes : Type) where
  toVec : TelemetryEnvelope → Bytes
  fromSlice : Bytes → Option TelemetryEnvelope
  len : Bytes → Nat

/-- Decoding gives back the record that was encoded. -/
def Codec.Faithful {Bytes : Type} (codec : Codec Bytes) : Prop :=
  ∀ envelope, codec.fromSlice (codec.toVec envelope) = some envelope

theorem Codec.Faithful.toVec_injective {Bytes : Type} {codec : Codec Bytes}
    (faithful : codec.Faithful) : Function.Injective codec.toVec := by
  intro left right same
  have decoded := congrArg codec.fromSlice same
  rw [faithful left, faithful right] at decoded
  exact Option.some.inj decoded

/-- The codec that keeps envelopes as they are. -/
def plainCodec : Codec TelemetryEnvelope where
  toVec := id
  fromSlice := some
  len _ := 1

theorem plainCodec_faithful : plainCodec.Faithful := fun _ => rfl

def encodeJson {Bytes : Type} (codec : Codec Bytes) (envelope : TelemetryEnvelope) :
    AppResult Bytes := do
  envelope.validate
  return codec.toVec envelope

theorem encodeJson_ok_iff {Bytes : Type} (codec : Codec Bytes)
    (envelope : TelemetryEnvelope) (bytes : Bytes) :
    encodeJson codec envelope = .ok bytes ↔
      envelope.Valid ∧ codec.toVec envelope = bytes := by
  rw [← envelope.validate_ok_iff]
  unfold encodeJson
  cases checked : envelope.validate with
  | error failure => simp [bind, Except.bind]
  | ok done => simp [bind, Except.bind, pure, Except.pure]

end SystemPilot.Telemetry
