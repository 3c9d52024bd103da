import Mathlib.Tactic
import SystemPilot.Telemetry.Config
import SystemPilot.Telemetry.Redaction
import SystemPilot.Spool.Effects

/-!
# The telemetry publisher

`TelemetryPublisher` from a configuration, the envelope it builds, and
`publish` as the two locked steps other threads may run between: a sequence is
reserved, then the envelope is appended.
-/

set_option autoImplicit false

namespace SystemPilot.Agent

open SystemPilot.Json
open SystemPilot.Telemetry
open SystemPilot.Spool

/-- The configuration a publisher keeps.  `sender` tells whether the wake-up
channel to the export worker exists. -/
structure TelemetryPublisher where
  sender : Bool := false
  nodeId : String := ""
  attributes : StringMap := ∅
  spool : Option DiskSpool := none
  redaction : RedactionPolicy := {}
  deriving DecidableEq

def TelemetryPublisher.disabled : TelemetryPublisher := {}

/-- What the environment decides about one locked operation. -/
structure Moment where
  faults : Faults := {}
  clock : Nat := 0

/-- The environment of a process that starts: URL parsing, the result of
building the HTTP client, the process and the state of its file system. -/
structure Startup where
  parseUrl : String → Except String Unit
  buildClient : AppResult Unit := .ok ()
  processId : Nat
  moment : Moment := {}

section Publish

variable {Bytes : Type} (codec : Codec Bytes)

def TelemetryPublisher.fromConfig (startup : Startup) (config : DistributedTelemetryConfig)
    (files : SpoolFiles Bytes) : AppResult TelemetryPublisher := do
  config.validate startup.parseUrl
  if config.enabled then
    startup.buildClient
    let spool ← openSpool startup.moment.faults config.exportPolicy.spoolMaxBytes
      config.exportPolicy.spoolMaxAgeSeconds startup.processId
    let _ ← stats codec spool startup.moment.faults startup.moment.clock files
    return {
      sender := true
      nodeId := config.nodeId
      attributes := config.attributes
      spool := some spool
      redaction := config.redaction }
  else
    return TelemetryPublisher.disabled

/-- The envelope `publish` builds from a redacted payload. -/
def TelemetryPublisher.envelope (publisher : TelemetryPublisher)
    (sequence observedAtUnixNanos : Nat) (kind : TelemetryKind) (payload : Value) :
    TelemetryEnvelope where
  schemaVersion := telemetrySchemaVersion
  messageId := publisher.nodeId ++ "-" ++ Nat.repr observedAtUnixNanos ++ "-" ++
    Nat.repr sequence
  nodeId := publisher.nodeId
  sequence
  observedAtUnixNanos
  kind
  payload
  attributes := publisher.attributes

/-- The first locked step of `publish`: the payload is redacted, a sequence is
reserved and the envelope is built. -/
def TelemetryPublisher.reserve (publisher : TelemetryPublisher) (spool : DiskSpool)
    (moment : Moment) (observedAtUnixNanos : Nat) (files : SpoolFiles Bytes)
    (kind : TelemetryKind) (payload : Value) : SpoolFiles Bytes × Outcome TelemetryEnvelope :=
  let payload := redactValue publisher.redaction payload
  match nextSequence spool moment.faults moment.clock files with
  | (files, .ok sequence) =>
      (files, .ok (publisher.envelope sequence observedAtUnixNanos kind payload))
  | (files, .error failure) => (files, .error failure)
  | (files, .crash) => (files, .crash)

/-- The moments of one `publish` and the time it stamps on the envelope. -/
structure PublishMoments where
  reserve : Moment
  observedAtUnixNanos : Nat
  append : Moment
  inspect : Moment

/-- `TelemetryPublisher::publish`; `payload` is the result of
`serde_json::to_value`, with the text of its error. -/
def TelemetryPublisher.publish (publisher : TelemetryPublisher) (moments : PublishMoments)
    (files : SpoolFiles Bytes) (kind : TelemetryKind) (payload : Except String Value) :
    SpoolFiles Bytes × Outcome Unit :=
  if publisher.sender = false then (files, .ok ())
  else match publisher.spool with
    | none => (files, .error (.protocol "enabled telemetry publisher has no spool"))
    | some spool =>
        match payload with
        | .error reason =>
            (files, .error (.protocol ("could not serialize telemetry payload: " ++ reason)))
        | .ok value =>
            match publisher.reserve spool moments.reserve moments.observedAtUnixNanos files kind
                value with
            | (files, .error failure) => (files, .error failure)
            | (files, .crash) => (files, .crash)
            | (files, .ok envelope) =>
                match append codec spool moments.append.faults moments.append.clock files
                    envelope with
                | (files, .error failure) => (files, .error failure)
                | (files, .crash) => (files, .crash)
                | (files, .ok ()) =>
                    match stats codec spool moments.inspect.faults moments.inspect.clock
                        files with
                    | .error failure => (files, .error failure)
                    | .ok _ => (files, .ok ())

end Publish

/-! ## What a publisher is -/

/-- A publisher that writes was built from a configuration that validates. -/
theorem fromConfig_ok {Bytes : Type} (codec : Codec Bytes) (startup : Startup)
    (config : DistributedTelemetryConfig) (files : SpoolFiles Bytes)
    (publisher : TelemetryPublisher)
    (started : TelemetryPublisher.fromConfig codec startup config files = .ok publisher) :
    config.validate startup.parseUrl = .ok () ∧
      (publisher = .disabled ∨
        (config.enabled = true ∧
          publisher = {
            sender := true
            nodeId := config.nodeId
            attributes := config.attributes
            spool := some {
              maxBytes := config.exportPolicy.spoolMaxBytes
              maxAgeSecs := config.exportPolicy.spoolMaxAgeSeconds
              processId := startup.processId }
            redaction := config.redaction })) := by
  unfold TelemetryPublisher.fromConfig at started
  simp only [bind, Except.bind] at started
  cases checked : config.validate startup.parseUrl with
  | error failure => simp [checked] at started
  | ok done =>
      refine ⟨rfl, ?_⟩
      rw [checked] at started
      by_cases enabled : config.enabled = true
      · simp only [enabled, if_true] at started
        cases client : startup.buildClient with
        | error failure => simp [client] at started
        | ok done =>
            rw [client] at started
            cases opened : openSpool startup.moment.faults config.exportPolicy.spoolMaxBytes
                config.exportPolicy.spoolMaxAgeSeconds startup.processId with
            | error failure => simp [opened] at started
            | ok spool =>
                rw [opened] at started
                simp only at started
                obtain ⟨_, _, rfl⟩ := openSpool_ok _ _ _ _ _ opened
                split at started
                · contradiction
                · cases started
                  exact Or.inr ⟨enabled, rfl⟩
      · simp only [enabled, Bool.false_eq_true, if_false] at started
        cases started
        exact Or.inl rfl

section Facts

variable {Bytes : Type} (codec : Codec Bytes) (publisher : TelemetryPublisher)

/-- A reserved envelope carries the reserved sequence and the redacted payload. -/
theorem reserve_cases (spool : DiskSpool) (moment : Moment) (observedAtUnixNanos : Nat)
    (files : SpoolFiles Bytes) (kind : TelemetryKind) (payload : Value) :
    let reserved := publisher.reserve spool moment observedAtUnixNanos files kind payload
    let stepped := nextSequence spool moment.faults moment.clock files
    reserved.1 = stepped.1 ∧
      ((∃ sequence, stepped.2 = .ok sequence ∧
          reserved.2 = .ok (publisher.envelope sequence observedAtUnixNanos kind
            (redactValue publisher.redaction payload))) ∨
        ((∀ envelope, reserved.2 ≠ .ok envelope) ∧ ∀ sequence, stepped.2 ≠ .ok sequence)) := by
  unfold TelemetryPublisher.reserve
  cases outcome : nextSequence spool moment.faults moment.clock files with
  | mk after result =>
      cases result with
      | ok sequence => exact ⟨rfl, Or.inl ⟨sequence, rfl, rfl⟩⟩
      | error failure => exact ⟨rfl, Or.inr ⟨by simp, by simp⟩⟩
      | crash => exact ⟨rfl, Or.inr ⟨by simp, by simp⟩⟩

/-- The records directory changes in `publish` only through the append of the
envelope it reserved. -/
theorem publish_records (moments : PublishMoments) (files : SpoolFiles Bytes)
    (kind : TelemetryKind) (payload : Value) :
    (publisher.publish codec moments files kind (.ok payload)).1.records = files.records ∨
      ∃ spool sequence,
        let envelope := publisher.envelope sequence moments.observedAtUnixNanos kind
          (redactValue publisher.redaction payload)
        let reserved := (nextSequence spool moments.reserve.faults moments.reserve.clock files).1
        publisher.spool = some spool ∧
          (publisher.publish codec moments files kind (.ok payload)).1 =
            (append codec spool moments.append.faults moments.append.clock reserved
              envelope).1 := by
  unfold TelemetryPublisher.publish
  by_cases wired : publisher.sender = false
  · rw [if_pos wired]
    exact Or.inl rfl
  · rw [if_neg wired]
    cases opened : publisher.spool with
    | none => exact Or.inl rfl
    | some spool =>
        obtain ⟨sameFiles, result⟩ := reserve_cases publisher spool moments.reserve
          moments.observedAtUnixNanos files kind payload
        obtain ⟨kept, _⟩ :=
          nextSequence_records spool moments.reserve.faults moments.reserve.clock files
        cases outcome : publisher.reserve spool moments.reserve moments.observedAtUnixNanos files
            kind payload with
        | mk reserved result' =>
            rw [outcome] at sameFiles result
            cases sameFiles
            simp only [outcome]
            cases result' with
            | error failure => exact Or.inl kept
            | crash => exact Or.inl kept
            | ok envelope =>
                rcases result with ⟨sequence, _, exact_⟩ | ⟨failed, _⟩
                · cases exact_
                  refine Or.inr ⟨spool, sequence, rfl, ?_⟩
                  simp only
                  split
                  · rename_i after failure appended
                    rw [appended]
                  · rename_i after appended
                    rw [appended]
                  · rename_i after appended
                    split <;> rw [appended]
                · exact absurd rfl (failed envelope)

end Facts

/-! ## A small agent -/

/-- An enabled configuration of a node with nothing but defaults. -/
def plainConfig (nodeId : String) : DistributedTelemetryConfig where
  enabled := true
  endpoint := "https://collector.example/v1/telemetry"
  nodeId

def plainStartup : Startup where
  parseUrl _ := .ok ()
  processId := 7

def plainMoment : Moment where
  clock := 1700000000

end SystemPilot.Agent
