import SystemPilot.Agent.Metrics
import SystemPilot.Configuration.Codec
import SystemPilot.Json.Compact
import SystemPilot.Library.Machine

/-!
# The health report of the daemon

`write_health` fills a temporary file and renames it over the report; the command
line reads the report while the daemon goes on and after it has gone.  One daemon
runs at a time, and starts again over what another one left.
-/

set_option autoImplicit false

namespace SystemPilot.Daemon

open SystemPilot.Library
open SystemPilot.Text
open SystemPilot.Json
open SystemPilot.Telemetry
open SystemPilot.Agent (ExportMetrics)
open SystemPilot.Configuration (readField asObject ofNat ofOption readOption ofMembers
  readField_members readField_cons asU64_ofNat readOption_ofOption canonical_ofNat
  canonical_ofOption canonical_ofMembers)

/-! ## The report -/

structure ExporterHealth where
  queued : UInt64
  sent : UInt64
  retried : UInt64
  rejected : UInt64
  dropped : UInt64
  lastAcknowledgementUnixNanos : Option UInt64
  spoolBytes : UInt64
  quarantined : UInt64
  persistenceFailures : UInt64
  deriving DecidableEq, Repr

/-- `ExportMetrics::snapshot`; a time of zero is no acknowledgement. -/
def snapshot (metrics : ExportMetrics) : ExporterHealth where
  queued := metrics.queued
  sent := metrics.sent
  retried := metrics.retried
  rejected := metrics.rejected
  dropped := metrics.dropped
  lastAcknowledgementUnixNanos :=
    if metrics.lastAcknowledgementUnixNanos = 0 then none
    else some metrics.lastAcknowledgementUnixNanos
  spoolBytes := metrics.spoolBytes
  quarantined := metrics.quarantined
  persistenceFailures := metrics.persistenceFailures

structure DaemonHealthV1 where
  state : String
  pid : UInt32
  heartbeatUnixNanos : UInt64
  socket : String
  netlinkState : String
  droppedEvents : UInt64
  responseWriteFailures : UInt64
  exporter : ExporterHealth
  deriving DecidableEq, Repr

/-- The text of `NETLINK_STATE`. -/
def netlinkText (state : Int) : String :=
  if state = 1 then "active" else if state = 2 then "degraded" else "starting"

/-- What `write_health` reports: the process, its clock and its counters. -/
def healthReport (state : String) (pid : UInt32) (now : UInt64) (socket : String) (netlink : Int)
    (droppedEvents responseWriteFailures : UInt64) (metrics : ExportMetrics) : DaemonHealthV1 where
  state
  pid
  heartbeatUnixNanos := now
  socket
  netlinkState := netlinkText netlink
  droppedEvents
  responseWriteFailures
  exporter := snapshot metrics

def ofU64 (value : UInt64) : Value := ofNat value.toNat

def asUInt64 (value : Value) : Option UInt64 := value.asU64.map UInt64.ofNat

def asUInt32 (value : Value) : Option UInt32 :=
  match value.asU64 with
  | some number => if number < 2 ^ 32 then some (UInt32.ofNat number) else none
  | none => none

def ExporterHealth.toValue (exporter : ExporterHealth) : Value := ofMembers [
  ("queued", ofU64 exporter.queued),
  ("sent", ofU64 exporter.sent),
  ("retried", ofU64 exporter.retried),
  ("rejected", ofU64 exporter.rejected),
  ("dropped", ofU64 exporter.dropped),
  ("last_acknowledgement_unix_nanos",
    ofOption (exporter.lastAcknowledgementUnixNanos.map UInt64.toNat)),
  ("spool_bytes", ofU64 exporter.spoolBytes),
  ("quarantined", ofU64 exporter.quarantined),
  ("persistence_failures", ofU64 exporter.persistenceFailures)]

def DaemonHealthV1.toValue (health : DaemonHealthV1) : Value := ofMembers [
  ("state", .string health.state),
  ("pid", ofNat health.pid.toNat),
  ("heartbeat_unix_nanos", ofU64 health.heartbeatUnixNanos),
  ("socket", .string health.socket),
  ("netlink_state", .string health.netlinkState),
  ("dropped_events", ofU64 health.droppedEvents),
  ("response_write_failures", ofU64 health.responseWriteFailures),
  ("exporter", health.exporter.toValue)]

def readExporter (fields : Fields) : Option ExporterHealth := do
  pure {
    queued := ← readField fields "queued" none asUInt64
    sent := ← readField fields "sent" none asUInt64
    retried := ← readField fields "retried" none asUInt64
    rejected := ← readField fields "rejected" none asUInt64
    dropped := ← readField fields "dropped" none asUInt64
    lastAcknowledgementUnixNanos :=
      ← readField fields "last_acknowledgement_unix_nanos" (some none) fun value =>
        (readOption value).map (Option.map UInt64.ofNat)
    spoolBytes := ← readField fields "spool_bytes" none asUInt64
    quarantined := ← readField fields "quarantined" none asUInt64
    persistenceFailures := ← readField fields "persistence_failures" none asUInt64 }

/-- The derived deserializer of `DaemonHealthV1`. -/
def readHealth (fields : Fields) : Option DaemonHealthV1 := do
  pure {
    state := ← readField fields "state" none Value.asString
    pid := ← readField fields "pid" none asUInt32
    heartbeatUnixNanos := ← readField fields "heartbeat_unix_nanos" none asUInt64
    socket := ← readField fields "socket" none Value.asString
    netlinkState := ← readField fields "netlink_state" none Value.asString
    droppedEvents := ← readField fields "dropped_events" none asUInt64
    responseWriteFailures := ← readField fields "response_write_failures" (some 0) asUInt64
    exporter := ← readField fields "exporter" none (asObject readExporter) }

theorem asUInt64_ofU64 (value : UInt64) : asUInt64 (ofU64 value) = some value := by
  rw [asUInt64, ofU64, asU64_ofNat value.toNat_lt, Option.map_some, UInt64.ofNat_toNat]

theorem asUInt32_ofNat (value : UInt32) : asUInt32 (ofNat value.toNat) = some value := by
  have small : value.toNat < 2 ^ 32 := value.toNat_lt
  rw [asUInt32, asU64_ofNat (small.trans (by decide))]
  simp only [if_pos small, UInt32.ofNat_toNat]

theorem read_exporter (exporter : ExporterHealth) :
    asObject readExporter exporter.toValue = some exporter := by
  have acknowledged : (readOption (ofOption
      (exporter.lastAcknowledgementUnixNanos.map UInt64.toNat))).map (Option.map UInt64.ofNat) =
        some exporter.lastAcknowledgementUnixNanos := by
    rw [readOption_ofOption]
    · cases exporter.lastAcknowledgementUnixNanos with
      | none => rfl
      | some nanos => simp
    · intro number present
      obtain ⟨nanos, -, rfl⟩ := Option.map_eq_some_iff.mp present
      exact nanos.toNat_lt
  rw [ExporterHealth.toValue, ofMembers, asObject, readExporter]
  simp (disch := simp) only [readField_members]
  simp [readField_cons, asUInt64_ofU64, acknowledged]

theorem read_health (health : DaemonHealthV1) :
    asObject readHealth health.toValue = some health := by
  rw [DaemonHealthV1.toValue, ofMembers, asObject, readHealth]
  simp (disch := simp) only [readField_members]
  simp [readField_cons, asUInt64_ofU64, asUInt32_ofNat, Value.asString, read_exporter]

theorem canonical_exporter (depth : Nat) (exporter : ExporterHealth) :
    exporter.toValue.canonical (depth + 1) = true := by
  have number (value : UInt64) : (ofU64 value).canonical depth = true :=
    canonical_ofNat depth value.toNat_lt
  have acknowledged : (ofOption (exporter.lastAcknowledgementUnixNanos.map UInt64.toNat)).canonical
      depth = true := by
    refine canonical_ofOption depth ?_
    intro value present
    obtain ⟨nanos, -, rfl⟩ := Option.map_eq_some_iff.mp present
    exact nanos.toNat_lt
  exact canonical_ofMembers (by simp [number, acknowledged])

theorem canonical_health (health : DaemonHealthV1) : health.toValue.canonical 127 = true := by
  have number (value : UInt64) : (ofU64 value).canonical 126 = true :=
    canonical_ofNat 126 value.toNat_lt
  have pid : (ofNat health.pid.toNat).canonical 126 = true :=
    canonical_ofNat 126 (health.pid.toNat_lt.trans (by decide))
  exact canonical_ofMembers (by simp [number, pid, canonical_exporter])

theorem mapFloats_health (change : UInt64 → UInt64) (health : DaemonHealthV1) :
    health.toValue.mapFloats change = health.toValue := by
  have number (value : Nat) : (ofNat value).mapFloats change = ofNat value := rfl
  have acknowledged (value : Option Nat) : (ofOption value).mapFloats change = ofOption value := by
    cases value <;> rfl
  have exporter : health.exporter.toValue.mapFloats change = health.exporter.toValue :=
    mapFloats_fieldsOfMembers (by simp [ofU64, number, acknowledged])
  exact mapFloats_fieldsOfMembers (by simp [ofU64, number, exporter, Value.mapFloats])

/-! ## The file -/

/-- A file with the time it was last written at, in nanoseconds. -/
structure Written where
  content : List UInt8
  modified : Int
  deriving DecidableEq, Repr

/-- The runtime directory and the daemon in it: `writing` is the report it writes and
what is left to write of it.  `placed` are the reports that were put in place. -/
structure Runtime where
  report : Option Written := none
  temporary : Option Written := none
  writing : Option (DaemonHealthV1 × List UInt8) := none
  placed : List DaemonHealthV1 := []
  deriving DecidableEq, Repr

/-- One operation of `write_health`, which may fail, or the end of the daemon in it.
A write takes as many bytes as the file system takes. -/
inductive Operation where
  | create (health : DaemonHealthV1) (now : Int) (succeeds : Bool)
  | write (count : Nat) (now : Int) (succeeds : Bool)
  | rename (succeeds : Bool)
  | stop

section Files

variable (floats : FloatText)

/-- The bytes of a report. -/
def encodeHealth (health : DaemonHealthV1) : List UInt8 :=
  bytesOf (String.ofList (compact floats escapeChar health.toValue))

def Runtime.write (runtime : Runtime) (count : Nat) (now : Int) (health : DaemonHealthV1)
    (rest : List UInt8) : Runtime :=
  match runtime.temporary with
  | some file =>
      { runtime with
        temporary := some { content := file.content ++ rest.take count, modified := now }
        writing := some (health, rest.drop count) }
  | none => { runtime with writing := none }

def Runtime.step (runtime : Runtime) : Operation → Runtime
  | .create health now succeeds =>
      match runtime.writing with
      | some _ => runtime
      | none =>
          if succeeds then
            { runtime with
              temporary := some { content := [], modified := now }
              writing := some (health, encodeHealth floats health) }
          else runtime
  | .write count now succeeds =>
      match runtime.writing with
      | some (health, rest) =>
          if succeeds then runtime.write count now health rest
          -- a failed write leaves the temporary file as far as it came
          else { runtime with writing := none }
      | none => runtime
  | .rename succeeds =>
      match runtime.writing with
      | some (health, []) =>
          if succeeds then
            { report := runtime.temporary
              temporary := none
              writing := none
              placed := runtime.placed ++ [health] }
          else { runtime with writing := none }
      | _ => runtime
  | .stop => { runtime with writing := none }

/-! ## The readers -/

structure HealthSnapshotV1 where
  health : DaemonHealthV1
  heartbeatAgeMs : Int
  fresh : Bool
  deriving DecidableEq, Repr

def second : Int := 1000000000

/-- `daemon_health::read`; `explain` is what `serde_json` says about a text it refuses.
Of a member that stands twice in a foreign file the last one is read. -/
def readReport (explain : List UInt8 → String) (report : Option Written) (now : Int) :
    AppResult HealthSnapshotV1 :=
  match report with
  | none => .error (.io "could not read daemon health")
  | some file =>
      match ((fromUtf8 file.content).bind fun text => parseText floats text.toList).bind
          (asObject readHealth) with
      | none => .error (.protocol ("malformed daemon health: " ++ explain file.content))
      | some health =>
          if now < file.modified then
            .error (.validation "daemon health timestamp is in the future")
          else
            .ok {
              health
              heartbeatAgeMs := (now - file.modified) / 1000000
              fresh := (now - file.modified) / second ≤ 3 }

/-! ## Reports are whole -/

/-- What is in place is the last report that was put there, and the temporary file is
the one being written as far as it came. -/
structure Whole (runtime : Runtime) : Prop where
  placed : match runtime.report with
    | none => runtime.placed = []
    | some file => ∃ earlier health, runtime.placed = earlier ++ [health] ∧
        file.content = encodeHealth floats health
  writing : ∀ health rest, runtime.writing = some (health, rest) →
    ∃ file, runtime.temporary = some file ∧ file.content ++ rest = encodeHealth floats health

variable {floats}

theorem whole_write {runtime : Runtime} (whole : Whole floats runtime) (count : Nat) (now : Int)
    {health : DaemonHealthV1} {rest : List UInt8} (writing : runtime.writing = some (health, rest)) :
    Whole floats (runtime.write count now health rest) := by
  obtain ⟨file, present, content⟩ := whole.writing health rest writing
  simp only [Runtime.write, present]
  refine ⟨whole.placed, ?_⟩
  intro other left same
  obtain ⟨rfl, rfl⟩ := Prod.mk.inj (Option.some.inj same)
  exact ⟨_, rfl, by rw [List.append_assoc, List.take_append_drop, content]⟩

theorem whole_idle {runtime : Runtime} (whole : Whole floats runtime) :
    Whole floats { runtime with writing := none } :=
  ⟨whole.placed, by simp⟩

theorem whole_step {runtime : Runtime} (whole : Whole floats runtime) (operation : Operation) :
    Whole floats (runtime.step floats operation) := by
  cases operation with
  | create health now succeeds =>
      cases writing : runtime.writing with
      | some busy =>
          simp only [Runtime.step, writing]
          exact whole
      | none =>
          simp only [Runtime.step, writing]
          split
          · refine ⟨whole.placed, ?_⟩
            intro other left same
            obtain ⟨rfl, rfl⟩ := Prod.mk.inj (Option.some.inj same)
            exact ⟨_, rfl, List.nil_append _⟩
          · exact whole
  | write count now succeeds =>
      cases writing : runtime.writing with
      | none =>
          simp only [Runtime.step, writing]
          exact whole
      | some busy =>
          obtain ⟨health, rest⟩ := busy
          simp only [Runtime.step, writing]
          split
          · exact whole_write whole count now writing
          · exact whole_idle whole
  | rename succeeds =>
      cases writing : runtime.writing with
      | none =>
          simp only [Runtime.step, writing]
          exact whole
      | some busy =>
          obtain ⟨health, rest⟩ := busy
          cases rest with
          | cons byte rest =>
              simp only [Runtime.step, writing]
              exact whole
          | nil =>
              simp only [Runtime.step, writing]
              split
              · obtain ⟨file, present, content⟩ := whole.writing health [] writing
                rw [List.append_nil] at content
                exact ⟨by rw [present]; exact ⟨_, health, rfl, content⟩, by simp⟩
              · exact whole_idle whole
  | stop => exact whole_idle whole

theorem whole_run (operations : List Operation) :
    Whole floats (Machine.run (Runtime.step floats) {} operations) :=
  Machine.run_invariant_always _ (Whole floats) (fun _ operation whole => whole_step whole operation)
    _ operations ⟨rfl, by simp⟩

theorem decode_encodeHealth (health : DaemonHealthV1) :
    ((fromUtf8 (encodeHealth floats health)).bind fun text => parseText floats text.toList).bind
      (asObject readHealth) = some health := by
  rw [encodeHealth, fromUtf8_bytesOf, Option.bind_some, String.toList_ofList,
    parseText_compact escapes_escapeChar _ (canonical_health health), mapFloats_health,
    Option.bind_some, read_health]

theorem readReport_encoded (explain : List UInt8 → String) {file : Written}
    {health : DaemonHealthV1} (content : file.content = encodeHealth floats health) (now : Int) :
    readReport floats explain (some file) now =
      if now < file.modified then .error (.validation "daemon health timestamp is in the future")
      else .ok {
        health
        heartbeatAgeMs := (now - file.modified) / 1000000
        fresh := (now - file.modified) / second ≤ 3 } := by
  simp only [readReport, content, decode_encodeHealth]

end Files

end SystemPilot.Daemon
