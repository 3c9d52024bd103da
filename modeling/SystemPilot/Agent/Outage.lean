import Mathlib.Tactic
import SystemPilot.Agent.SpoolLedger
import SystemPilot.Spool.Capacity

/-!
# Starting again after an outage

The daemon on a spool that earlier runs left, at any later time.  The statistics
scan behind `from_config` and `publish` refuses a spool with one record that is
too old, so what an outage lets age stops both.
-/

set_option autoImplicit false

namespace SystemPilot.Agent

open SystemPilot.Json
open SystemPilot.Library
open SystemPilot.Telemetry
open SystemPilot.Spool

/-- A later start of the daemon and a record it publishes, with a file system and an
HTTP client that work. -/
structure Comeback where
  parseUrl : String → Except String Unit
  processId : Nat
  startedAt : Nat
  kind : TelemetryKind
  payload : Value
  reservedAt : Nat
  observedAtUnixNanos : Nat
  appendedAt : Nat
  inspectedAt : Nat

namespace Comeback

def startup (later : Comeback) : Startup where
  parseUrl := later.parseUrl
  processId := later.processId
  moment := { clock := later.startedAt }

def moments (later : Comeback) : PublishMoments where
  reserve := { clock := later.reservedAt }
  observedAtUnixNanos := later.observedAtUnixNanos
  append := { clock := later.appendedAt }
  inspect := { clock := later.inspectedAt }

def spool (later : Comeback) (config : DistributedTelemetryConfig) : DiskSpool where
  maxBytes := config.exportPolicy.spoolMaxBytes
  maxAgeSecs := config.exportPolicy.spoolMaxAgeSeconds
  processId := later.processId

/-- The publisher an enabled configuration starts. -/
def publisher (later : Comeback) (config : DistributedTelemetryConfig) : TelemetryPublisher where
  sender := true
  nodeId := config.nodeId
  attributes := config.attributes
  spool := some (later.spool config)
  redaction := config.redaction

end Comeback

/-- The sequence a spool has counted to. -/
def countedTo (root : Directory String) : Nat :=
  (readSequence root).toOption.getD 0

section Conditions

variable {Bytes : Type} (codec : Codec Bytes)

/-- No record is older than the limit. -/
def Unexpired (maxAgeSecs clock : Nat) (records : Directory Bytes) : Prop :=
  ∀ (path : String) (file : StoredFile Bytes), isRecordName path = true →
    records[path]? = some file → clock - file.modified ≤ maxAgeSecs

namespace Comeback

variable (later : Comeback) (config : DistributedTelemetryConfig) (files : SpoolFiles Bytes)

/-- The record that is published next. -/
def record : TelemetryEnvelope :=
  (later.publisher config).envelope (countedTo files.root + 1) later.observedAtUnixNanos
    later.kind (redactValue config.redaction later.payload)

/-- It is one the agent may send, and fits the byte limit. -/
def Fits : Prop :=
  (later.record config files).Valid ∧
    totalBytes codec files.records + codec.len (codec.toVec (later.record config files)) ≤
      config.exportPolicy.spoolMaxBytes

/-- The daemon starts, and publishes a record that fits. -/
def Survives : Prop :=
  ∃ publisher, TelemetryPublisher.fromConfig codec later.startup config files = .ok publisher ∧
    (later.Fits codec config files →
      (publisher.publish codec later.moments files later.kind (.ok later.payload)).2 = .ok ())

/-- Nothing stands in the way of a record that fits: a sequence is left, no file of
an interrupted write bears the name of one of its own, and no record is too old. -/
structure Unhindered : Prop where
  sequence : countedTo files.root + 1 < 2 ^ 64
  counter : temporaryName later.processId sequenceName ∉ files.root
  record : temporaryName later.processId (recordName (countedTo files.root + 1)) ∉ files.records
  appended : Unexpired config.exportPolicy.spoolMaxAgeSeconds later.appendedAt files.records
  inspected : Unexpired config.exportPolicy.spoolMaxAgeSeconds later.inspectedAt files.records
  own : later.inspectedAt - later.appendedAt ≤ config.exportPolicy.spoolMaxAgeSeconds

/-- Export is off, or no record is too old at the start and nothing hinders one that
fits. -/
def Undisturbed : Prop :=
  config.enabled = true →
    Unexpired config.exportPolicy.spoolMaxAgeSeconds later.startedAt files.records ∧
      (later.Fits codec config files → later.Unhindered config files)

end Comeback

end Conditions

/-! ## The statistics scan -/

section Scan

variable {Bytes : Type} (codec : Codec Bytes) (spool : DiskSpool)

theorem statsLoop_ok_iff (clock : Nat) (records : Directory Bytes) (paths : List String)
    (counted : SpoolStats) :
    (∃ total, statsLoop codec spool clock records paths counted = .ok total) ↔
      ∀ path ∈ paths, ∃ file, records[path]? = some file ∧
        clock - file.modified ≤ spool.maxAgeSecs := by
  induction paths generalizing counted with
  | nil => simp [statsLoop]
  | cons path rest inductionHypothesis =>
      rw [List.forall_mem_cons, statsLoop]
      cases found : records[path]? with
      | none => simp
      | some file =>
          dsimp only
          by_cases expired : clock - file.modified > spool.maxAgeSecs
          · rw [if_pos expired]
            constructor
            · rintro ⟨total, impossible⟩
              contradiction
            · rintro ⟨⟨other, same, young⟩, -⟩
              cases same
              omega
          · rw [if_neg expired, inductionHypothesis]
            constructor
            · intro young
              exact ⟨⟨file, rfl, not_lt.mp expired⟩, young⟩
            · exact And.right

/-- The scan succeeds exactly when no record is too old. -/
theorem stats_ok_iff (clock : Nat) (files : SpoolFiles Bytes) :
    (∃ total, stats codec spool {} clock files = .ok total) ↔
      Unexpired spool.maxAgeSecs clock files.records := by
  have loop := statsLoop_ok_iff codec spool clock files.records (recordPaths files.records) ⟨0, 0, 0⟩
  have whole : (∃ total, stats codec spool {} clock files = .ok total) ↔
      ∃ total, statsLoop codec spool clock files.records (recordPaths files.records) ⟨0, 0, 0⟩ =
        .ok total := by
    unfold stats
    cases statsLoop codec spool clock files.records (recordPaths files.records) ⟨0, 0, 0⟩ with
    | error failure => simp [bind, Except.bind]
    | ok total => simp [bind, Except.bind, pure, Except.pure]
  rw [whole, loop]
  constructor
  · intro young path file named found
    obtain ⟨other, same, limit⟩ := young path ((mem_recordPaths _ _).mpr ⟨named, file, found⟩)
    rw [found] at same
    cases same
    exact limit
  · intro unexpired path listed
    obtain ⟨named, file, found⟩ := (mem_recordPaths _ _).mp listed
    exact ⟨file, found, unexpired path file named found⟩

theorem unexpired_insert {records : Directory Bytes} {name : String} (file : StoredFile Bytes)
    (maxAgeSecs clock : Nat) (named : isRecordName name = true) (fresh : records[name]? = none) :
    Unexpired maxAgeSecs clock (records.insert name file) ↔
      Unexpired maxAgeSecs clock records ∧ clock - file.modified ≤ maxAgeSecs := by
  constructor
  · intro unexpired
    refine ⟨?_, unexpired name file named (by rw [SortedMap.getElem?_insert, if_pos rfl])⟩
    intro path other listed found
    refine unexpired path other listed ?_
    rw [SortedMap.getElem?_insert_of_ne]
    · exact found
    · rintro rfl
      rw [fresh] at found
      contradiction
  · rintro ⟨unexpired, young⟩ path other listed found
    rw [SortedMap.getElem?_insert] at found
    split at found
    · cases found
      exact young
    · exact unexpired path other listed found

end Scan

/-! ## Publishing -/

section Publishing

variable {Bytes : Type} (codec : Codec Bytes) {publisher : TelemetryPublisher} {spool : DiskSpool}

/-- `publish` succeeds when its three locked operations do. -/
theorem publish_ok_iff (wired : publisher.sender = true) (opened : publisher.spool = some spool)
    (moments : PublishMoments) {files : SpoolFiles Bytes} (kind : TelemetryKind) (payload : Value)
    {current : Nat} (counter : readSequence files.root = .ok current) :
    let reserved := { files with
      root := files.root.insert sequenceName ⟨Nat.repr (current + 1), moments.reserve.clock⟩ }
    let appended := append codec spool moments.append.faults moments.append.clock reserved
      (publisher.envelope (current + 1) moments.observedAtUnixNanos kind
        (redactValue publisher.redaction payload))
    (publisher.publish codec moments files kind (.ok payload)).2 = .ok () ↔
      (∃ next, (nextSequence spool moments.reserve.faults moments.reserve.clock files).2 =
        .ok next) ∧ appended.2 = .ok () ∧
          ∃ total, stats codec spool moments.inspect.faults moments.inspect.clock appended.1 =
            .ok total := by
  intro reserved appended
  unfold TelemetryPublisher.publish TelemetryPublisher.reserve
  rw [if_neg (by rw [wired]; exact Bool.noConfusion), opened]
  dsimp only
  rcases nextSequence_cases spool moments.reserve.faults moments.reserve.clock files with
    ⟨counted, same, bound, exact_⟩ | ⟨failed, -⟩
  · rw [counter] at same
    cases same
    rw [exact_]
    dsimp only
    rw [and_iff_right ⟨_, rfl⟩]
    cases outcome : appended with
    | mk after result =>
        have written : append codec spool moments.append.faults moments.append.clock reserved
            (publisher.envelope (current + 1) moments.observedAtUnixNanos kind
              (redactValue publisher.redaction payload)) = (after, result) := outcome
        rw [written]
        cases result with
        | error failure => simp
        | crash => simp
        | ok done =>
            dsimp only
            cases stats codec spool moments.inspect.faults moments.inspect.clock after with
            | error failure => simp
            | ok total => simp
  · constructor
    · intro done
      exfalso
      revert done failed
      cases outcome : nextSequence spool moments.reserve.faults moments.reserve.clock files with
      | mk after result =>
          cases result with
          | ok next =>
              intro failed
              exact absurd rfl (failed next)
          | error failure => simp
          | crash => simp
    · rintro ⟨⟨next, reserves⟩, -⟩
      exact absurd reserves (failed next)

end Publishing

/-! ## The daemon -/

section Daemon

variable {Bytes : Type} (codec : Codec Bytes) {later : Comeback}
variable {config : DistributedTelemetryConfig} {files : SpoolFiles Bytes}

theorem fromConfig_disabled (valid : config.validate later.parseUrl = .ok ())
    (off : config.enabled = false) :
    TelemetryPublisher.fromConfig codec later.startup config files = .ok .disabled := by
  unfold TelemetryPublisher.fromConfig
  rw [show later.startup.parseUrl = later.parseUrl from rfl, valid, off]
  rfl

/-- An enabled daemon starts when the scan succeeds. -/
theorem fromConfig_enabled (valid : config.validate later.parseUrl = .ok ())
    (on : config.enabled = true) (publisher : TelemetryPublisher) :
    TelemetryPublisher.fromConfig codec later.startup config files = .ok publisher ↔
      Unexpired config.exportPolicy.spoolMaxAgeSeconds later.startedAt files.records ∧
        publisher = later.publisher config := by
  have policy := (DistributedTelemetryConfig.validate_ok later.parseUrl config valid).1
  have opened : openSpool {} config.exportPolicy.spoolMaxBytes
      config.exportPolicy.spoolMaxAgeSeconds later.processId = .ok (later.spool config) := by
    unfold openSpool
    rw [if_neg (not_or.mpr ⟨policy.spoolBytes, policy.spoolAge⟩)]
    rfl
  rw [show config.exportPolicy.spoolMaxAgeSeconds = (later.spool config).maxAgeSecs from rfl,
    ← stats_ok_iff codec (later.spool config)]
  unfold TelemetryPublisher.fromConfig
  rw [show later.startup.parseUrl = later.parseUrl from rfl, valid, on]
  change (openSpool {} config.exportPolicy.spoolMaxBytes config.exportPolicy.spoolMaxAgeSeconds
    later.processId >>= fun spool => stats codec spool {} later.startedAt files >>= _) = _ ↔ _
  rw [opened]
  change (stats codec (later.spool config) {} later.startedAt files >>= _) = _ ↔ _
  cases stats codec (later.spool config) {} later.startedAt files with
  | error failure => simp [bind, Except.bind]
  | ok total =>
      constructor
      · intro started
        cases started
        exact ⟨⟨total, rfl⟩, rfl⟩
      · rintro ⟨-, rfl⟩
        rfl

/-- A record that fits is appended when the scan succeeds and its file can be written. -/
theorem append_fitting_iff (spool : DiskSpool) (clock : Nat) {envelope : TelemetryEnvelope}
    (valid : envelope.Valid)
    (room : totalBytes codec files.records + codec.len (codec.toVec envelope) ≤ spool.maxBytes)
    (fresh : files.records[recordName envelope.sequence]? = none) :
    (append codec spool {} clock files envelope).2 = .ok () ↔
      Unexpired spool.maxAgeSecs clock files.records ∧
        temporaryName spool.processId (recordName envelope.sequence) ∉ files.records := by
  have free : recordName envelope.sequence ∉ files.records := by simpa using fresh
  rw [append_ok_iff, ← stats_ok_iff codec spool]
  constructor
  · rintro ⟨-, ⟨held, inTime, -⟩, -, -, vacant⟩
    exact ⟨⟨held, inTime⟩, vacant⟩
  · rintro ⟨⟨held, inTime⟩, vacant⟩
    have bytes : held.bytes = min (totalBytes codec files.records) counterLimit := by
      have scanned := inTime
      rw [← inspect_plain] at scanned
      exact inspect_bytes codec spool scanned
    have fitting : saturatingAdd held.bytes (codec.len (codec.toVec envelope)) ≤
        spool.maxBytes := by
      rw [bytes, saturatingAdd_saturated]
      exact (Nat.min_le_left _ _).trans room
    exact ⟨valid, ⟨held, inTime, fitting⟩, free, rfl, vacant⟩

/-- The scan behind an append sees the new record too. -/
theorem stats_appended_iff {spool : DiskSpool} {clock : Nat} {envelope : TelemetryEnvelope}
    (appended : (append codec spool {} clock files envelope).2 = .ok ()) (inspectedAt : Nat) :
    (∃ total, stats codec spool {} inspectedAt (append codec spool {} clock files envelope).1 =
      .ok total) ↔
        Unexpired spool.maxAgeSecs inspectedAt files.records ∧
          inspectedAt - clock ≤ spool.maxAgeSecs := by
  rcases append_cases codec spool {} clock files envelope with ⟨-, fresh, written⟩ | ⟨failed, -⟩
  · rw [written, stats_ok_iff]
    exact unexpired_insert _ _ _ (isRecordName_recordName _) fresh
  · exact absurd appended failed

/-- With the counter read and its name free, a record that fits is published exactly
when nothing hinders it. -/
theorem publish_unhindered_iff {current : Nat} (counter : readSequence files.root = .ok current)
    (fresh : files.records[recordName (current + 1)]? = none)
    (fits : later.Fits codec config files) :
    ((later.publisher config).publish codec later.moments files later.kind
        (.ok later.payload)).2 = .ok () ↔ later.Unhindered config files := by
  have counted : countedTo files.root = current := by
    unfold countedTo
    rw [counter]
    rfl
  obtain ⟨valid, room⟩ := fits
  unfold Comeback.record at valid room
  rw [counted] at valid room
  let envelope := (later.publisher config).envelope (current + 1) later.observedAtUnixNanos
    later.kind (redactValue config.redaction later.payload)
  let reserved : SpoolFiles Bytes := { files with
    root := files.root.insert sequenceName ⟨Nat.repr (current + 1), later.reservedAt⟩ }
  have publishes : ((later.publisher config).publish codec later.moments files later.kind
      (.ok later.payload)).2 = .ok () ↔
        (∃ next, (nextSequence (later.spool config) {} later.reservedAt files).2 = .ok next) ∧
          (append codec (later.spool config) {} later.appendedAt reserved envelope).2 = .ok () ∧
            ∃ total, stats codec (later.spool config) {} later.inspectedAt
              (append codec (later.spool config) {} later.appendedAt reserved envelope).1 =
                .ok total :=
    publish_ok_iff codec rfl rfl later.moments later.kind later.payload counter
  have appends : (append codec (later.spool config) {} later.appendedAt reserved envelope).2 =
      .ok () ↔ Unexpired config.exportPolicy.spoolMaxAgeSeconds later.appendedAt files.records ∧
        temporaryName later.processId (recordName (current + 1)) ∉ files.records :=
    append_fitting_iff codec (later.spool config) later.appendedAt valid room fresh
  rw [publishes, nextSequence_ok_iff]
  constructor
  · rintro ⟨⟨-, -, clear, other, same, bound⟩, appended, inspected⟩
    rw [counter] at same
    cases same
    obtain ⟨unexpired, vacant⟩ := appends.mp appended
    obtain ⟨inspects, own⟩ := (stats_appended_iff codec appended _).mp inspected
    refine ⟨?_, clear, ?_, unexpired, inspects, own⟩
    · rw [counted]
      exact bound
    · rw [counted]
      exact vacant
  · intro unhindered
    have bound := unhindered.sequence
    have vacant := unhindered.record
    rw [counted] at bound vacant
    have appended := appends.mpr ⟨unhindered.appended, vacant⟩
    exact ⟨⟨rfl, rfl, unhindered.counter, current, counter, bound⟩, appended,
      (stats_appended_iff codec appended _).mpr ⟨unhindered.inspected, unhindered.own⟩⟩

end Daemon

/-! ## Every spool that runs leave -/

section Runs

variable {Bytes : Type} {codec : Codec Bytes}

/-- The name of the next record is free. -/
theorem Accounted.next_fresh {ledger : Ledger Bytes} (accounted : Accounted codec ledger)
    {current : Nat} (counter : readSequence ledger.agent.files.root = .ok current) :
    ledger.agent.files.records[recordName (current + 1)]? = none := by
  obtain ⟨same, read, bound⟩ := accounted.counter
  rw [counter] at read
  cases read
  by_contra present
  obtain ⟨file, found⟩ := Option.ne_none_iff_exists'.mp present
  obtain ⟨record, member, named, -⟩ :=
    accounted.recorded _ file (isRecordName_recordName _) found
  have below := bound record (List.mem_append_right _ member)
  have sequence := recordName_injective named
  omega

/-- Over every run of publishing threads and worker, with any fault and crash: the
daemon starts again on the spool at any later time, and publishes a record that
fits, exactly when no record grew too old and no interrupted write is in the way. -/
theorem outage_survived_iff (identity : KeepsIdentity codec) (events : List AgentEvent)
    (config : DistributedTelemetryConfig) (later : Comeback)
    (valid : config.validate later.parseUrl = .ok ()) :
    let files := (Machine.run (ledgerStep codec) {} events).agent.files
    later.Survives codec config files ↔ later.Undisturbed codec config files := by
  intro files
  have accounted := run_accounted identity events
  obtain ⟨current, counter, -⟩ := accounted.counter
  have fresh := accounted.next_fresh counter
  unfold Comeback.Survives Comeback.Undisturbed
  by_cases on : config.enabled = true
  · constructor
    · rintro ⟨publisher, started, publishes⟩ -
      obtain ⟨unexpired, rfl⟩ := (fromConfig_enabled codec valid on publisher).mp started
      refine ⟨unexpired, fun fits => ?_⟩
      exact (publish_unhindered_iff codec counter fresh fits).mp (publishes fits)
    · intro undisturbed
      obtain ⟨unexpired, unhindered⟩ := undisturbed on
      refine ⟨later.publisher config,
        (fromConfig_enabled codec valid on _).mpr ⟨unexpired, rfl⟩, fun fits => ?_⟩
      exact (publish_unhindered_iff codec counter fresh fits).mpr (unhindered fits)
  · refine iff_of_true ⟨.disabled, ?_, fun _ => rfl⟩ fun enabled => absurd enabled on
    exact fromConfig_disabled codec valid (by simpa using on)

end Runs

/-- The process of `plainStartup` starts again so many seconds after its first record. -/
def plainComeback (seconds : Nat) : Comeback where
  parseUrl _ := .ok ()
  processId := 7
  startedAt := 1700000000 + seconds
  kind := .health
  payload := .bool true
  reservedAt := 1700000000 + seconds
  observedAtUnixNanos := 1700000000000000000 + seconds
  appendedAt := 1700000000 + seconds
  inspectedAt := 1700000000 + seconds

/-- A spool with one record that was never delivered. -/
def undeliveredFiles : SpoolFiles TelemetryEnvelope :=
  (Machine.run (ledgerStep plainCodec) {} (deliveredEvents.take 3)).agent.files

theorem undelivered_unexpired :
    Unexpired (7 * 24 * 60 * 60) (1700000000 + 3600) undeliveredFiles.records :=
  (stats_ok_iff plainCodec ⟨512 * 1024 * 1024, 7 * 24 * 60 * 60, 7⟩ (1700000000 + 3600)
    undeliveredFiles).mp ⟨⟨1, 1, 0⟩, by decide +kernel⟩

theorem outage_survived_iff_hour :
    (plainComeback 3600).Survives plainCodec (plainConfig "nodea") undeliveredFiles :=
  (outage_survived_iff (.of_faithful plainCodec_faithful) (deliveredEvents.take 3)
    (plainConfig "nodea") (plainComeback 3600) rfl).mpr (by
      intro _
      refine ⟨undelivered_unexpired, fun _ => ?_⟩
      refine ⟨by decide +kernel, by decide +kernel, by decide +kernel, undelivered_unexpired,
        undelivered_unexpired, by decide +kernel⟩)

/-- A record that was not delivered for longer than the limit stops the daemon, and
the publisher of one that is still running. -/
theorem expired_record_stops_the_daemon :
    (plainConfig "nodea").validate (plainComeback 604801).parseUrl = .ok () ∧
      TelemetryPublisher.fromConfig plainCodec (plainComeback 604801).startup
          (plainConfig "nodea") undeliveredFiles =
        .error (.protocol ("telemetry spool contains expired record " ++
          "00000000000000000001.json; operator action required")) ∧
      (((plainComeback 604801).publisher (plainConfig "nodea")).publish plainCodec
          (plainComeback 604801).moments undeliveredFiles .health (.ok (.bool true))).2 =
        .error (.protocol ("telemetry spool contains expired record " ++
          "00000000000000000001.json; operator action required")) ∧
      ¬(plainComeback 604801).Survives plainCodec (plainConfig "nodea") undeliveredFiles := by
  have refused : TelemetryPublisher.fromConfig plainCodec (plainComeback 604801).startup
      (plainConfig "nodea") undeliveredFiles =
        .error (.protocol ("telemetry spool contains expired record " ++
          "00000000000000000001.json; operator action required")) := by
    decide +kernel
  refine ⟨rfl, refused, by decide +kernel, ?_⟩
  rintro ⟨publisher, started, -⟩
  rw [refused] at started
  contradiction

end SystemPilot.Agent
