import SystemPilot.Configuration.Loading
import SystemPilot.Daemon.Health

/-!
# The doctor

`syspilot doctor` loads the configuration to start, loads it again to look at it, probes
the host and reads the report of the daemon.  Its exit code is said exactly, and what it
says about a daemon over any run of that daemon.
-/

set_option autoImplicit false

namespace SystemPilot.Daemon

open SystemPilot.Library
open SystemPilot.Library.CrashFiles
open SystemPilot.Text
open SystemPilot.Json
open SystemPilot.Telemetry
open SystemPilot.Configuration

/-! ## Reports of the command line -/

inductive Outcome where
  | ok
  | degraded
  | error
  deriving DecidableEq, Repr

def Outcome.exitCode : Outcome → Nat
  | .ok => 0
  | .error => 1
  | .degraded => 2

inductive CapabilityState where
  | available
  | degraded
  | unavailable
  | misconfigured
  deriving DecidableEq, Repr

structure DiagnosticV1 where
  component : String
  state : CapabilityState
  detail : String
  impact : String
  recoveryCommand : Option String
  fallbackUsed : Option String
  deriving DecidableEq, Repr

structure OutputEnvelopeV1 (α : Type) where
  schemaVersion : Nat
  command : String
  generatedAtUnixNanos : UInt64
  outcome : Outcome
  data : α
  diagnostics : List DiagnosticV1

/-- What `SystemTimeError` says. -/
def laterThanSelf : String := "second time provided was later than self"

/-- `now` is in nanoseconds from the Unix epoch. -/
def OutputEnvelopeV1.new {α : Type} (command : String) (outcome : Outcome) (data : α)
    (diagnostics : List DiagnosticV1) (now : Int) : AppResult (OutputEnvelopeV1 α) :=
  if now < 0 then .error (.validation ("system clock precedes Unix epoch: " ++ laterThanSelf))
  else .ok {
    schemaVersion := 1
    command
    generatedAtUnixNanos := UInt64.ofNat now.toNat
    outcome
    data
    diagnostics }

/-- The text of an error, without what the system adds to it. -/
def errorText : ConfigError → String
  | .app (.io context) => context
  | .app (.validation message) => message
  | .app (.protocol message) => message
  | .configParse path => "invalid configuration at " ++ path

def diagnostic (component : String) (state : CapabilityState) (detail impact : String)
    (recovery : Option String) : DiagnosticV1 where
  component
  state
  detail
  impact
  recoveryCommand := recovery
  fallbackUsed := none

/-! ## The checks -/

/-- What the host answered to the probe of the home directory. -/
inductive StorageProbe where
  | noDirectory (error : String)
  | notCreated (error : String)
  | notRemoved (error : String)
  | writable
  deriving DecidableEq, Repr

def storageCheck (directory : String) : StorageProbe → DiagnosticV1
  | .noDirectory error => diagnostic "storage" .unavailable error
      "configuration, cases, spool, and support artifacts cannot be written"
      (some "check the SysPilot home directory ownership and free space")
  | .notCreated error => diagnostic "storage" .unavailable error
      "persistent local operation is unavailable"
      (some "check the SysPilot home directory ownership and free space")
  | .notRemoved error => diagnostic "storage" .degraded
      ("write succeeded but probe cleanup failed: " ++ error) "temporary probe remains on disk"
      (some "remove the reported .doctor-* file after checking ownership")
  | .writable => diagnostic "storage" .available (directory ++ " is writable") "none" none

/-- `CredentialResolver::status`: the kind of a reference and whether it resolves. -/
def credentialStatus (environment : Environment) (files : Files) (reference : CredentialRef) :
    String × Bool :=
  (match reference with
    | .none => "none"
    | .environment _ => "environment"
    | .file _ => "file"
    | .systemd _ => "systemd",
   match resolve environment files reference with
    | .ok (some _) => true
    | _ => false)

def credentialDetail (provider model : String) (status : String × Bool) : String :=
  "optional " ++ provider ++ " provider, model " ++ model ++ "; credential source=" ++ status.1 ++
    " available=" ++ toString status.2

/-- Whether the active provider is configured, and what is said about it. -/
def aiAnswer (environment : Environment) (files : Files) (config : Config) : Bool × String :=
  if config.activeProvider = "disabled" then
    (true, "AI explicitly disabled; offline diagnostics remain active")
  else if config.activeProvider = "ollama" then
    (true, "optional Ollama provider at " ++ config.ollamaUrl)
  else if config.activeProvider = "gemini" then
    (config.geminiApiKey ≠ "", credentialDetail "Gemini" config.geminiModel
      (credentialStatus environment files config.geminiCredential))
  else if config.activeProvider = "syspilot" then
    (config.syspilotApiKey ≠ "", credentialDetail "SysPilot" config.syspilotModel
      (credentialStatus environment files config.syspilotCredential))
  else (false, "unknown provider " ++ config.activeProvider)

def aiCheck (environment : Environment) (files : Files) (config : Config) : DiagnosticV1 :=
  let answer := aiAnswer environment files config
  if answer.1 then diagnostic "ai" .available answer.2 "none" none
  else diagnostic "ai" .degraded answer.2
    "AI explanations are unavailable; offline diagnostics remain available"
    (some "syspilot config set-key <provider>")

def exportCheck (parseUrl : UrlParser) (telemetry : TelemetrySettings) : DiagnosticV1 :=
  if telemetry.enabled = false then
    diagnostic "telemetry_export" .available "disabled by explicit default"
      "fleet delivery is inactive; local diagnostics remain available"
      (some "syspilot config telemetry enable <endpoint> <node-id>")
  else match telemetry.validate (fun text => (parseUrl text).map fun _ => ()) with
    | .ok () => diagnostic "telemetry_export" .available
        ("enabled for " ++ telemetry.endpoint ++ " as node " ++ telemetry.nodeId ++
          "; connectivity not tested") "none" none
    | .error failure => diagnostic "telemetry_export" .misconfigured (errorText (.app failure))
        "telemetry cannot be delivered" (some "syspilot config telemetry show")

/-- The report as the doctor reads it. -/
structure DaemonHealth where
  state : String
  netlinkState : String := ""
  droppedEvents : UInt64 := 0
  droppedTelemetry : UInt64 := 0
  exporter : Option Value := none
  deriving DecidableEq

def readDaemonHealth (fields : Fields) : Option DaemonHealth := do
  pure {
    state := ← readField fields "state" none Value.asString
    netlinkState := ← readField fields "netlink_state" (some "") Value.asString
    droppedEvents := ← readField fields "dropped_events" (some 0) asUInt64
    droppedTelemetry := ← readField fields "dropped_telemetry" (some 0) asUInt64
    exporter := ← readField fields "exporter" (some none) fun value =>
      some (match value with
        | .null => none
        | given => some given) }

/-- `exporter["dropped"].as_u64()`, or the count of an older report. -/
def DaemonHealth.dropped (health : DaemonHealth) : Nat :=
  (match health.exporter with
    | some (.object exporter) => (Fields.get exporter "dropped").bind Value.asU64
    | _ => none).getD health.droppedTelemetry.toNat

/-- What a host answers to the doctor. -/
structure Host where
  linux : Bool
  os : String
  procfs : Bool
  storage : StorageProbe
  environment : Environment
  report : Except String (List UInt8)
  modified : Except String Int
  now : Int
  finished : Int
  version : String
  buildCommit : String

section Doctor

variable {floats : FloatText}

/-- The report in these bytes, when they are one. -/
def parseDaemonHealth (floats : FloatText) (text : String) : Option DaemonHealth :=
  (parseText floats text.toList).bind (asObject readDaemonHealth)

/-- What the doctor says about a report of this age; `age` is none when the file has no time. -/
def ageCheck (health : DaemonHealth) (modified : Except String Int) (now : Int) : DiagnosticV1 :=
  match modified with
  | .error error => diagnostic "daemon" .degraded ("health metadata unavailable: " ++ error)
      "freshness cannot be established" (some "check runtime directory permissions")
  | .ok modified =>
      if now < modified then
        diagnostic "daemon" .degraded ("heartbeat timestamp is in the future: " ++ laterThanSelf)
          "freshness cannot be established"
          (some "synchronize the host clock and restart the daemon")
      else
        let detail := "state=" ++ health.state ++ ", netlink=" ++
          (if health.netlinkState = "" then "unknown" else health.netlinkState) ++
          ", dropped_events=" ++ Nat.repr health.droppedEvents.toNat ++
          ", dropped_telemetry=" ++ Nat.repr health.dropped ++
          ", heartbeat_age=" ++ Nat.repr ((now - modified) / 1000000).toNat ++ "ms"
        if now - modified ≤ 3 * second ∧ health.state = "ready" then
          diagnostic "daemon" .available detail "none" none
        else
          diagnostic "daemon" .degraded detail "live lifecycle evidence may be stale or incomplete"
            (some "syspilot status")

/-- `explain` is what `serde_json` says about a text it refuses. -/
def daemonCheck (floats : FloatText) (explain : String → String)
    (report : Except String (List UInt8)) (modified : Except String Int) (now : Int) :
    DiagnosticV1 :=
  let unread := fun error => diagnostic "daemon" .unavailable error
    "live lifecycle events are unavailable; direct procfs diagnostics remain available"
    (some "syspilot daemon")
  match report with
  | .error error => unread error
  | .ok bytes =>
      match fromUtf8 bytes with
      | none => unread "stream did not contain valid UTF-8"
      | some text =>
          match parseDaemonHealth floats text with
          | none => diagnostic "daemon" .misconfigured
              ("malformed health report: " ++ explain text)
              "daemon state cannot be trusted" (some "restart the SysPilot daemon")
          | some health => ageCheck health modified now

/-- The backup a migration leaves, when there is one. -/
def backupCheck (directory : String) (files : Files) : List DiagnosticV1 :=
  match files[joinPath directory preV2Backup]? with
  | none => []
  | some backup =>
      let secure : Bool := backup.mode &&& 0o077 = 0
      [diagnostic "legacy_secret_backup" (if secure then .degraded else .misconfigured)
        (joinPath directory preV2Backup ++
          " exists; it may contain legacy serialized credentials; owner_only=" ++ toString secure)
        "rollback evidence must be protected and may contain secrets"
        (some "after the rollback window, archive securely or remove config.pre-v2.json")]

def hostCheck (component : String) (present : Bool) (detail impact : String)
    (recovery : Option String) : DiagnosticV1 :=
  diagnostic component (if present then .available else .unavailable) detail impact recovery

/-- The checks of a configuration that was loaded, or the error of the load. -/
def configurationChecks (parseUrl : UrlParser) (environment : Environment) (files : Files) :
    Except ConfigError Config → List DiagnosticV1
  | .ok config => [
      diagnostic "configuration" .available "schema and values are valid" "none" none,
      aiCheck environment files config,
      exportCheck parseUrl config.distributedTelemetry]
  | .error failure => [
      diagnostic "configuration" .misconfigured (errorText failure)
        "commands requiring configuration cannot start" (some "syspilot config rollback")]

def Host.diagnostics (host : Host) (floats : FloatText) (explain : String → String)
    (parseUrl : UrlParser) (directory : String) (files : Files)
    (loaded : Except ConfigError Config) : List DiagnosticV1 :=
  [hostCheck "platform" host.linux host.os "Linux diagnostics require Linux" none,
    hostCheck "procfs" host.procfs "/proc capability probe"
      "process and system evidence is unavailable" (some "mount procfs at /proc"),
    storageCheck directory host.storage] ++
  configurationChecks parseUrl host.environment files loaded ++
  backupCheck directory files ++
  [daemonCheck floats explain host.report host.modified host.now]

/-- A diagnostic that makes the whole report an error. -/
def DiagnosticV1.fatal (item : DiagnosticV1) : Bool :=
  item.state = .misconfigured ||
    (item.component ∈ ["platform", "procfs", "storage"] && item.state = .unavailable)

def verdict (diagnostics : List DiagnosticV1) : Outcome :=
  if diagnostics.any DiagnosticV1.fatal then .error
  else if diagnostics.any fun item => item.state ≠ .available then .degraded
  else .ok

structure DoctorDataV1 where
  version : String
  buildCommit : String
  deriving DecidableEq, Repr

/-- A program whose error is looked at. -/
def caught {ε ε' α : Type} (program : Program ε α) : Program ε' (Except ε α) := fun process disk =>
  match program process disk with
  | (disk, .ok value) => (disk, .ok (.ok value))
  | (disk, .error failure) => (disk, .ok (.error failure))
  | (disk, .crash) => (disk, .crash)

variable (codec : ConfigCodec floats) (parseUrl : UrlParser) (explain : String → String)
  (directory : String) (host : Host)

def collect : Program ConfigError (AppResult (OutputEnvelopeV1 DoctorDataV1)) := do
  let loaded ← caught (loadChecked codec parseUrl directory host.environment)
  let files ← Program.present
  let diagnostics := host.diagnostics floats explain parseUrl directory files loaded
  pure (OutputEnvelopeV1.new "doctor" (verdict diagnostics)
    { version := host.version, buildCommit := host.buildCommit } diagnostics host.finished)

/-- `syspilot doctor`: like every command it loads the configuration first. -/
def doctorCommand : Program ConfigError (AppResult (OutputEnvelopeV1 DoctorDataV1)) := do
  let _ ← loadChecked codec parseUrl directory host.environment
  collect codec parseUrl explain directory host

/-- The code `main` exits with. -/
def exitCode : Ending ConfigError (AppResult (OutputEnvelopeV1 DoctorDataV1)) → Option Nat
  | .ok (.ok report) => some report.outcome.exitCode
  | .ok (.error _) => some 1
  | .error _ => some 1
  | .crash => none

end Doctor

/-! ## One check -/

theorem verdict_error_iff {diagnostics : List DiagnosticV1} :
    verdict diagnostics = .error ↔ ∃ item ∈ diagnostics, item.fatal = true := by
  unfold verdict
  by_cases fatal : diagnostics.any DiagnosticV1.fatal = true
  · rw [if_pos fatal]
    exact iff_of_true rfl (List.any_eq_true.mp fatal)
  · rw [if_neg fatal]
    refine iff_of_false ?_ (mt List.any_eq_true.mpr fatal)
    split <;> simp

theorem not_fatal_of_available {item : DiagnosticV1} (available : item.state = .available) :
    item.fatal = false := by
  simp [DiagnosticV1.fatal, available]

theorem verdict_ok_iff {diagnostics : List DiagnosticV1} :
    verdict diagnostics = .ok ↔ ∀ item ∈ diagnostics, item.state = .available := by
  constructor
  · intro fine item member
    unfold verdict at fine
    split at fine
    · cases fine
    · split at fine
      · cases fine
      · rename_i sound
        by_contra faulty
        exact sound (List.any_eq_true.mpr ⟨item, member, by simpa using faulty⟩)
  · intro available
    have harmless : ¬ diagnostics.any DiagnosticV1.fatal = true := by
      intro fatal
      obtain ⟨item, member, found⟩ := List.any_eq_true.mp fatal
      rw [not_fatal_of_available (available item member)] at found
      cases found
    have sound : ¬ (diagnostics.any fun item => item.state ≠ .available) = true := by
      intro faulty
      obtain ⟨item, member, found⟩ := List.any_eq_true.mp faulty
      simp [available item member] at found
    rw [verdict, if_neg harmless, if_neg sound]

/-- The probe could not write in the home directory. -/
def StorageProbe.Fails : StorageProbe → Prop
  | .noDirectory _ | .notCreated _ => True
  | .notRemoved _ | .writable => False

theorem storageCheck_fatal_iff {directory : String} {probe : StorageProbe} :
    (storageCheck directory probe).fatal = true ↔ probe.Fails := by
  cases probe <;> simp [storageCheck, diagnostic, DiagnosticV1.fatal, StorageProbe.Fails]

theorem storageCheck_available_iff {directory : String} {probe : StorageProbe} :
    (storageCheck directory probe).state = .available ↔ probe = .writable := by
  cases probe <;> simp [storageCheck, diagnostic]

theorem hostCheck_available_iff {component detail impact : String} {present : Bool}
    {recovery : Option String} :
    (hostCheck component present detail impact recovery).state = .available ↔ present = true := by
  cases present <;> simp [hostCheck, diagnostic]

theorem hostCheck_fatal_iff {component detail impact : String} {present : Bool}
    {recovery : Option String} (essential : component ∈ ["platform", "procfs", "storage"]) :
    (hostCheck component present detail impact recovery).fatal = true ↔ present = false := by
  cases present <;> simp [hostCheck, diagnostic, DiagnosticV1.fatal, essential]

/-- The active provider has the key it needs. -/
def Keyed (config : Config) : Prop :=
  (config.activeProvider = "gemini" → config.geminiApiKey ≠ "") ∧
    (config.activeProvider = "syspilot" → config.syspilotApiKey ≠ "")

section Configured

variable {parseUrl : UrlParser} {environment : Environment} {files : Files} {config : Config}

theorem aiCheck_harmless : (aiCheck environment files config).fatal = false := by
  unfold aiCheck
  dsimp only
  split
  · rfl
  · rfl

/-- A provider the loader accepts is one of those the doctor knows. -/
theorem aiCheck_available_iff
    (provider : config.activeProvider ∈ ["disabled", "gemini", "ollama", "syspilot"]) :
    (aiCheck environment files config).state = .available ↔ Keyed config := by
  simp only [List.mem_cons, List.not_mem_nil, or_false] at provider
  unfold Keyed
  rcases provider with active | active | active | active
  all_goals simp only [aiCheck, aiAnswer, active]
  · simp [diagnostic]
  · by_cases keyed : config.geminiApiKey = "" <;> simp [keyed, diagnostic]
  · simp [diagnostic]
  · by_cases keyed : config.syspilotApiKey = "" <;> simp [keyed, diagnostic]

/-- What the loader accepts the doctor never calls misconfigured. -/
theorem exportCheck_available
    (valid : config.distributedTelemetry.validate
      (fun text => (parseUrl text).map fun _ => ()) = .ok ()) :
    (exportCheck parseUrl config.distributedTelemetry).state = .available := by
  unfold exportCheck
  split
  · rfl
  · rw [valid]
    rfl

end Configured

/-- The migration's backup stands there, and others may read it. -/
def Exposed (directory : String) (files : Files) : Prop :=
  ∃ backup, files[joinPath directory preV2Backup]? = some backup ∧ backup.mode &&& 0o077 ≠ 0

theorem backupCheck_fatal_iff {directory : String} {files : Files} :
    (∃ item ∈ backupCheck directory files, item.fatal = true) ↔ Exposed directory files := by
  unfold backupCheck Exposed
  cases files[joinPath directory preV2Backup]? with
  | none => simp
  | some backup =>
      by_cases secure : backup.mode &&& 0o077 = 0
      · simp [secure, diagnostic, DiagnosticV1.fatal]
      · simp [secure, diagnostic, DiagnosticV1.fatal]

theorem backupCheck_available_iff {directory : String} {files : Files} :
    (∀ item ∈ backupCheck directory files, item.state = .available) ↔
      files[joinPath directory preV2Backup]? = none := by
  unfold backupCheck
  cases files[joinPath directory preV2Backup]? with
  | none => simp
  | some backup => by_cases secure : backup.mode &&& 0o077 = 0 <;> simp [secure, diagnostic]

section Daemon

variable {floats : FloatText} {explain : String → String} {report : Except String (List UInt8)}
  {modified : Except String Int} {now : Int}

/-- The report can be read, and it is no report. -/
def Malformed (floats : FloatText) (report : Except String (List UInt8)) : Prop :=
  ∃ bytes text, report = .ok bytes ∧ fromUtf8 bytes = some text ∧
    parseDaemonHealth floats text = none

/-- The report says the daemon is ready, and it is at most three seconds old. -/
def Ready (floats : FloatText) (report : Except String (List UInt8))
    (modified : Except String Int) (now : Int) : Prop :=
  ∃ bytes text health time, report = .ok bytes ∧ fromUtf8 bytes = some text ∧
    parseDaemonHealth floats text = some health ∧ modified = .ok time ∧
    time ≤ now ∧ now - time ≤ 3 * second ∧ health.state = "ready"

theorem ageCheck_harmless {health : DaemonHealth} :
    (ageCheck health modified now).fatal = false := by
  cases modified with
  | error failure => rfl
  | ok time =>
      unfold ageCheck
      dsimp only
      split
      · rfl
      · split <;> rfl

theorem ageCheck_available_iff {health : DaemonHealth} :
    (ageCheck health modified now).state = .available ↔
      ∃ time, modified = .ok time ∧ time ≤ now ∧ now - time ≤ 3 * second ∧
        health.state = "ready" := by
  cases modified with
  | error failure => simp [ageCheck, diagnostic]
  | ok time =>
      unfold ageCheck
      by_cases early : now < time
      · have late : ¬ time ≤ now := by omega
        simp [early, diagnostic, late]
      · have late : time ≤ now := by omega
        by_cases ready : now - time ≤ 3 * second ∧ health.state = "ready"
        · simp only [if_neg early, diagnostic, Except.ok.injEq, exists_eq_left', late, true_and,
            ready]
          simp
        · simp only [if_neg early, diagnostic, Except.ok.injEq, exists_eq_left', late, true_and,
            ready]
          simp

theorem daemonCheck_fatal_iff :
    (daemonCheck floats explain report modified now).fatal = true ↔ Malformed floats report := by
  unfold daemonCheck Malformed
  cases report with
  | error failure => simp [diagnostic, DiagnosticV1.fatal]
  | ok bytes =>
      cases decoded : fromUtf8 bytes with
      | none => simp [diagnostic, DiagnosticV1.fatal, decoded]
      | some text =>
          cases parsed : parseDaemonHealth floats text with
          | none => simp [diagnostic, DiagnosticV1.fatal, decoded, parsed]
          | some health => simp [ageCheck_harmless, decoded, parsed]

theorem daemonCheck_available_iff :
    (daemonCheck floats explain report modified now).state = .available ↔
      Ready floats report modified now := by
  unfold daemonCheck Ready
  cases report with
  | error failure => simp [diagnostic]
  | ok bytes =>
      cases decoded : fromUtf8 bytes with
      | none => simp [diagnostic, decoded]
      | some text =>
          cases parsed : parseDaemonHealth floats text with
          | none => simp [diagnostic, decoded, parsed]
          | some health => simp [ageCheck_available_iff, decoded, parsed]

end Daemon

/-! ## The exit code -/

/-- What makes the doctor of a host call everything an error. -/
def Broken (floats : FloatText) (directory : String) (host : Host) (files : Files) : Prop :=
  host.linux = false ∨ host.procfs = false ∨ host.storage.Fails ∨ Exposed directory files ∨
    Malformed floats host.report

/-- What the doctor finds nothing wrong with. -/
structure Sound (floats : FloatText) (directory : String) (host : Host) (files : Files)
    (config : Config) : Prop where
  linux : host.linux = true
  procfs : host.procfs = true
  storage : host.storage = .writable
  keyed : Keyed config
  backup : files[joinPath directory preV2Backup]? = none
  daemon : Ready floats host.report host.modified host.now

section Verdict

variable {floats : FloatText} {codec : ConfigCodec floats} {parseUrl : UrlParser}
  {explain : String → String} {directory : String} {host : Host} {files : Files} {config : Config}

theorem diagnostics_error_iff (valid : validate parseUrl config = .ok ()) :
    verdict (host.diagnostics floats explain parseUrl directory files (.ok config)) = .error ↔
      Broken floats directory host files := by
  have telemetry := exportCheck_available (validate_ok_iff.mp valid).telemetry
  have configured : (diagnostic "configuration" .available "schema and values are valid" "none"
      none).fatal = false := rfl
  have platform := @hostCheck_fatal_iff "platform" host.os "Linux diagnostics require Linux"
    host.linux none (by simp)
  have procfs := @hostCheck_fatal_iff "procfs" "/proc capability probe"
    "process and system evidence is unavailable" host.procfs (some "mount procfs at /proc") (by simp)
  rw [verdict_error_iff]
  simp only [Host.diagnostics, configurationChecks, List.mem_append, or_and_right, exists_or,
    List.exists_mem_cons_iff, List.not_mem_nil, false_and, exists_false, or_false,
    backupCheck_fatal_iff, configured, aiCheck_harmless, not_fatal_of_available telemetry,
    storageCheck_fatal_iff, platform, procfs, daemonCheck_fatal_iff, Bool.false_eq_true]
  unfold Broken
  tauto

theorem diagnostics_ok_iff (valid : validate parseUrl config = .ok ()) :
    verdict (host.diagnostics floats explain parseUrl directory files (.ok config)) = .ok ↔
      Sound floats directory host files config := by
  have telemetry := exportCheck_available (validate_ok_iff.mp valid).telemetry
  have configured : (diagnostic "configuration" .available "schema and values are valid" "none"
      none).state = .available := rfl
  rw [verdict_ok_iff]
  simp only [Host.diagnostics, configurationChecks, List.mem_append, or_imp, forall_and,
    List.forall_mem_cons, List.not_mem_nil, false_imp_iff, implies_true, and_true,
    backupCheck_available_iff, configured, aiCheck_available_iff (validate_ok_iff.mp valid).provider,
    telemetry, true_and, storageCheck_available_iff, hostCheck_available_iff,
    daemonCheck_available_iff]
  constructor
  · intro ⟨⟨⟨⟨linux, procfs, storage⟩, keyed⟩, backup⟩, daemon⟩
    exact ⟨linux, procfs, storage, keyed, backup, daemon⟩
  · intro sound
    exact ⟨⟨⟨⟨sound.linux, sound.procfs, sound.storage⟩, sound.keyed⟩, sound.backup⟩, sound.daemon⟩

/-- After the load of `main` the load of the doctor finds the same configuration. -/
theorem doctorCommand_eq {after : CrashFiles.Disk} {id : Nat}
    (loaded : loadChecked codec parseUrl directory host.environment ⟨id, none⟩ ⟨files, 0⟩ =
      (after, .ok config)) :
    doctorCommand codec parseUrl explain directory host ⟨id, none⟩ ⟨files, 0⟩ =
      (after, .ok (OutputEnvelopeV1.new "doctor"
        (verdict (host.diagnostics floats explain parseUrl directory after.files (.ok config)))
        { version := host.version, buildCommit := host.buildCommit }
        (host.diagnostics floats explain parseUrl directory after.files (.ok config))
        host.finished)) := by
  obtain ⟨before, holds, read⟩ := loadChecked_ok loaded
  have again : loadChecked codec parseUrl directory host.environment ⟨id, none⟩ after =
      (after, .ok config) := by
    rw [holds.load, read]
  rw [doctorCommand, Program.bind_apply, loaded]
  dsimp only
  rw [collect, Program.bind_apply, caught, again]
  rfl

/-- The exit code of the doctor once the configuration could be loaded: 1 for a clock
before the epoch and for a broken host, 0 for a sound one and 2 for all others. -/
theorem doctor_exit_code (codec : ConfigCodec floats) (parseUrl : UrlParser)
    (explain : String → String) (directory : String) (host : Host) (files : Files) (id : Nat)
    (after : CrashFiles.Disk) (config : Config)
    (loaded : loadChecked codec parseUrl directory host.environment ⟨id, none⟩ ⟨files, 0⟩ =
      (after, .ok config)) :
    (doctorCommand codec parseUrl explain directory host ⟨id, none⟩ ⟨files, 0⟩).1 = after ∧
    ∃ code ∈ [0, 1, 2],
      exitCode (doctorCommand codec parseUrl explain directory host ⟨id, none⟩ ⟨files, 0⟩).2 =
        some code ∧
      (code = 1 ↔ host.finished < 0 ∨ Broken floats directory host after.files) ∧
      (code = 0 ↔ 0 ≤ host.finished ∧ Sound floats directory host after.files config) := by
  obtain ⟨before, holds, read⟩ := loadChecked_ok loaded
  have valid := runtimeConfig_valid read
  rw [doctorCommand_eq loaded]
  refine ⟨rfl, ?_⟩
  have faulty := @diagnostics_error_iff floats parseUrl explain directory host after.files config valid
  have fine := @diagnostics_ok_iff floats parseUrl explain directory host after.files config valid
  rw [← faulty, ← fine]
  unfold OutputEnvelopeV1.new
  by_cases early : host.finished < 0
  · rw [if_pos early]
    refine ⟨1, by simp, rfl, by simp [early], ?_⟩
    have late : ¬ 0 ≤ host.finished := by omega
    simp [late]
  · rw [if_neg early]
    have late : 0 ≤ host.finished := by omega
    refine ⟨_, ?_, rfl, ?_, ?_⟩
    all_goals
      simp only [early, late, false_or, true_and]
      cases verdict (host.diagnostics floats explain parseUrl directory after.files (.ok config)) <;>
        simp [Outcome.exitCode]

end Verdict

def soundHost : Host where
  linux := true
  os := "linux"
  procfs := true
  storage := .writable
  environment := fun _ => none
  report := .error "No such file or directory (os error 2)"
  modified := .error "No such file or directory (os error 2)"
  now := 0
  finished := 0
  version := "1.0.0"
  buildCommit := "unknown"

theorem doctor_exit_code_default :
    ∃ code, exitCode (doctorCommand recordCodec anyUrl id "/home" soundHost ⟨7, none⟩
        ⟨defaultFiles, 0⟩).2 = some code ∧ code ≠ 0 := by
  obtain ⟨-, code, -, exits, -, fine⟩ := doctor_exit_code recordCodec anyUrl id "/home" soundHost
    defaultFiles 7 _ {} silent_runs.1
  refine ⟨code, exits, fun zero => ?_⟩
  obtain ⟨_, _, _, _, read, _⟩ := (fine.mp zero).2.daemon
  cases read

/-! ## What the doctor says of a daemon -/

/-- The bytes a reader finds, and the time it is told. -/
def contentOf (report : Option Written) : Except String (List UInt8) :=
  match report with
  | none => .error "No such file or directory (os error 2)"
  | some file => .ok file.content

def modifiedOf (report : Option Written) : Except String Int :=
  match report with
  | none => .error "No such file or directory (os error 2)"
  | some file => .ok file.modified

/-- A report of the daemon as the doctor reads it. -/
def DaemonHealthV1.seen (health : DaemonHealthV1) : DaemonHealth where
  state := health.state
  netlinkState := health.netlinkState
  droppedEvents := health.droppedEvents
  exporter := some health.exporter.toValue

theorem seen_dropped (health : DaemonHealthV1) :
    health.seen.dropped = health.exporter.dropped.toNat := by
  have number : (ofU64 health.exporter.dropped).asU64 = some health.exporter.dropped.toNat :=
    asU64_ofNat health.exporter.dropped.toNat_lt
  rw [DaemonHealth.dropped, DaemonHealthV1.seen, ExporterHealth.toValue, ofMembers]
  simp (disch := simp) only [get_fieldsOfMembers]
  simp [Fields.get_cons, number]

theorem read_seen (health : DaemonHealthV1) :
    asObject readDaemonHealth health.toValue = some health.seen := by
  have given : health.exporter.toValue = .object _ := rfl
  rw [DaemonHealthV1.toValue, ofMembers, asObject, readDaemonHealth]
  simp (disch := simp) only [readField_members]
  simp only [readField_cons]
  simp [asUInt64_ofU64, Value.asString, DaemonHealthV1.seen, readField, Fields.get, given]

section Follows

variable {floats : FloatText}

theorem parse_seen (health : DaemonHealthV1) :
    ∃ text, fromUtf8 (encodeHealth floats health) = some text ∧
      parseDaemonHealth floats text = some health.seen := by
  refine ⟨_, fromUtf8_bytesOf _, ?_⟩
  rw [parseDaemonHealth, String.toList_ofList,
    parseText_compact escapes_escapeChar _ (canonical_health health), mapFloats_health,
    Option.bind_some, read_seen]

theorem daemonCheck_encoded (explain : String → String) {content : List UInt8}
    {health : DaemonHealthV1} (written : content = encodeHealth floats health)
    (modified : Except String Int) (now : Int) :
    daemonCheck floats explain (.ok content) modified now =
      ageCheck health.seen modified now := by
  obtain ⟨text, decoded, parsed⟩ := @parse_seen floats health
  rw [daemonCheck, written]
  dsimp only
  rw [decoded]
  dsimp only
  rw [parsed]

theorem report_step {runtime : Runtime} (whole : Whole floats runtime)
    (placed : runtime.report.isSome = true) (operation : Operation) :
    (runtime.step floats operation).report.isSome = true := by
  cases operation with
  | create health now succeeds =>
      cases writing : runtime.writing with
      | some busy => simpa only [Runtime.step, writing] using placed
      | none =>
          simp only [Runtime.step, writing]
          split <;> exact placed
  | write count now succeeds =>
      cases writing : runtime.writing with
      | none => simpa only [Runtime.step, writing] using placed
      | some busy =>
          obtain ⟨health, rest⟩ := busy
          obtain ⟨file, present, content⟩ := whole.writing health rest writing
          simp only [Runtime.step, writing, Runtime.write, present]
          split <;> exact placed
  | rename succeeds =>
      cases writing : runtime.writing with
      | none => simpa only [Runtime.step, writing] using placed
      | some busy =>
          obtain ⟨health, rest⟩ := busy
          cases rest with
          | cons byte rest => simpa only [Runtime.step, writing] using placed
          | nil =>
              obtain ⟨file, present, content⟩ := whole.writing health [] writing
              simp only [Runtime.step, writing, present]
              split
              · rfl
              · exact placed
  | stop => exact placed

/-- A report that is in place stays there, or a later one takes its place. -/
theorem report_stays {runtime : Runtime} (whole : Whole floats runtime)
    (placed : runtime.report.isSome = true) (operations : List Operation) :
    (Machine.run (Runtime.step floats) runtime operations).report.isSome = true :=
  (Machine.run_invariant_always _
    (fun runtime => Whole floats runtime ∧ runtime.report.isSome = true)
    (fun _ operation held => ⟨whole_step held.1 operation, report_step held.1 held.2 operation⟩)
    runtime operations ⟨whole, placed⟩).2

/-- The doctor reads the report and its time one after the other, and the daemon may go
on in between.  Before the first report it calls the daemon unavailable; after it, it
says what the report it read says, of an age of a report that is in place. -/
theorem doctor_reads_whole (explain : String → String) (operations later : List Operation)
    (now : Int) :
    match (Machine.run (Runtime.step floats) {} operations).placed.getLast? with
    | none =>
        (daemonCheck floats explain
          (contentOf (Machine.run (Runtime.step floats) {} operations).report)
          (modifiedOf (Machine.run (Runtime.step floats) {} (operations ++ later)).report)
          now).state = .unavailable
    | some health => ∃ file seen,
        (Machine.run (Runtime.step floats) {} (operations ++ later)).report = some file ∧
        seen.state = health.state ∧ seen.netlinkState = health.netlinkState ∧
        seen.droppedEvents = health.droppedEvents ∧
        seen.dropped = health.exporter.dropped.toNat ∧
        daemonCheck floats explain
          (contentOf (Machine.run (Runtime.step floats) {} operations).report)
          (modifiedOf (Machine.run (Runtime.step floats) {} (operations ++ later)).report) now =
            ageCheck seen (.ok file.modified) now := by
  have whole := @whole_run floats operations
  have placed := whole.placed
  cases found : (Machine.run (Runtime.step floats) {} operations).report with
  | none =>
      rw [found] at placed
      rw [placed]
      rfl
  | some file =>
      rw [found] at placed
      obtain ⟨earlier, health, sequence, content⟩ := placed
      rw [sequence, List.getLast?_concat]
      have there := report_stays whole (by rw [found]; rfl) later
      rw [← Machine.run_append] at there
      obtain ⟨last, present⟩ := Option.isSome_iff_exists.mp there
      refine ⟨last, health.seen, present, rfl, rfl, rfl, seen_dropped health, ?_⟩
      rw [present]
      exact daemonCheck_encoded explain content _ now

/-- At one moment the doctor finds a daemon available only when `status` calls it fresh and
ready.  The converse fails exactly for the ages between three and four seconds: `status`
compares whole seconds. -/
theorem doctor_within_status (explain : String → String) (said : List UInt8 → String)
    (operations : List Operation) (now : Int) :
    match readReport floats said (Machine.run (Runtime.step floats) {} operations).report now with
    | .error _ =>
        (daemonCheck floats explain
          (contentOf (Machine.run (Runtime.step floats) {} operations).report)
          (modifiedOf (Machine.run (Runtime.step floats) {} operations).report) now).state ≠
            .available
    | .ok snapshot =>
        ((daemonCheck floats explain
          (contentOf (Machine.run (Runtime.step floats) {} operations).report)
          (modifiedOf (Machine.run (Runtime.step floats) {} operations).report) now).state =
            .available → snapshot.fresh = true ∧ snapshot.health.state = "ready") ∧
        (snapshot.fresh = true ∧ snapshot.health.state = "ready" ∧
          (daemonCheck floats explain
            (contentOf (Machine.run (Runtime.step floats) {} operations).report)
            (modifiedOf (Machine.run (Runtime.step floats) {} operations).report) now).state ≠
              .available ↔
          snapshot.health.state = "ready" ∧ ∃ file,
            (Machine.run (Runtime.step floats) {} operations).report = some file ∧
            3 * second < now - file.modified ∧ now - file.modified < 4 * second) := by
  have placed := (@whole_run floats operations).placed
  cases found : (Machine.run (Runtime.step floats) {} operations).report with
  | none =>
      show (daemonCheck floats explain (.error _) _ now).state ≠ .available
      simp [daemonCheck, diagnostic]
  | some file =>
      rw [found] at placed
      obtain ⟨earlier, health, sequence, content⟩ := placed
      have checked := daemonCheck_encoded explain content (.ok file.modified) now
      have available := @ageCheck_available_iff (.ok file.modified) now health.seen
      rw [readReport_encoded said content]
      simp only [contentOf, modifiedOf, checked, ne_eq, available]
      by_cases early : now < file.modified
      · rw [if_pos early]
        dsimp only
        rintro ⟨time, same, late, -⟩
        cases same
        omega
      · rw [if_neg early]
        have whole : decide ((now - file.modified) / second ≤ 3) = true ↔
            now - file.modified < 4 * second := by
          rw [decide_eq_true_iff, second]
          omega
        simp only [Except.ok.injEq, exists_eq_left', Option.some.injEq, whole, DaemonHealthV1.seen]
        unfold second at *
        constructor
        · rintro ⟨-, recent, ready⟩
          exact ⟨by omega, ready⟩
        · constructor
          · rintro ⟨fresh, ready, refused⟩
            have old : ¬ now - file.modified ≤ 3 * 1000000000 :=
              fun recent => refused ⟨by omega, recent, ready⟩
            exact ⟨ready, by omega, by omega⟩
          · rintro ⟨ready, old, recent⟩
            exact ⟨by omega, ready, fun ⟨_, young, _⟩ => by omega⟩

end Follows

end SystemPilot.Daemon
