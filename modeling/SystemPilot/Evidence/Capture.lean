import SystemPilot.Evidence.Cases

/-!
# Capturing evidence

`capture` and the `evidence` command.  What the host answers is a parameter: its clock, its
kernel's features, the records of the system and of a process.
-/

set_option autoImplicit false

namespace SystemPilot.Evidence

open SystemPilot.Library SystemPilot.Text SystemPilot.Json
open SystemPilot.Configuration (ofNat ofMembers ofList canonical_ofNat canonical_ofList
  canonical_ofMembers)

/-! ## The host -/

inductive CapabilityState where
  | supported
  | degraded
  | unsupported
  deriving DecidableEq, Repr

structure KernelCapabilities where
  btf : CapabilityState
  processExit : CapabilityState
  signalOrigin : CapabilityState
  signalDelivery : CapabilityState
  oomVictim : CapabilityState
  deriving DecidableEq, Repr

def stateFor (there : Bool) : CapabilityState := if there then .supported else .unsupported

/-- `detect_at` on what exists and what is a directory. -/
def detectAt (isThere isDir : String → Bool) (traceEvents btfVmlinux : String) :
    KernelCapabilities where
  btf := stateFor (isThere btfVmlinux)
  processExit := stateFor (isThere (traceEvents ++ "/sched/sched_process_exit"))
  signalOrigin := stateFor (isThere (traceEvents ++ "/signal/signal_generate"))
  signalDelivery := stateFor (isThere (traceEvents ++ "/signal/signal_deliver"))
  oomVictim :=
    stateFor (isDir (traceEvents ++ "/oom/mark_victim") || isDir (traceEvents ++ "/oom/oom_kill"))

/-- `detect_host`: tracefs, or the mount of debugfs. -/
def detectHost (isThere isDir : String → Bool) : KernelCapabilities :=
  let tracefs := "/sys/kernel/tracing/events"
  detectAt isThere isDir (if isDir tracefs then tracefs else "/sys/kernel/debug/tracing/events")
    "/sys/kernel/btf/vmlinux"

structure ProcessTelemetry where
  pid : Int32
  name : String
  ppid : Int32
  state : String
  threadCount : Int32
  utime : UInt64
  stime : UInt64
  rssBytes : UInt64
  vsizeBytes : UInt64
  minflt : UInt64
  majflt : UInt64
  readBytes : UInt64
  writeBytes : UInt64
  readChar : UInt64
  writeChar : UInt64
  syscr : UInt64
  syscw : UInt64
  voluntaryCtxtSwitches : UInt64
  involuntaryCtxtSwitches : UInt64
  schedRunTicks : UInt64
  schedWaitTicks : UInt64
  schedTimeslices : UInt64
  childPids : List Int32
  env : List String
  deriving DecidableEq

structure SystemTelemetry where
  loadAvg : String
  memTotalKb : UInt64
  memFreeKb : UInt64
  memAvailableKb : UInt64
  memCachedKb : UInt64
  memBuffersKb : UInt64
  cpuUser : UInt64
  cpuNice : UInt64
  cpuSystem : UInt64
  cpuIdle : UInt64
  cpuIowait : UInt64
  cpuIrq : UInt64
  cpuSoftirq : UInt64
  diskUsageSummary : String
  deriving DecidableEq

/-- What a capture reads: the clock before and after, which paths exist and are directories,
the records, what `/etc/hostname` and the kernel's release read as, and the capturing
process. -/
structure Host where
  startedAt : Int
  endedAt : Int
  isThere : String → Bool
  isDir : String → Bool
  collectSystemTelemetry : SystemTelemetry
  findPidByName : String → Int32
  collectProcessTelemetry : Int32 → ProcessTelemetry
  hostname : Option String
  kernelRelease : Option String
  architecture : String
  processId : UInt32
  caseCounter : UInt64

def Host.capabilities (host : Host) : KernelCapabilities := detectHost host.isThere host.isDir

/-! ## Records as values -/

def ofInt32 (value : Int32) : Value :=
  if 0 ≤ value.toInt then .number (.posInt value.toInt.toNat) else .number (.negInt value.toInt)

def ofUInt64 (value : UInt64) : Value := ofNat value.toNat

def ProcessTelemetry.toValue (process : ProcessTelemetry) : Value := ofMembers [
  ("pid", ofInt32 process.pid),
  ("name", .string process.name),
  ("ppid", ofInt32 process.ppid),
  ("state", .string process.state),
  ("thread_count", ofInt32 process.threadCount),
  ("utime", ofUInt64 process.utime),
  ("stime", ofUInt64 process.stime),
  ("rss_bytes", ofUInt64 process.rssBytes),
  ("vsize_bytes", ofUInt64 process.vsizeBytes),
  ("minflt", ofUInt64 process.minflt),
  ("majflt", ofUInt64 process.majflt),
  ("read_bytes", ofUInt64 process.readBytes),
  ("write_bytes", ofUInt64 process.writeBytes),
  ("read_char", ofUInt64 process.readChar),
  ("write_char", ofUInt64 process.writeChar),
  ("syscr", ofUInt64 process.syscr),
  ("syscw", ofUInt64 process.syscw),
  ("voluntary_ctxt_switches", ofUInt64 process.voluntaryCtxtSwitches),
  ("involuntary_ctxt_switches", ofUInt64 process.involuntaryCtxtSwitches),
  ("sched_run_ticks", ofUInt64 process.schedRunTicks),
  ("sched_wait_ticks", ofUInt64 process.schedWaitTicks),
  ("sched_timeslices", ofUInt64 process.schedTimeslices),
  ("child_pids", ofList ofInt32 process.childPids),
  ("env", ofList .string process.env)]

def SystemTelemetry.toValue (system : SystemTelemetry) : Value := ofMembers [
  ("load_avg", .string system.loadAvg),
  ("mem_total_kb", ofUInt64 system.memTotalKb),
  ("mem_free_kb", ofUInt64 system.memFreeKb),
  ("mem_available_kb", ofUInt64 system.memAvailableKb),
  ("mem_cached_kb", ofUInt64 system.memCachedKb),
  ("mem_buffers_kb", ofUInt64 system.memBuffersKb),
  ("cpu_user", ofUInt64 system.cpuUser),
  ("cpu_nice", ofUInt64 system.cpuNice),
  ("cpu_system", ofUInt64 system.cpuSystem),
  ("cpu_idle", ofUInt64 system.cpuIdle),
  ("cpu_iowait", ofUInt64 system.cpuIowait),
  ("cpu_irq", ofUInt64 system.cpuIrq),
  ("cpu_softirq", ofUInt64 system.cpuSoftirq),
  ("disk_usage_summary", .string system.diskUsageSummary)]

/-- An observation of its kind alone. -/
def observationValue (id : String) (value : Value) : Value :=
  .object [("id", .string id), ("kind", .string id), ("value", value)]

/-- A value without doubles that can stand in an observation. -/
structure Plain (value : Value) : Prop where
  canonical : value.canonical 124 = true
  whole : ∀ change, value.mapFloats change = value

section Plain

theorem canonical_ofInt32 (depth : Nat) (value : Int32) :
    (ofInt32 value).canonical depth = true := by
  have low := value.le_toInt
  have high := value.toInt_lt
  unfold ofInt32
  split
  · cases depth <;> exact decide_eq_true (by omega)
  · cases depth <;> exact decide_eq_true (by omega)

theorem mapFloats_ofInt32 (change : UInt64 → UInt64) (value : Int32) :
    (ofInt32 value).mapFloats change = ofInt32 value := by
  unfold ofInt32
  split <;> rfl

theorem canonical_ofUInt64 (depth : Nat) (value : UInt64) :
    (ofUInt64 value).canonical depth = true :=
  canonical_ofNat depth value.toNat_lt

theorem mapFloats_ofUInt64 (change : UInt64 → UInt64) (value : UInt64) :
    (ofUInt64 value).mapFloats change = ofUInt64 value := rfl

theorem mapFloats_string (change : UInt64 → UInt64) (text : String) :
    (Value.string text).mapFloats change = .string text := rfl

theorem mapFloatsItems_map {Item : Type} {change : UInt64 → UInt64} {write : Item → Value}
    (each : ∀ item, (write item).mapFloats change = write item) (items : List Item) :
    mapFloatsItems change (items.map write) = items.map write := by
  induction items with
  | nil => rfl
  | cons item items inductionHypothesis =>
      rw [List.map_cons, mapFloatsItems, each, inductionHypothesis]

theorem mapFloats_ofList {Item : Type} {change : UInt64 → UInt64} {write : Item → Value}
    (each : ∀ item, (write item).mapFloats change = write item) (items : List Item) :
    (ofList write items).mapFloats change = ofList write items := by
  rw [ofList, Value.mapFloats, mapFloatsItems_map each]

theorem plain_process (process : ProcessTelemetry) : Plain process.toValue where
  canonical := by
    have children : (ofList ofInt32 process.childPids).canonical 123 = true :=
      canonical_ofList (canonical_ofInt32 122) _
    have env : (ofList .string process.env).canonical 123 = true :=
      canonical_ofList (canonical_string 122) _
    exact canonical_ofMembers (by
      simp [canonical_ofInt32, canonical_ofUInt64, children, env])
  whole change := by
    have children := mapFloats_ofList (mapFloats_ofInt32 change) process.childPids
    have env := mapFloats_ofList (mapFloats_string change) process.env
    exact mapFloats_fieldsOfMembers (by
      simp [mapFloats_ofInt32, mapFloats_ofUInt64, mapFloats_string, children, env])

theorem plain_system (system : SystemTelemetry) : Plain system.toValue where
  canonical := canonical_ofMembers (by simp [canonical_ofUInt64])
  whole change :=
    mapFloats_fieldsOfMembers (by simp [mapFloats_ofUInt64, mapFloats_string])

theorem canonical_observation {value : Value} (plain : Plain value) (id : String) :
    (observationValue id value).canonical 125 = true := by
  refine canonical_object_iff.mpr ⟨?_, ?_⟩
  · exact Fields.sorted_of_keys ["id", "kind", "value"] rfl (by decide)
  · simp [plain.canonical]

end Plain

def Observation.of (id : String) {value : Value} (plain : Plain value) : Observation :=
  ⟨observationValue id value, canonical_observation plain id⟩

/-! ## Capturing -/

def CapabilityState.text : CapabilityState → String
  | .supported => "supported"
  | .degraded => "degraded"
  | .unsupported => "unsupported"

def KernelCapabilities.records (capabilities : KernelCapabilities) : List CapabilityRecordV1 := [
  ⟨"btf", capabilities.btf.text⟩,
  ⟨"process_exit", capabilities.processExit.text⟩,
  ⟨"signal_origin", capabilities.signalOrigin.text⟩,
  ⟨"signal_delivery", capabilities.signalDelivery.text⟩,
  ⟨"oom_victim", capabilities.oomVictim.text⟩]

/-- `host_value`. -/
def hostValue (content : Option String) : String :=
  match content with
  | some text => String.ofList (trim text)
  | none => "unknown"

/-- `format!("{:x}-{}-{}", ..)`. -/
def Host.caseId (host : Host) : String :=
  String.ofList (Nat.toDigits 16 (nowNs host.endedAt) ++
    '-' :: (Nat.toDigits 10 host.processId.toNat ++ '-' :: Nat.toDigits 10 host.caseCounter.toNat))

/-- What is known of the process that was asked for. -/
structure Observed where
  observations : List Observation := []
  findings : List FindingV1 := []
  missing : List MissingEvidenceV1 := []
  relationships : List RelationshipV1 := []

def observe (pid : Int32) (process : ProcessTelemetry) : Observed where
  observations := [.of "process_snapshot" (plain_process process)]
  findings :=
    (if process.state = "D" then
      [{ id := "process_uninterruptible_sleep"
         severity := "warning"
         summary := "process " ++ toString pid.toInt ++ " is in uninterruptible sleep"
         evidenceRefs := ["process_snapshot"] }] else []) ++
    (if 0 < process.majflt then
      [{ id := "major_page_faults_observed"
         severity := "info"
         summary := "process " ++ toString pid.toInt ++ " has " ++ toString process.majflt.toNat ++
           " major page faults"
         evidenceRefs := ["process_snapshot"] }] else [])
  missing :=
    if process.name = "" then
      [⟨"process_snapshot", "process exited or became inaccessible during capture"⟩] else []
  relationships :=
    if 0 < process.ppid.toInt then
      [⟨"pid:" ++ toString pid.toInt, "pid:" ++ toString process.ppid.toInt, "spawned_by"⟩] else []

/-- What is observed of the target, if there is one and it is found. -/
def observeTarget (host : Host) : Option String → AppResult Observed
  | none => .ok {}
  | some target =>
      let pid := host.findPidByName target
      if pid = 0 then .error (.validation ("process not found: " ++ target))
      else .ok (observe pid (host.collectProcessTelemetry pid))

/-- The features that are not there. -/
def unsupported (records : List CapabilityRecordV1) : List MissingEvidenceV1 :=
  (records.filter fun record => record.state ≠ "supported").map fun record =>
    ⟨record.name, "capability is " ++ record.state⟩

/-- The bundle that is returned in the end. -/
def Host.bundle (host : Host) (observed : Observed) : Bundle where
  schemaVersion := evidenceSchemaVersion
  bundleVersion := "EvidenceBundleV1"
  caseId := host.caseId
  timeRange := ⟨UInt64.ofNat (nowNs host.startedAt), UInt64.ofNat (nowNs host.endedAt)⟩
  findings := observed.findings
  details := {
    node := ⟨hostValue host.hostname, hostValue host.kernelRelease, host.architecture⟩
    capabilities := host.capabilities.records
    observations :=
      .of "system_snapshot" (plain_system host.collectSystemTelemetry) :: observed.observations
    missingEvidence := observed.missing ++ unsupported host.capabilities.records
    relationships := observed.relationships
    alertReferences := []
    redaction := {}
    aiAnalysis := none }

def capture (host : Host) (target : Option String) : AppResult Bundle :=
  (observeTarget host target).map host.bundle

/-- `syspilot evidence`, up to what it prints. -/
def evidence (store : CaseStore) (codec : BundleCodec DetailsV1) (host : Host)
    (target : Option String) : Action Bundle := do
  let bundle ← Action.ofResult (capture host target)
  store.save codec bundle
  pure bundle

/-- The exit status of `syspilot evidence`; a process that aborts has none. -/
def exitStatus : Except Stop Bundle → Option Nat
  | .ok bundle => some (if bundle.details.missingEvidence.isEmpty then 0 else 2)
  | .error (.failed _) => some 1
  | .error .aborted => none

/-! ## Names of cases -/

section Names

variable {base value : Nat} {digit : Char}

theorem digitChar_injective : ∀ left < 16, ∀ right < 16,
    Nat.digitChar left = Nat.digitChar right → left = right := by
  decide

theorem digitChar_plain : ∀ digit < 16,
    (Nat.digitChar digit).isAlphanum = true ∧ Nat.digitChar digit ≠ '-' := by
  decide

theorem toDigits_injective (large : 1 < base) (small : base ≤ 16) :
    Function.Injective (Nat.toDigits base) := by
  intro left
  induction left using Nat.strongRecOn with
  | ind left inductionHypothesis =>
      intro right same
      have below (value : Nat) : value % base < 16 :=
        lt_of_lt_of_le (Nat.mod_lt value (by omega)) small
      rw [@Nat.toDigits_eq_if base left large, @Nat.toDigits_eq_if base right large] at same
      split at same
      · split at same
        · exact digitChar_injective left (by omega) right (by omega) (List.cons.inj same).1
        · have lengths := congrArg List.length same
          have longer := @Nat.length_toDigits_pos base (right / base)
          rw [List.length_append, List.length_singleton, List.length_singleton] at lengths
          omega
      · split at same
        · have lengths := congrArg List.length same
          have longer := @Nat.length_toDigits_pos base (left / base)
          rw [List.length_append, List.length_singleton, List.length_singleton] at lengths
          omega
        · obtain ⟨front, last⟩ := List.append_inj' same rfl
          have quotients : left / base = right / base :=
            inductionHypothesis _ (Nat.div_lt_self (by omega) large) front
          have remainders : left % base = right % base :=
            digitChar_injective _ (below left) _ (below right) (List.cons.inj last).1
          rw [← Nat.div_add_mod left base, ← Nat.div_add_mod right base, quotients, remainders]

theorem mem_toDigits (large : 1 < base) (small : base ≤ 16)
    (member : digit ∈ Nat.toDigits base value) : digit.isAlphanum = true ∧ digit ≠ '-' := by
  induction value using Nat.strongRecOn with
  | ind value inductionHypothesis =>
      rw [@Nat.toDigits_eq_if base value large] at member
      split at member
      · rw [List.mem_singleton.mp member]
        exact digitChar_plain value (by omega)
      · rcases List.mem_append.mp member with front | last
        · exact inductionHypothesis _ (Nat.div_lt_self (by omega) large) front
        · rw [List.mem_singleton.mp last]
          exact digitChar_plain _ (lt_of_lt_of_le (Nat.mod_lt value (by omega)) small)

/-- What stands before the first separator, and what behind it. -/
theorem append_separator_injective {separator : Char} {left right leftRest rightRest : List Char}
    (leftClean : ∀ character ∈ left, character ≠ separator)
    (rightClean : ∀ character ∈ right, character ≠ separator)
    (same : left ++ separator :: leftRest = right ++ separator :: rightRest) :
    left = right ∧ leftRest = rightRest := by
  induction left generalizing right with
  | nil =>
      cases right with
      | nil => exact ⟨rfl, (List.cons.inj same).2⟩
      | cons character right =>
          exact absurd (List.cons.inj same).1.symm (rightClean character List.mem_cons_self)
  | cons character left inductionHypothesis =>
      cases right with
      | nil => exact absurd (List.cons.inj same).1 (leftClean character List.mem_cons_self)
      | cons other right =>
          obtain ⟨head, tail⟩ := List.cons.inj same
          obtain ⟨front, behind⟩ := inductionHypothesis
            (fun _ member => leftClean _ (List.mem_cons_of_mem _ member))
            (fun _ member => rightClean _ (List.mem_cons_of_mem _ member)) tail
          exact ⟨by rw [head, front], behind⟩

/-- A case's name says when it ended, in which process, and which of its cases it is. -/
theorem caseId_injective {host other : Host} (same : host.caseId = other.caseId) :
    nowNs host.endedAt = nowNs other.endedAt ∧ host.processId = other.processId ∧
      host.caseCounter = other.caseCounter := by
  have clean {base value : Nat} (large : 1 < base) (small : base ≤ 16) :
      ∀ digit ∈ Nat.toDigits base value, digit ≠ '-' := fun _ member =>
    (mem_toDigits large small member).2
  have lists := String.ofList_injective same
  obtain ⟨ended, rest⟩ := append_separator_injective (clean (by decide) (by decide))
    (clean (by decide) (by decide)) lists
  obtain ⟨process, counter⟩ := append_separator_injective (clean (by decide) (by decide))
    (clean (by decide) (by decide)) rest
  have tens := @toDigits_injective 10 (by decide) (by decide)
  exact ⟨toDigits_injective (by decide) (by decide) ended, UInt32.toNat_inj.mp (tens process),
    UInt64.toNat_inj.mp (tens counter)⟩

/-- A case's name is one that the store takes. -/
theorem path_caseId (host : Host) :
    CaseStore.path host.caseId = .ok (fileName host.caseId) := by
  refine path_ok_iff.mpr ⟨?_, ?_, rfl⟩
  · intro empty
    have list := congrArg String.toList empty
    rw [Host.caseId, String.toList_ofList] at list
    exact List.append_ne_nil_of_right_ne_nil _ (List.cons_ne_nil _ _) list
  · intro character member
    have digits {base value : Nat} (large : 1 < base) (small : base ≤ 16)
        (member : character ∈ Nat.toDigits base value) :
        character.isAlphanum = true ∨ character = '-' := .inl (mem_toDigits large small member).1
    rw [Host.caseId, String.toList_ofList, List.mem_append, List.mem_cons, List.mem_append,
      List.mem_cons] at member
    rcases member with ended | rfl | process | rfl | counter
    · exact digits (by decide) (by decide) ended
    · exact .inr rfl
    · exact digits (by decide) (by decide) process
    · exact .inr rfl
    · exact digits (by decide) (by decide) counter

end Names

/-! ## What is captured -/

section Captured

theorem reread_of {value : Value} (plain : Plain value) (id : String) (floats : FloatText) :
    (Observation.of id plain).reread floats = .of id plain := by
  have same : (observationValue id value).mapFloats floats.reread = observationValue id value := by
    simp [observationValue, Value.mapFloats, mapFloatsFields, plain.whole]
  unfold Observation.reread Observation.of
  simp only [same]

/-- The observation of a kind. -/
def Observation.id (observation : Observation) : Option Value :=
  match observation.value with
  | .object fields => Fields.get fields "id"
  | _ => none

theorem id_of {value : Value} (plain : Plain value) (id : String) :
    (Observation.of id plain).id = some (.string id) := by
  simp [Observation.id, Observation.of, observationValue, Fields.get_cons]

variable {host : Host} {target : Option String} {observed : Observed}

/-- What a found target adds: one snapshot, which all that is found refers to. -/
theorem observeTarget_ok (found : observeTarget host target = .ok observed) :
    (target = none ∧ observed = {}) ∨
      ∃ name, target = some name ∧ host.findPidByName name ≠ 0 ∧
        observed = observe (host.findPidByName name)
          (host.collectProcessTelemetry (host.findPidByName name)) := by
  cases target with
  | none => exact .inl ⟨rfl, (Except.ok.inj found).symm⟩
  | some name =>
      unfold observeTarget at found
      dsimp only at found
      split at found
      · cases found
      · rename_i there
        exact .inr ⟨name, rfl, there, (Except.ok.inj found).symm⟩

theorem observeTarget_error {error : AppError}
    (missing : observeTarget host target = .error error) :
    ∃ name, target = some name ∧ host.findPidByName name = 0 ∧
      error = .validation ("process not found: " ++ name) := by
  cases target with
  | none => cases missing
  | some name =>
      unfold observeTarget at missing
      dsimp only at missing
      split at missing
      · rename_i nowhere
        exact ⟨name, rfl, nowhere, (Except.error.inj missing).symm⟩
      · cases missing

theorem capture_ok {bundle : Bundle} (captured : capture host target = .ok bundle) :
    ∃ observed, observeTarget host target = .ok observed ∧ bundle = host.bundle observed := by
  unfold capture at captured
  cases found : observeTarget host target with
  | error error => rw [found] at captured; cases captured
  | ok observed =>
      rw [found] at captured
      exact ⟨observed, rfl, (Except.ok.inj captured).symm⟩

theorem isBlank_caseId (host : Host) : ¬ isBlank host.caseId = true := by
  intro blank
  have dash : '-' ∈ host.caseId.toList := by simp [Host.caseId]
  exact absurd ((isBlank_iff _).mp blank '-' dash) (by decide)

theorem toNat_nowNs (clock : Int) : (UInt64.ofNat (nowNs clock)).toNat = nowNs clock :=
  UInt64.toNat_ofNat_of_lt' (Nat.mod_lt _ (by decide))

/-- Only a clock that was set back makes a capture that no one accepts. -/
theorem validate_bundle (host : Host) (observed : Observed) :
    (host.bundle observed).validate = .ok () ↔ nowNs host.startedAt ≤ nowNs host.endedAt := by
  have versions : ¬ ((host.bundle observed).schemaVersion ≠ evidenceSchemaVersion ∨
      (host.bundle observed).bundleVersion ≠ "EvidenceBundleV1") := by simp [Host.bundle]
  have named := isBlank_caseId host
  have times : ((host.bundle observed).timeRange.endedAtUnixNanos <
      (host.bundle observed).timeRange.startedAtUnixNanos) ↔
        nowNs host.endedAt < nowNs host.startedAt := by
    rw [UInt64.lt_iff_toNat_lt]
    simp only [Host.bundle, toNat_nowNs]
  unfold EvidenceBundleV1.validate
  rw [if_neg versions]
  split
  · rename_i refused
    rcases refused with blank | backwards
    · exact absurd blank named
    · have back := times.mp backwards
      constructor
      · intro ok
        cases ok
      · intro forwards
        omega
  · rename_i accepted
    rw [not_or] at accepted
    have forwards := accepted.2
    rw [times] at forwards
    exact ⟨fun _ => by omega, fun _ => rfl⟩

theorem reread_bundle (found : observeTarget host target = .ok observed) (floats : FloatText) :
    (host.bundle observed).reread floats = host.bundle observed := by
  have same : observed.observations.map (Observation.reread floats) = observed.observations := by
    rcases observeTarget_ok found with ⟨-, rfl⟩ | ⟨name, -, -, rfl⟩
    · rfl
    · simp [observe, reread_of]
  simp [EvidenceBundleV1.reread, Host.bundle, reread_of, same]

theorem reread_of_capture {bundle : Bundle} (captured : capture host target = .ok bundle)
    (floats : FloatText) : bundle.reread floats = bundle := by
  obtain ⟨observed, found, rfl⟩ := capture_ok captured
  exact reread_bundle found floats

/-- What is found is found in a snapshot of the bundle. -/
theorem findings_refer (found : observeTarget host target = .ok observed)
    {finding : FindingV1} (finds : finding ∈ (host.bundle observed).findings) {ref : String}
    (refers : ref ∈ finding.evidenceRefs) :
    ∃ observation ∈ (host.bundle observed).details.observations,
      observation.id = some (.string ref) := by
  rcases observeTarget_ok found with ⟨-, rfl⟩ | ⟨name, -, -, rfl⟩
  · cases finds
  · have snapshot : finding.evidenceRefs = ["process_snapshot"] := by
      rcases List.mem_append.mp finds with asleep | faults
      · split at asleep
        · rw [List.mem_singleton.mp asleep]
        · cases asleep
      · split at faults
        · rw [List.mem_singleton.mp faults]
        · cases faults
    rw [snapshot] at refers
    rw [List.mem_singleton.mp refers]
    exact ⟨_, List.mem_cons_of_mem _ List.mem_cons_self, id_of _ _⟩

theorem unsupported_eq_nil_iff (records : List CapabilityRecordV1) :
    unsupported records = [] ↔ ∀ record ∈ records, record.state = "supported" := by
  simp [unsupported, List.filter_eq_nil_iff]

/-- Nothing is missing when the kernel supports everything and the process is still there. -/
theorem exitStatus_bundle (found : observeTarget host target = .ok observed) :
    exitStatus (.ok (host.bundle observed)) = some 0 ↔
      (∀ record ∈ host.capabilities.records, record.state = "supported") ∧
        ∀ name, target = some name →
          (host.collectProcessTelemetry (host.findPidByName name)).name ≠ "" := by
  have complete : exitStatus (.ok (host.bundle observed)) = some 0 ↔
      observed.missing ++ unsupported host.capabilities.records = [] := by
    simp [exitStatus, Host.bundle]
  rw [complete, List.append_eq_nil_iff, unsupported_eq_nil_iff, and_comm]
  refine and_congr_right fun _ => ?_
  rcases observeTarget_ok found with ⟨rfl, rfl⟩ | ⟨name, rfl, -, rfl⟩
  · constructor
    · intro _ name impossible
      cases impossible
    · intro _
      rfl
  · simp [observe]

/-- Whatever the host answers: what is captured is accepted unless the clock went back, can
be filed, refers to its own snapshots, is complete as it says, survives its text, and is the
only capture of its name at that time in that process; and only a missing process stops it. -/
theorem captured_well_formed (host : Host) (target : Option String) :
    match capture host target with
    | .error error => ∃ name, target = some name ∧ host.findPidByName name = 0 ∧
        error = .validation ("process not found: " ++ name)
    | .ok bundle =>
        (bundle.validate = .ok () ↔ nowNs host.startedAt ≤ nowNs host.endedAt) ∧
        CaseStore.path bundle.caseId = .ok (fileName bundle.caseId) ∧
        (∀ finding ∈ bundle.findings, ∀ ref ∈ finding.evidenceRefs,
          ∃ observation ∈ bundle.details.observations, observation.id = some (.string ref)) ∧
        (exitStatus (.ok bundle) = some 0 ↔
          (∀ record ∈ bundle.details.capabilities, record.state = "supported") ∧
            ∀ name, target = some name →
              (host.collectProcessTelemetry (host.findPidByName name)).name ≠ "") ∧
        (∀ floats : FloatText, bundle.reread floats = bundle) ∧
        ∀ other wanted again, capture other wanted = .ok again → again.caseId = bundle.caseId →
          nowNs other.endedAt = nowNs host.endedAt ∧ other.processId = host.processId ∧
            other.caseCounter = host.caseCounter := by
  cases captured : capture host target with
  | error error =>
      dsimp only
      unfold capture at captured
      cases missing : observeTarget host target with
      | error reason =>
          rw [missing] at captured
          cases captured
          exact observeTarget_error missing
      | ok observed =>
          rw [missing] at captured
          cases captured
  | ok bundle =>
      dsimp only
      obtain ⟨observed, found, rfl⟩ := capture_ok captured
      refine ⟨validate_bundle host observed, path_caseId host, ?_, exitStatus_bundle found,
        reread_bundle found, ?_⟩
      · exact fun _ finds _ refers => findings_refer found finds refers
      · intro other wanted again recaptured same
        obtain ⟨seen, -, rfl⟩ := capture_ok recaptured
        exact caseId_injective same

end Captured

/-! ## The command -/

section Asked

variable (store : CaseStore) (codec : BundleCodec DetailsV1)

/-- What may be asked for on stored cases. -/
inductive Asked where
  | evidence (host : Host) (target : Option String)
  | list
  | load (id : String)
  | exportCase (writes : List UInt8 → Bool) (id : String)
  | delete (id : String)

def Asked.program : Asked → Action Unit
  | .evidence host target => do
      let _ ← SystemPilot.Evidence.evidence store codec host target
      pure ()
  | .list => Command.list.program store codec
  | .load id => (Command.load id).program store codec
  | .exportCase writes id => CaseStore.exportCase codec writes id
  | .delete id => CaseStore.delete id

/-- The directory after one command, which ends or is interrupted. -/
def Asked.step (disk : Disk) (entry : Asked × List Surroundings) : Disk :=
  (fileEffects.during entry.2 (entry.1.program store codec) disk).2

/-- A bundle that was captured on request. -/
def Captured (history : List (Asked × List Surroundings)) (bundle : Bundle) : Prop :=
  ∃ host target surroundings, (Asked.evidence host target, surroundings) ∈ history ∧
    capture host target = .ok bundle

variable {store codec} {holds : Bundle → Prop} {disk : Disk}

/-- What `syspilot evidence` comes to. -/
theorem evidence_filed (host : Host) (target : Option String)
    (only : Only (Holding codec holds) disk) :
    fileEffects.Always
      (Only (Holding codec fun held => holds held ∨ capture host target = .ok held))
      (fun result disk =>
        Only (Holding codec fun held => holds held ∨ capture host target = .ok held) disk ∧
          ∀ bundle, result = .ok bundle → capture host target = .ok bundle ∧
            Only (Holding codec (Instead bundle holds)) disk)
      (evidence store codec host target) disk := by
  have kept : Only (Holding codec fun held => holds held ∨ capture host target = .ok held) disk :=
    only.weaken fun _ => .inl
  unfold evidence
  cases captured : capture host target with
  | error error =>
      rw [captured] at kept
      exact ⟨kept, kept, fun _ impossible => by cases impossible⟩
  | ok bundle =>
      have wide (held : Bundle) (besides : Besides bundle holds held) :
          holds held ∨ (Except.ok bundle : AppResult Bundle) = .ok held :=
        besides.imp_right fun same => by rw [same]
      change fileEffects.Always _ _
        (store.save codec bundle >>= fun _ => pure bundle : Action Bundle) disk
      have saves := (@save_filed _ store codec bundle holds disk only).mono
        (fun _ held => held.weaken wide) fun _ _ => id
      refine Effects.always_bind saves ?_
      intro result last filed
      cases result with
      | error stop =>
          exact ⟨filed.1.weaken wide, filed.1.weaken wide, fun _ impossible => by cases impossible⟩
      | ok _ =>
          refine ⟨filed.1.weaken wide, filed.1.weaken wide, fun again same => ?_⟩
          cases same
          exact ⟨rfl, filed.2 rfl⟩

/-- One command leaves what there is, besides what it captures. -/
theorem step_holding {entry : Asked × List Surroundings} {wider : Bundle → Prop}
    (weaker : ∀ held, holds held → wider held)
    (captures : ∀ host target held, entry.1 = .evidence host target →
      capture host target = .ok held → wider held)
    (only : Only (Holding codec holds) disk) :
    Only (Holding codec wider) (Asked.step store codec disk entry) := by
  obtain ⟨asked, surroundings⟩ := entry
  have looking {command : Command DetailsV1} (looks : command.Looks) :
      Only (Holding codec wider)
        (fileEffects.during surroundings (command.program store codec) disk).2 :=
    ((looks_holding only looks).during surroundings).1.weaken weaker
  cases asked with
  | evidence host target =>
      have runs : fileEffects.Always
          (Only (Holding codec fun held => holds held ∨ capture host target = .ok held))
          (fun _ _ => True) ((Asked.evidence host target).program store codec) disk := by
        refine Effects.always_bind ((evidence_filed host target only).mono (fun _ => id)
          fun _ _ filed => filed.1) ?_
        intro result last held
        cases result with
        | error stop => exact ⟨held, trivial⟩
        | ok bundle => exact ⟨held, trivial⟩
      refine (runs.during surroundings).1.weaken fun held may => ?_
      exact may.elim (weaker held) (captures host target held rfl)
  | list => exact @looking .list trivial
  | load id => exact @looking (.load id) trivial
  | exportCase writes id => exact @looking (.exportCase writes id) trivial
  | delete id =>
      have runs := (delete_removed only id).during surroundings
      exact runs.1.weaken weaker

/-- Commands leave what there is, besides what they capture. -/
theorem run_holding (history : List (Asked × List Surroundings))
    (only : Only (Holding codec holds) disk) :
    Only (Holding codec fun held => holds held ∨ Captured history held)
      (Machine.run (Asked.step store codec) disk history) := by
  induction history generalizing disk holds with
  | nil => exact only.weaken fun _ => .inl
  | cons entry history inductionHypothesis =>
      have first : Only (Holding codec fun held => holds held ∨ Captured [entry] held)
          (Asked.step store codec disk entry) := by
        refine step_holding (fun _ => .inl) (fun host target held same captured => ?_) only
        refine .inr ⟨host, target, entry.2, ?_, captured⟩
        rw [← same]
        exact List.mem_singleton_self _
      refine (inductionHypothesis first).weaken fun held may => ?_
      rcases may with (before | ⟨host, target, surroundings, member, captured⟩) | later
      · exact .inl before
      · exact .inr ⟨host, target, surroundings,
          List.mem_cons.mpr (.inl (List.mem_singleton.mp member)), captured⟩
      · obtain ⟨host, target, surroundings, member, captured⟩ := later
        exact .inr ⟨host, target, surroundings, List.mem_cons_of_mem _ member, captured⟩

variable (store)

end Asked

end SystemPilot.Evidence
