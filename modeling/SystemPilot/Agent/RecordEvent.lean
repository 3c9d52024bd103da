import SystemPilot.Library.Machine
import SystemPilot.Alert.Commands
import SystemPilot.Alert.Document
import SystemPilot.Alert.Engine
import SystemPilot.Agent.Publisher
import SystemPilot.Netlink.ProcessTree

/-!
# Alert transitions between the store and the spool

`record_event` with the alert store on its directory and the publisher on its
spool.  The store deduplicates before the spool has the envelope, so a
transition whose persist or publish fails is not raised a second time.
-/

set_option autoImplicit false

namespace SystemPilot.Netlink

open SystemPilot.Json
open SystemPilot.Cloud (integerValue optionalText)

/-- `serde_json::to_value` of an optional integer. -/
def optionalInteger : Option Int → Value
  | none => .null
  | some value => integerValue value

/-- `serde_json::to_value` of a lifecycle event, its fields in the order of the map. -/
def ProcessEvent.toValue (event : ProcessEvent) : Value :=
  .object [
    ("event_type", .string event.eventType),
    ("exit_reason", optionalText event.exitReason),
    ("exit_status", optionalInteger event.exitStatus),
    ("name", .string event.name),
    ("parent_exit_signal", optionalInteger event.parentExitSignal),
    ("pid", integerValue event.pid),
    ("ppid", integerValue event.ppid),
    ("timestamp_ns", .number (.posInt event.timestampNs))]

end SystemPilot.Netlink

namespace SystemPilot.Agent

open SystemPilot.Library
open SystemPilot.Telemetry
open SystemPilot.Spool hiding perform
open SystemPilot.Alert
open SystemPilot.Cloud (ProcessAlert)
open SystemPilot.Netlink (ProcessEvent)

/-- The alert store with its files, the spool, and whether the daemon runs. -/
structure Stores (Bytes State : Type) where
  store : AlertStore
  files : AlertFiles State
  spool : SpoolFiles Bytes
  running : Bool := true

/-- What the environment decides about one alert of an event: whether the lock of
the alert state is poisoned, where `persist` stops, and the moments of `publish`. -/
structure AlertMoments (State : Type) where
  poisoned : Bool := false
  persist : Option (PersistStop State) := none
  publish : PublishMoments

structure EventMoments (State : Type) where
  lifecycle : PublishMoments
  alert : ProcessAlert → AlertMoments State

/-- One write of `record_event`: the lifecycle event, or one evaluated alert. -/
inductive Recording (State : Type) where
  | lifecycle (event : ProcessEvent) (moments : PublishMoments)
  | alert (alert : ProcessAlert) (moments : AlertMoments State)

section Record

variable {Bytes State : Type} (codec : Codec Bytes) (states : StateCodec State)
  (processId : Nat) (publisher : TelemetryPublisher) (engine : ProcessAlertEngine)

/-- A failing publication is logged; nothing else happens to it. -/
def publishTo (moments : PublishMoments) (kind : TelemetryKind) (payload : Json.Value)
    (stores : Stores Bytes State) : Stores Bytes State :=
  match publisher.publish codec moments stores.spool kind (.ok payload) with
  | (spool, .crash) => { stores with spool, running := false }
  | (spool, _) => { stores with spool }

/-- One round of the loop of `record_event`. -/
def recordAlert (moments : AlertMoments State) (stores : Stores Bytes State)
    (alert : ProcessAlert) : Stores Bytes State :=
  if stores.running = false ∨ moments.poisoned then stores
  else match perform states processId moments.persist stores.store stores.files (.apply alert) with
    | (store, files, .ok (.emitted emitted)) =>
        publishTo codec publisher moments.publish .processAlert emitted.toValue
          { stores with store, files }
    | (store, files, .crash) => { stores with store, files, running := false }
    | (store, files, _) => { stores with store, files }

def recordLifecycle (moments : PublishMoments) (stores : Stores Bytes State)
    (event : ProcessEvent) : Stores Bytes State :=
  if stores.running then
    publishTo codec publisher moments .processLifecycle event.toValue stores
  else stores

/-- `record_event` up to the bounded queue, which neither store depends on. -/
def recordEvent (stores : Stores Bytes State) (occurred : ProcessEvent × EventMoments State) :
    Stores Bytes State :=
  let (event, moments) := occurred
  (engine.evaluate event.name event.pid event.ppid event.eventType event.timestampNs).foldl
    (fun stores alert =>
      recordAlert codec states processId publisher (moments.alert alert) stores alert)
    (recordLifecycle codec publisher moments.lifecycle stores event)

def recordStep (stores : Stores Bytes State) : Recording State → Stores Bytes State
  | .lifecycle event moments => recordLifecycle codec publisher moments stores event
  | .alert alert moments => recordAlert codec states processId publisher moments stores alert

/-- The writes of one event, in their order. -/
def recordings (occurred : ProcessEvent × EventMoments State) : List (Recording State) :=
  let (event, moments) := occurred
  .lifecycle event moments.lifecycle ::
    (engine.evaluate event.name event.pid event.ppid event.eventType event.timestampNs).map
      fun alert => .alert alert (moments.alert alert)

theorem recordEvent_eq_run (stores : Stores Bytes State)
    (occurred : ProcessEvent × EventMoments State) :
    recordEvent codec states processId publisher engine stores occurred =
      Machine.run (recordStep codec states processId publisher) stores
        (recordings engine occurred) := by
  obtain ⟨event, moments⟩ := occurred
  simp only [recordEvent, recordings, Machine.run, List.foldl_cons, List.foldl_map]
  rfl

/-- A run over events is the run over their writes. -/
theorem run_recordEvent (stores : Stores Bytes State)
    (events : List (ProcessEvent × EventMoments State)) :
    Machine.run (recordEvent codec states processId publisher engine) stores events =
      Machine.run (recordStep codec states processId publisher) stores
        (events.flatMap (recordings engine)) := by
  induction events generalizing stores with
  | nil => rfl
  | cons occurred rest inductionHypothesis =>
      rw [Machine.run_cons, List.flatMap_cons, Machine.run_append, ← recordEvent_eq_run,
        inductionHypothesis]

/-! ## Transitions that are not lost -/

/-- A step of `persist` may fail, but none ends the process. -/
def AlertMoments.Lives (moments : AlertMoments State) : Prop :=
  ∀ point, moments.persist = some point → point.Ends = false

/-- The new status is in memory and in the state file. -/
def StoredStatus (stores : Stores Bytes State) (key : String) (status : AlertStatus) : Prop :=
  stores.store.statusOf key = some status ∧
    (stateFile states stores.files).statusOf key = some status

/-- A record came into the spool that carries the transition. -/
def Carried (emitted : ProcessAlert) (before after : SpoolFiles Bytes) : Prop :=
  ∃ (sequence : Nat) (file : StoredFile Bytes) (record : TelemetryEnvelope),
    before.records[recordName sequence]? = none ∧
      after.records[recordName sequence]? = some file ∧
      decodeRecord codec file.content = some record ∧ record.kind = .processAlert ∧
      record.payload = redactValue publisher.redaction emitted.toValue

/-- A later event that asks for the status of this one raises the transition. -/
def EmitsLater (stores : Stores Bytes State) (alert : ProcessAlert) : Prop :=
  ∀ later : ProcessAlert, later.ruleId = alert.ruleId → later.processName = alert.processName →
    desiredStatus later = desiredStatus alert → ∃ emitted,
      (perform states processId none stores.store stores.files (.apply later)).2.2 =
        .ok (.emitted emitted)

/-- A transition is in both stores, or in neither and raised again. -/
def TransitionKept (stores : Stores Bytes State) (recording : Recording State) : Prop :=
  ∀ alert moments key record emitted, recording = .alert alert moments → moments.Lives →
    stores.running = true → moments.poisoned = false →
    Command.plan stores.store (.apply alert) = .insert key record (.emitted emitted) →
      let after := recordStep codec states processId publisher stores recording
      (StoredStatus states after key record.status ∧
          Carried codec publisher emitted stores.spool after.spool) ∨
        (¬ StoredStatus states after key record.status ∧
          ¬ Carried codec publisher emitted stores.spool after.spool ∧
          EmitsLater states processId after alert)

/-- Every step of `publish` up to the appended record goes through. -/
def PublishWrites (moments : PublishMoments) (files : SpoolFiles Bytes) (kind : TelemetryKind)
    (payload : Json.Value) : Prop :=
  publisher.sender = true ∧ ∃ spool current total, publisher.spool = some spool ∧
    moments.reserve.faults.readSequence = false ∧ moments.reserve.faults.write = none ∧
    temporaryName spool.processId sequenceName ∉ files.root ∧
    readSequence files.root = .ok current ∧ current + 1 < 2 ^ 64 ∧
    let envelope := publisher.envelope (current + 1) moments.observedAtUnixNanos kind
      (redactValue publisher.redaction payload)
    envelope.Valid ∧
      stats codec spool moments.append.faults moments.append.clock files = .ok total ∧
      saturatingAdd total.bytes (codec.len (codec.toVec envelope)) ≤ spool.maxBytes ∧
      recordName envelope.sequence ∉ files.records ∧ moments.append.faults.write = none ∧
      temporaryName spool.processId (recordName envelope.sequence) ∉ files.records

/-- Nothing of the transition fails: `persist` is not stopped and finds no
temporary file in its way, and its publication is written. -/
def TransitionGoesThrough (stores : Stores Bytes State) (recording : Recording State) : Prop :=
  ∀ alert moments key record emitted, recording = .alert alert moments → moments.Lives →
    stores.running = true → moments.poisoned = false →
    Command.plan stores.store (.apply alert) = .insert key record (.emitted emitted) →
      moments.persist = none ∧ temporaryName processId alertStateName ∉ stores.files ∧
        PublishWrites codec publisher moments.publish stores.spool .processAlert emitted.toValue

/-! ## What `publish` adds -/

/-- The files after a reservation. -/
def counted (files : SpoolFiles Bytes) (sequence clock : Nat) : SpoolFiles Bytes :=
  { files with root := files.root.insert sequenceName ⟨Nat.repr sequence, clock⟩ }

variable {codec publisher}

theorem nextSequence_reserves {spool : DiskSpool} {moment : Moment} {files after : SpoolFiles Bytes}
    {next : Nat}
    (reserved : nextSequence spool moment.faults moment.clock files = (after, .ok next)) :
    after = counted files next moment.clock ∧ ∃ current, readSequence files.root = .ok current ∧
      current + 1 < 2 ^ 64 ∧ next = current + 1 := by
  rcases nextSequence_cases spool moment.faults moment.clock files with
    ⟨current, counter, bound, exact_⟩ | ⟨fails, _⟩
  · rw [reserved] at exact_
    cases exact_
    exact ⟨rfl, current, counter, bound, rfl⟩
  · exact absurd (by rw [reserved]) (fails next)

theorem publish_writes {moments : PublishMoments} {files : SpoolFiles Bytes} {kind : TelemetryKind}
    {payload : Json.Value} (writes : PublishWrites codec publisher moments files kind payload) :
    ∃ (sequence : Nat) (file : StoredFile Bytes) (record : TelemetryEnvelope),
      files.records[recordName sequence]? = none ∧
        (publisher.publish codec moments files kind (.ok payload)).1.records[recordName sequence]? =
          some file ∧
        file.content = codec.toVec record ∧ record.Valid ∧ record.kind = kind ∧
        record.payload = redactValue publisher.redaction payload := by
  obtain ⟨wired, spool, current, total, opened, readable, whole, clear, counter, bound, valid,
    inspected, room, fresh, appends, vacant⟩ := writes
  have reserved : nextSequence spool moments.reserve.faults moments.reserve.clock files =
      (counted files (current + 1) moments.reserve.clock, .ok (current + 1)) := by
    obtain ⟨next, succeeds⟩ := (nextSequence_ok_iff spool moments.reserve.faults
      moments.reserve.clock files).mpr ⟨readable, whole, clear, current, counter, bound⟩
    obtain ⟨after, other, found, _, rfl⟩ := nextSequence_reserves (Prod.ext rfl succeeds)
    rw [counter] at found
    cases found
    exact Prod.ext after succeeds
  have appended := (append_ok_iff codec spool moments.append.faults moments.append.clock
    (counted files (current + 1) moments.reserve.clock)
    (publisher.envelope (current + 1) moments.observedAtUnixNanos kind
      (redactValue publisher.redaction payload))).mpr
    ⟨valid, ⟨total, inspected, room⟩, fresh, appends, vacant⟩
  rcases append_cases codec spool moments.append.faults moments.append.clock
    (counted files (current + 1) moments.reserve.clock)
    (publisher.envelope (current + 1) moments.observedAtUnixNanos kind
      (redactValue publisher.redaction payload)) with ⟨_, vacated, exact_⟩ | ⟨fails, _⟩
  · refine ⟨current + 1, ⟨_, moments.append.clock⟩, _, vacated, ?_, rfl, valid, rfl, rfl⟩
    unfold TelemetryPublisher.publish TelemetryPublisher.reserve
    rw [if_neg (by simp [wired]), opened]
    simp only [reserved, exact_]
    split <;> exact Std.ExtTreeMap.getElem?_insert_self
  · exact absurd appended fails

/-- An append that fails leaves every record as it was. -/
theorem append_fails_records {spool : DiskSpool} {faults : Faults} {clock : Nat}
    {files : SpoolFiles Bytes} {envelope : TelemetryEnvelope}
    (fails : (append codec spool faults clock files envelope).2 ≠ .ok ()) (sequence : Nat) :
    (append codec spool faults clock files envelope).1.records[recordName sequence]? =
      files.records[recordName sequence]? := by
  rcases append_cases codec spool faults clock files envelope with
    ⟨_, _, exact_⟩ | ⟨_, same | ⟨name, content, other, same⟩⟩
  · rw [exact_] at fails
    exact absurd rfl fails
  · rw [same]
  · rw [same]
    refine SortedMap.getElem?_insert_of_ne _ _ ?_
    rintro rfl
    rw [isRecordName_recordName] at other
    cases other

/-- A publication that does not go through adds no record. -/
theorem publish_adds_nothing {moments : PublishMoments} {files : SpoolFiles Bytes}
    {kind : TelemetryKind} {payload : Json.Value}
    (stopped : ¬ PublishWrites codec publisher moments files kind payload) (sequence : Nat) :
    (publisher.publish codec moments files kind (.ok payload)).1.records[recordName sequence]? =
      files.records[recordName sequence]? := by
  unfold TelemetryPublisher.publish TelemetryPublisher.reserve
  by_cases wired : publisher.sender = false
  · rw [if_pos wired]
  rw [if_neg wired]
  cases opened : publisher.spool with
  | none => rfl
  | some spool =>
      obtain ⟨kept, _⟩ :=
        nextSequence_records spool moments.reserve.faults moments.reserve.clock files
      dsimp only
      rcases outcome : nextSequence spool moments.reserve.faults moments.reserve.clock files with
        ⟨after, next | failure | _⟩
      · obtain ⟨rfl, current, counter, bound, rfl⟩ := nextSequence_reserves outcome
        obtain ⟨readable, whole, clear, _⟩ := (nextSequence_ok_iff spool moments.reserve.faults
          moments.reserve.clock files).mp ⟨_, by rw [outcome]⟩
        have fails : (append codec spool moments.append.faults moments.append.clock
            (counted files (current + 1) moments.reserve.clock)
            (publisher.envelope (current + 1) moments.observedAtUnixNanos kind
              (redactValue publisher.redaction payload))).2 ≠ .ok () := by
          intro succeeds
          obtain ⟨valid, ⟨total, inspected, room⟩, fresh, appends, vacant⟩ :=
            (append_ok_iff codec spool moments.append.faults moments.append.clock _ _).mp succeeds
          exact stopped ⟨by simpa using wired, spool, current, total, opened, readable, whole,
            clear, counter, bound, valid, inspected, room, fresh, appends, vacant⟩
        have records := append_fails_records fails sequence
        dsimp only
        rcases ended : append codec spool moments.append.faults moments.append.clock
            (counted files (current + 1) moments.reserve.clock)
            (publisher.envelope (current + 1) moments.observedAtUnixNanos kind
              (redactValue publisher.redaction payload)) with ⟨last, done | failure | _⟩
        · rw [ended] at fails
          exact absurd rfl fails
        · rw [ended] at records
          exact records
        · rw [ended] at records
          exact records
      · rw [outcome] at kept
        dsimp only at kept ⊢
        rw [kept]
      · rw [outcome] at kept
        dsimp only at kept ⊢
        rw [kept]

/-! ## Runs -/

variable {states processId}

theorem plan_apply_insert {store : AlertStore} {alert : ProcessAlert} {key : String}
    {record : AlertRecord} {answer : Answer}
    (planned : Command.plan store (.apply alert) = .insert key record answer) :
    key = alertKey alert.ruleId alert.processName ∧ record.status = desiredStatus alert := by
  unfold Command.plan at planned
  dsimp only at planned
  split at planned
  · cases planned
  · cases planned
    exact ⟨rfl, rfl⟩

/-- Once the status is in memory the same event raises nothing. -/
theorem plan_repeated {store : AlertStore} {alert : ProcessAlert} {key : String}
    {record : AlertRecord} {answer : Answer}
    (planned : Command.plan store (.apply alert) = .insert key record answer) :
    Command.plan (store.insert key record) (.apply alert) = .unchanged := by
  obtain ⟨rfl, status⟩ := plan_apply_insert planned
  have found : (store.insert (alertKey alert.ruleId alert.processName) record).state.records[
      alertKey alert.ruleId alert.processName]? = some record :=
    Std.ExtTreeMap.getElem?_insert_self
  have still : holdsStill (some record) (desiredStatus alert) = true := by
    simp [holdsStill, status]
  unfold Command.plan
  dsimp only
  rw [found, if_pos still]

variable (codec publisher) in
theorem publishTo_stores (moments : PublishMoments) (kind : TelemetryKind) (payload : Json.Value)
    (stores : Stores Bytes State) :
    let after := publishTo codec publisher moments kind payload stores
    after.store = stores.store ∧ after.files = stores.files ∧
      after.spool = (publisher.publish codec moments stores.spool kind (.ok payload)).1 := by
  unfold publishTo
  split
  · rename_i spool crashed
    exact ⟨rfl, rfl, by rw [crashed]⟩
  · rename_i spool outcome _ ended
    exact ⟨rfl, rfl, by rw [ended]⟩

variable (codec publisher) in
/-- An alert whose `persist` succeeds goes to the publisher. -/
theorem recordAlert_persisted (faithful : states.Faithful) {moments : AlertMoments State}
    {stores : Stores Bytes State} {alert : ProcessAlert} {key : String} {record : AlertRecord}
    {emitted : ProcessAlert} (running : stores.running = true) (locked : moments.poisoned = false)
    (planned : Command.plan stores.store (.apply alert) = .insert key record (.emitted emitted))
    (whole : moments.persist = none)
    (clear : temporaryName processId alertStateName ∉ stores.files) :
    let after := recordAlert codec states processId publisher moments stores alert
    StoredStatus states after key record.status ∧
      after.spool = (publisher.publish codec moments.publish stores.spool .processAlert
        (.ok emitted.toValue)).1 := by
  have persisted : persistUntil states processId none (stores.store.insert key record)
      stores.files = (stores.files.insert alertStateName
        (states.toVecPretty (stores.store.insert key record).state), .ok ()) := by
    rw [persistUntil]
    simp only [Library.Replacement.replace_clear clear]
    rfl
  unfold recordAlert
  rw [if_neg (by simp [running, locked])]
  simp only [perform, planned, whole, persisted, Outcome.map]
  obtain ⟨store, files, spool⟩ := publishTo_stores codec publisher
    moments.publish .processAlert emitted.toValue
    { stores with
      store := stores.store.insert key record
      files := stores.files.insert alertStateName
        (states.toVecPretty (stores.store.insert key record).state) }
  refine ⟨?_, spool⟩
  unfold StoredStatus
  rw [store, files, stateFile_insert faithful]
  have held : (stores.store.insert key record).statusOf key = some record.status := by
    rw [statusOf_insert, if_pos rfl]
  exact ⟨held, held⟩

variable (codec publisher) in
/-- An alert whose `persist` fails stays in memory only. -/
theorem recordAlert_failed {moments : AlertMoments State} {stores : Stores Bytes State}
    {alert : ProcessAlert} {key : String} {record : AlertRecord} {emitted : ProcessAlert}
    (running : stores.running = true) (locked : moments.poisoned = false)
    (planned : Command.plan stores.store (.apply alert) = .insert key record (.emitted emitted))
    (fails : PersistFails processId moments.persist stores.files) :
    let after := recordAlert codec states processId publisher moments stores alert
    after.store = stores.store.insert key record ∧ after.spool = stores.spool := by
  obtain ⟨failure, failed⟩ := (persistUntil_error_iff processId moments.persist
    (stores.store.insert key record) stores.files).mpr fails
  rcases persisted : persistUntil states processId moments.persist
      (stores.store.insert key record) stores.files with ⟨files, outcome⟩
  rw [persisted] at failed
  dsimp only at failed
  subst failed
  unfold recordAlert
  rw [if_neg (by simp [running, locked])]
  constructor <;> simp only [perform, planned, persisted, Outcome.map]

/-- One write keeps its transition exactly when all of it goes through. -/
theorem transition_kept_iff (faithful : codec.Faithful) (stateFaithful : states.Faithful)
    (stores : Stores Bytes State) (recording : Recording State) :
    TransitionKept codec states processId publisher stores recording ↔
      TransitionGoesThrough codec processId publisher stores recording := by
  constructor
  · intro kept alert moments key record emitted recorded lives running locked planned
    have outcome := kept alert moments key record emitted recorded lives running locked planned
    subst recorded
    by_cases fails : PersistFails processId moments.persist stores.files
    · obtain ⟨memory, spool⟩ := recordAlert_failed codec publisher
        running locked planned fails
      rcases outcome with ⟨_, carried⟩ | ⟨_, _, later⟩
      · obtain ⟨sequence, file, read, vacant, found, _⟩ := carried
        rw [recordStep, spool, vacant] at found
        cases found
      · obtain ⟨again, answered⟩ := later alert rfl rfl rfl
        simp only [recordStep, memory, perform, plan_repeated planned] at answered
        cases answered
    · rw [PersistFails, not_or] at fails
      have whole : moments.persist = none := by
        rw [Option.eq_none_iff_forall_ne_some]
        exact fun point stopped => fails.1 ⟨point, stopped, lives point stopped⟩
      have clear : temporaryName processId alertStateName ∉ stores.files :=
        fun present => fails.2 ⟨present, by simp [whole]⟩
      refine ⟨whole, clear, ?_⟩
      obtain ⟨stored, spool⟩ := recordAlert_persisted codec publisher
        stateFaithful running locked planned whole clear
      rcases outcome with ⟨_, carried⟩ | ⟨unstored, _⟩
      · by_contra stopped
        obtain ⟨sequence, file, read, vacant, found, _⟩ := carried
        rw [recordStep, spool, publish_adds_nothing stopped, vacant] at found
        cases found
      · exact absurd stored unstored
  · intro through alert moments key record emitted recorded lives running locked planned
    obtain ⟨whole, clear, writes⟩ :=
      through alert moments key record emitted recorded lives running locked planned
    subst recorded
    obtain ⟨stored, spool⟩ := recordAlert_persisted codec publisher
      stateFaithful running locked planned whole clear
    obtain ⟨sequence, file, read, vacant, found, content, valid, kind, payload⟩ :=
      publish_writes writes
    refine Or.inl ⟨stored, sequence, file, read, vacant, ?_, ?_, kind, payload⟩
    · rw [recordStep, spool]
      exact found
    · have accepted := read.validate_ok_iff.mpr valid
      rw [decodeRecord, content, faithful read]
      dsimp only
      rw [accepted]

end Record

/-! ## One alert of a small agent -/

def workerEngine : ProcessAlertEngine where
  rules := [{ id := "rule", processName := "worker", enabled := true }]
  checked := rfl

def workerPublisher : TelemetryPublisher where
  sender := true
  nodeId := "node"
  spool := some { maxBytes := 4096, maxAgeSecs := 60, processId := 7 }

def workerExec : ProcessEvent where
  timestampNs := 1700000000000000000
  eventType := "EXEC"
  pid := 10
  ppid := 1
  name := "worker"

def emptyStores : Stores TelemetryEnvelope AlertState where
  store := { path := "alerts-v1.json", state := { schemaVersion := 1, records := ∅ } }
  files := ∅
  spool := {}

/-- The moments of an event whose alert meets this fate. -/
def workerMoments (persist : Option (PersistStop AlertState)) : EventMoments AlertState where
  lifecycle := ⟨plainMoment, 1700000000000000000, plainMoment, plainMoment⟩
  alert _ := {
    persist
    publish := ⟨plainMoment, 1700000000000000000, plainMoment, plainMoment⟩ }

def workerAlert : ProcessAlert where
  ruleId := "rule"
  processName := "worker"
  pid := 10
  ppid := 1
  eventType := "EXEC"
  observedAtUnixNanos := 1700000000000000000
  labels := ∅

theorem workerAlert_raised :
    workerEngine.evaluate workerExec.name workerExec.pid workerExec.ppid workerExec.eventType
      workerExec.timestampNs = [workerAlert] := by
  decide +kernel

/-- The stores once the lifecycle event is published. -/
def announcedStores (persist : Option (PersistStop AlertState)) :
    Stores TelemetryEnvelope AlertState :=
  recordLifecycle plainCodec workerPublisher (workerMoments persist).lifecycle emptyStores workerExec

theorem announcedStores_store (persist : Option (PersistStop AlertState)) :
    (announcedStores persist).store = emptyStores.store ∧
      (announcedStores persist).files = ∅ := by
  obtain ⟨store, files, _⟩ := publishTo_stores plainCodec workerPublisher
    (workerMoments persist).lifecycle .processLifecycle workerExec.toValue emptyStores
  have running : emptyStores.running = true := rfl
  unfold announcedStores recordLifecycle
  rw [if_pos running]
  exact ⟨store, files⟩

theorem workerAlert_visited (persist : Option (PersistStop AlertState)) :
    Machine.visited (recordStep plainCodec plainStates 7 workerPublisher) emptyStores
        ([(workerExec, workerMoments persist)].flatMap (recordings workerEngine)) =
      [(emptyStores, .lifecycle workerExec (workerMoments persist).lifecycle),
        (announcedStores persist, .alert workerAlert ((workerMoments persist).alert workerAlert))] := by
  simp only [List.flatMap_cons, List.flatMap_nil, List.append_nil, recordings, workerAlert_raised,
    List.map_cons, List.map_nil, Machine.visited]
  rfl

theorem workerAlert_planned (persist : Option (PersistStop AlertState)) :
    ∃ record emitted, Command.plan (announcedStores persist).store (.apply workerAlert) =
      .insert "rule:worker" record (.emitted emitted) := by
  rw [(announcedStores_store persist).1]
  exact ⟨_, _, rfl⟩

end SystemPilot.Agent
