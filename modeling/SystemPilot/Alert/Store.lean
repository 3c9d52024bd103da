import Mathlib.Tactic
import SystemPilot.Library.SortedMap
import SystemPilot.Cloud.Database

/-!
# The alert store

`AlertStore`: the state map of one process, the file it is read from once and
rewritten as a whole at every transition, `apply` for lifecycle events and
`set_status` for operator decisions.  A failing step of `persist` leaves the file
as it was.
-/

set_option autoImplicit false

namespace SystemPilot.Alert

open SystemPilot.Library
open SystemPilot.Telemetry
open SystemPilot.Cloud (ProcessAlert)

def alertStateSchemaVersion : Nat := 1

inductive AlertStatus where
  | firing
  | acknowledged
  | resolved
  | suppressed
  deriving DecidableEq, Repr

/-- `format!("{:?}", status).to_lowercase()`. -/
def AlertStatus.text : AlertStatus → String
  | .firing => "firing"
  | .acknowledged => "acknowledged"
  | .resolved => "resolved"
  | .suppressed => "suppressed"

structure AlertRecord where
  instanceId : String
  ruleId : String
  processName : String
  status : AlertStatus
  firstObservedAtUnixNanos : Nat
  lastObservedAtUnixNanos : Nat
  transitionCount : Nat
  detail : String
  deriving DecidableEq, Repr

/-- `AlertStateV1`. -/
structure AlertState where
  schemaVersion : Nat
  records : Std.ExtTreeMap String AlertRecord

/-- The state file as `open` finds it. -/
inductive StateFile where
  | absent
  | unreadable
  | invalid (error : String)
  | state (state : AlertState)

structure AlertStore where
  path : String
  state : AlertState

def AlertStore.open (path : String) (file : StateFile) : AppResult AlertStore := do
  let state ← match file with
    | .state state => .ok state
    | .invalid error =>
        .error (.protocol ("invalid alert state at " ++ path ++ ": " ++ error))
    | .absent => .ok { schemaVersion := alertStateSchemaVersion, records := ∅ }
    | .unreadable => .error (.io "could not read alert state")
  if state.schemaVersion ≠ alertStateSchemaVersion then
    .error (.protocol ("unsupported alert state schema " ++ toString state.schemaVersion ++
      "; expected " ++ toString alertStateSchemaVersion))
  else
    .ok { path, state }

/-- The steps of `persist` that can fail. -/
inductive PersistFault where
  | createDirectory
  | secureDirectory
  | createTemporary
  | write
  | rename
  deriving DecidableEq, Repr

def PersistFault.error : PersistFault → AppError
  | .createDirectory => .io "could not create alert state directory"
  | .secureDirectory => .io "could not secure alert state directory"
  | .createTemporary => .io "could not create temporary alert state"
  | .write => .io "could not persist alert state"
  | .rename => .io "could not commit alert state"

/-- `persist`: the whole map replaces the file. -/
def AlertStore.persist (fault : Option PersistFault) (store : AlertStore) (file : StateFile) :
    StateFile × AppResult Unit :=
  match fault with
  | some fault => (file, .error fault.error)
  | none => (.state store.state, .ok ())

/-- `AlertStore::key`. -/
def alertKey (ruleId processName : String) : String :=
  ruleId ++ ":" ++ processName

/-- `u64::saturating_add` of one. -/
def saturatingSucc (count : Nat) : Nat :=
  min (count + 1) (2 ^ 64 - 1)

/-- The status an event asks for. -/
def desiredStatus (alert : ProcessAlert) : AlertStatus :=
  if alert.eventType = "EXIT" then .resolved else .firing

/-- The three tests of `apply` that end it without a transition. -/
def holdsStill (existing : Option AlertRecord) (desired : AlertStatus) : Bool :=
  (existing.any fun record =>
    record.status == .suppressed || (record.status == .acknowledged && desired == .firing)) ||
  (existing.any fun record => record.status == desired) ||
  (desired == .resolved && existing.isNone)

/-- The record `apply` inserts. -/
def nextRecord (existing : Option AlertRecord) (desired : AlertStatus) (alert : ProcessAlert) :
    AlertRecord where
  instanceId := (existing.map AlertRecord.instanceId).getD
    (alert.ruleId ++ "-" ++ toString alert.observedAtUnixNanos)
  ruleId := alert.ruleId
  processName := alert.processName
  status := desired
  firstObservedAtUnixNanos :=
    (existing.map AlertRecord.firstObservedAtUnixNanos).getD alert.observedAtUnixNanos
  lastObservedAtUnixNanos := alert.observedAtUnixNanos
  transitionCount := (existing.map fun record => saturatingSucc record.transitionCount).getD 1
  detail := alert.eventType ++ " pid=" ++ toString alert.pid ++ " ppid=" ++ toString alert.ppid

namespace AlertStore

/-- The store with a record replaced. -/
def insert (store : AlertStore) (key : String) (record : AlertRecord) : AlertStore :=
  { store with
    state := { store.state with records := store.state.records.insert key record } }

/-- `AlertStore::apply`: the map in memory, the file and the result. -/
def apply (store : AlertStore) (alert : ProcessAlert) (fault : Option PersistFault)
    (file : StateFile) : AlertStore × StateFile × AppResult (Option ProcessAlert) :=
  let key := alertKey alert.ruleId alert.processName
  let desired := desiredStatus alert
  let existing := store.state.records[key]?
  if holdsStill existing desired then (store, file, .ok none)
  else
    let record := nextRecord existing desired alert
    let store := store.insert key record
    match store.persist fault file with
    | (file, .error failure) => (store, file, .error failure)
    | (file, .ok ()) => (store, file, .ok (some { alert with
        instanceId := record.instanceId
        state := desired.text
        previousState := existing.map fun record => record.status.text }))

/-- The first record with an instance id, in the order of the keys. -/
def findInstance (store : AlertStore) (instanceId : String) : Option (String × AlertRecord) :=
  store.state.records.toList.find? fun entry => entry.2.instanceId == instanceId

/-- The record after an operator's decision. -/
def decidedRecord (record : AlertRecord) (status : AlertStatus) (detail : String)
    (observedAt : Nat) : AlertRecord :=
  { record with
    status
    lastObservedAtUnixNanos := observedAt
    transitionCount := saturatingSucc record.transitionCount
    detail }

def setStatus (store : AlertStore) (instanceId : String) (status : AlertStatus) (detail : String)
    (observedAt : Nat) (fault : Option PersistFault) (file : StateFile) :
    AlertStore × StateFile × AppResult AlertRecord :=
  match store.findInstance instanceId with
  | none => (store, file, .error (.validation ("unknown alert instance: " ++ instanceId)))
  | some (key, record) =>
      if record.status = .resolved ∧ status = .acknowledged then
        (store, file, .error (.validation "resolved alerts cannot be acknowledged"))
      else
        let record := decidedRecord record status detail observedAt
        let store := store.insert key record
        match store.persist fault file with
        | (file, .error failure) => (store, file, .error failure)
        | (file, .ok ()) => (store, file, .ok record)

/-- The status of a key in a process's copy. -/
def statusOf (store : AlertStore) (key : String) : Option AlertStatus :=
  (store.state.records[key]?).map AlertRecord.status

end AlertStore

/-- The status of a key in the file. -/
def StateFile.statusOf (file : StateFile) (key : String) : Option AlertStatus :=
  match file with
  | .state held => (held.records[key]?).map AlertRecord.status
  | _ => none

/-! ## What the operations do -/

section Operations

variable (store : AlertStore) (fault : Option PersistFault) (file : StateFile)

theorem statusOf_insert (key other : String) (record : AlertRecord) :
    (store.insert key record).statusOf other =
      if key = other then some record.status else store.statusOf other := by
  unfold AlertStore.statusOf AlertStore.insert
  rw [SortedMap.getElem?_insert]
  split <;> rfl

/-- What `apply` does: nothing, a change in memory only, or a transition. -/
theorem apply_cases (alert : ProcessAlert) :
    let key := alertKey alert.ruleId alert.processName
    let desired := desiredStatus alert
    let existing := store.state.records[key]?
    let changed := store.insert key (nextRecord existing desired alert)
    (holdsStill existing desired = true ∧ store.apply alert fault file = (store, file, .ok none)) ∨
    (holdsStill existing desired = false ∧ ∃ failure, fault = some failure ∧
      store.apply alert fault file = (changed, file, .error failure.error)) ∨
    (holdsStill existing desired = false ∧ fault = none ∧ ∃ emitted,
      store.apply alert fault file = (changed, .state changed.state, .ok (some emitted))) := by
  unfold AlertStore.apply
  dsimp only
  split
  · rename_i still
    exact Or.inl ⟨still, rfl⟩
  · rename_i moves
    have transitions := Bool.eq_false_of_not_eq_true moves
    cases fault with
    | some failure => exact Or.inr (Or.inl ⟨transitions, failure, rfl, rfl⟩)
    | none => exact Or.inr (Or.inr ⟨transitions, rfl, _, rfl⟩)

/-- An operator's decision is refused, or the record it names is changed. -/
theorem setStatus_cases (instanceId : String) (status : AlertStatus) (detail : String)
    (observedAt : Nat) :
    ((∀ key record, store.findInstance instanceId = some (key, record) →
        ¬(record.status = .resolved ∧ status = .acknowledged) → fault ≠ none) ∧
      ∃ failure, (store.setStatus instanceId status detail observedAt fault file).2 =
        (file, .error failure)) ∨
    ∃ key record, store.findInstance instanceId = some (key, record) ∧
      ¬(record.status = .resolved ∧ status = .acknowledged) ∧ fault = none ∧
      (store.setStatus instanceId status detail observedAt fault file).2 =
        (.state (store.insert key (AlertStore.decidedRecord record status detail observedAt)).state,
          .ok (AlertStore.decidedRecord record status detail observedAt)) := by
  unfold AlertStore.setStatus
  cases found : store.findInstance instanceId with
  | none => exact Or.inl ⟨nofun, _, rfl⟩
  | some entry =>
      obtain ⟨key, record⟩ := entry
      dsimp only
      split
      · rename_i refused
        refine Or.inl ⟨?_, _, rfl⟩
        rintro _ _ same allowed
        cases same
        exact absurd refused allowed
      · rename_i allowed
        cases fault with
        | some failure => exact Or.inl ⟨fun _ _ _ _ => nofun, _, rfl⟩
        | none => exact Or.inr ⟨key, record, rfl, allowed, rfl, rfl⟩

end Operations

end SystemPilot.Alert
