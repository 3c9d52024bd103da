import SystemPilot.Alert.Store
import SystemPilot.Spool.Recovery

/-!
# Alert transitions on a directory

`apply` and `set_status` with `persist` writing into the directory of the state
file, stopped at any of its steps.  Both change the map in memory before they
persist it and do not take the change back when that fails.
-/

set_option autoImplicit false

namespace SystemPilot.Alert

open SystemPilot.Library
open SystemPilot.Library.Replacement
open SystemPilot.Telemetry
open SystemPilot.Cloud (ProcessAlert)
open SystemPilot.Spool (Outcome temporaryName)

/-- `serde_json::to_vec_pretty` of a state, and `open` reading the bytes back. -/
structure StateCodec (Bytes : Type) where
  toVecPretty : AlertState → Bytes
  fromStr : Bytes → StateFile

/-- A state reads back as it was written. -/
def StateCodec.Faithful {Bytes : Type} (codec : StateCodec Bytes) : Prop :=
  ∀ state, codec.fromStr (codec.toVecPretty state) = .state state

theorem StateCodec.Faithful.injective {Bytes : Type} {codec : StateCodec Bytes}
    (faithful : codec.Faithful) : Function.Injective codec.toVecPretty := by
  intro left right same
  have read := congrArg codec.fromStr same
  rw [faithful left, faithful right] at read
  exact StateFile.state.inj read

/-- States kept as they are. -/
def plainStates : StateCodec AlertState where
  toVecPretty := id
  fromStr := .state

/-- The file name of `default_path`. -/
def alertStateName : String := "alerts-v1.json"

/-- The files beside the state file. -/
abbrev AlertFiles (Bytes : Type) := Std.ExtTreeMap String Bytes

/-- Where `persist` stops: before its write, or inside it. -/
inductive PersistStop (Bytes : Type) where
  | createDirectory
  | secureDirectory
  | replacing (stop : Stop Bytes)
  deriving DecidableEq

namespace PersistStop

variable {Bytes : Type}

def Leaves : PersistStop Bytes → Bool
  | .replacing stop => stop.Leaves
  | .createDirectory | .secureDirectory => false

def Ends : PersistStop Bytes → Bool
  | .replacing stop => stop.Ends
  | .createDirectory | .secureDirectory => false

/-- The new state is in its place. -/
def commits : Option (PersistStop Bytes) → Bool
  | none | some (.replacing .endAfter) => true
  | _ => false

end PersistStop

def persistFailure : Step → AppError
  | .create => .io "could not create temporary alert state"
  | .write => .io "could not persist alert state"
  | .rename => .io "could not commit alert state"

def persistOutcome {α : Type} (result : Result) (value : α) : Outcome α :=
  match result with
  | .done => .ok value
  | .failed step => .error (persistFailure step)
  | .ended => .crash

/-! ## What a command does -/

inductive Command where
  | apply (alert : ProcessAlert)
  | setStatus (instanceId : String) (status : AlertStatus) (detail : String) (observedAt : Nat)
  deriving DecidableEq

inductive Answer where
  | unchanged
  | emitted (alert : ProcessAlert)
  | decided (record : AlertRecord)
  deriving DecidableEq

/-- A command up to `persist`: refused, without a transition, or with the record
it puts under its key. -/
inductive Plan where
  | refused (failure : AppError)
  | unchanged
  | insert (key : String) (record : AlertRecord) (answer : Answer)
  deriving DecidableEq

def Command.plan (store : AlertStore) : Command → Plan
  | .apply alert =>
      let key := alertKey alert.ruleId alert.processName
      let desired := desiredStatus alert
      let existing := store.state.records[key]?
      if holdsStill existing desired then .unchanged
      else
        let record := nextRecord existing desired alert
        .insert key record (.emitted { alert with
          instanceId := record.instanceId
          state := desired.text
          previousState := existing.map fun record => record.status.text })
  | .setStatus instanceId status detail observedAt =>
      match store.findInstance instanceId with
      | none => .refused (.validation ("unknown alert instance: " ++ instanceId))
      | some (key, record) =>
          if record.status = .resolved ∧ status = .acknowledged then
            .refused (.validation "resolved alerts cannot be acknowledged")
          else
            let record := AlertStore.decidedRecord record status detail observedAt
            .insert key record (.decided record)

section Perform

variable {Bytes : Type} (codec : StateCodec Bytes)

def stateFile (files : AlertFiles Bytes) : StateFile :=
  match files[alertStateName]? with
  | none => .absent
  | some bytes => codec.fromStr bytes

def persistUntil (processId : Nat) (stop : Option (PersistStop Bytes)) (store : AlertStore)
    (files : AlertFiles Bytes) : AlertFiles Bytes × Outcome Unit :=
  match stop with
  | some .createDirectory => (files, .error (.io "could not create alert state directory"))
  | some .secureDirectory => (files, .error (.io "could not secure alert state directory"))
  | some (.replacing stop) =>
      let replaced := replace (temporaryName processId alertStateName) alertStateName
        (codec.toVecPretty store.state) (some stop) files
      (replaced.1, persistOutcome replaced.2 ())
  | none =>
      let replaced := replace (temporaryName processId alertStateName) alertStateName
        (codec.toVecPretty store.state) none files
      (replaced.1, persistOutcome replaced.2 ())

/-- A command of the process with this copy of the store. -/
def perform (processId : Nat) (stop : Option (PersistStop Bytes)) (store : AlertStore)
    (files : AlertFiles Bytes) (command : Command) :
    AlertStore × AlertFiles Bytes × Outcome Answer :=
  match command.plan store with
  | .refused failure => (store, files, .error failure)
  | .unchanged => (store, files, .ok .unchanged)
  | .insert key record answer =>
      let changed := store.insert key record
      let persisted := persistUntil codec processId stop changed files
      (changed, persisted.1, persisted.2.map fun _ => answer)

/-! ## The directory behind the state file -/

def outcomeOf {α : Type} : AppResult α → Outcome α
  | .ok value => .ok value
  | .error failure => .error failure

/-- The failure a stop comes to when the process goes on. -/
def PersistStop.fault : PersistStop Bytes → Option PersistFault
  | .createDirectory => some .createDirectory
  | .secureDirectory => some .secureDirectory
  | .replacing .create => some .createTemporary
  | .replacing (.write _ _) => some .write
  | .replacing .rename => some .rename
  | .replacing _ => none

variable {codec}

theorem temporaryName_alertStateName_ne (processId : Nat) :
    temporaryName processId alertStateName ≠ alertStateName := by
  intro same
  have split : Spool.splitExtension alertStateName =
      ("alerts-v1".toList, some "json".toList) := by decide
  have texts := congrArg String.toList same
  rw [temporaryName, Spool.withExtension, split, String.toList_ofList] at texts
  have suffixes : '.' :: ("tmp-" ++ Nat.repr processId).toList = ".json".toList :=
    @List.append_cancel_left _ "alerts-v1".toList _ _ texts
  rw [String.toList_append] at suffixes
  cases suffixes

theorem stateFile_insert (faithful : codec.Faithful) (files : AlertFiles Bytes)
    (state : AlertState) :
    stateFile codec (files.insert alertStateName (codec.toVecPretty state)) = .state state := by
  rw [stateFile, Std.ExtTreeMap.getElem?_insert_self]
  exact faithful state

theorem stateFile_temporary (files : AlertFiles Bytes) (processId : Nat) (bytes : Bytes) :
    stateFile codec (files.insert (temporaryName processId alertStateName) bytes) =
      stateFile codec files := by
  rw [stateFile, SortedMap.getElem?_insert_of_ne _ _ (temporaryName_alertStateName_ne processId),
    stateFile]

/-- With no temporary file in the way `persist` does to the directory what it
does to the state file. -/
theorem persistUntil_refines (faithful : codec.Faithful) (processId : Nat)
    (stop : Option (PersistStop Bytes)) (stays : ∀ point, stop = some point → point.Ends = false)
    (store : AlertStore) (files : AlertFiles Bytes)
    (clear : temporaryName processId alertStateName ∉ files) :
    let persisted := persistUntil codec processId stop store files
    (stateFile codec persisted.1, persisted.2) =
      let held := store.persist (stop.bind PersistStop.fault) (stateFile codec files)
      (held.1, outcomeOf held.2) := by
  have whole : replace (temporaryName processId alertStateName) alertStateName
      (codec.toVecPretty store.state) none files = _ := replace_clear clear
  cases stop with
  | none =>
      simp only [persistUntil, whole, stateFile_insert faithful]
      rfl
  | some point =>
      have lives := stays point rfl
      cases point with
      | createDirectory => rfl
      | secureDirectory => rfl
      | replacing stop =>
          cases stop with
          | create => rfl
          | endBefore => cases lives
          | endInside written => cases lives
          | endAfter => cases lives
          | rename =>
              simp only [persistUntil, replace, if_neg clear, stateFile_temporary]
              rfl
          | write written removed =>
              cases removed with
              | true =>
                  simp only [persistUntil, replace, if_neg clear]
                  rfl
              | false =>
                  simp only [persistUntil, replace, if_neg clear, stateFile_temporary]
                  rfl

def answerOfEmission : Option ProcessAlert → Answer
  | none => .unchanged
  | some alert => .emitted alert

/-- `apply` on the directory does what it does on the state file. -/
theorem perform_apply (faithful : codec.Faithful) (processId : Nat)
    (stop : Option (PersistStop Bytes)) (stays : ∀ point, stop = some point → point.Ends = false)
    (store : AlertStore) (files : AlertFiles Bytes)
    (clear : temporaryName processId alertStateName ∉ files) (alert : ProcessAlert) :
    let performed := perform codec processId stop store files (.apply alert)
    let applied := store.apply alert (stop.bind PersistStop.fault) (stateFile codec files)
    performed.1 = applied.1 ∧ stateFile codec performed.2.1 = applied.2.1 ∧
      performed.2.2 = outcomeOf (applied.2.2.map answerOfEmission) := by
  unfold perform Command.plan AlertStore.apply
  dsimp only
  by_cases still : holdsStill (store.state.records[alertKey alert.ruleId alert.processName]?)
      (desiredStatus alert) = true
  · rw [if_pos still, if_pos still]
    exact ⟨rfl, rfl, rfl⟩
  · rw [if_neg still, if_neg still]
    have same := persistUntil_refines faithful processId stop stays
      (store.insert (alertKey alert.ruleId alert.processName)
        (nextRecord (store.state.records[alertKey alert.ruleId alert.processName]?)
          (desiredStatus alert) alert)) files clear
    dsimp only at same ⊢
    rcases held : AlertStore.persist (stop.bind PersistStop.fault) _ (stateFile codec files) with
      ⟨file, failure | done⟩
    all_goals
      rw [held] at same
      obtain ⟨sameFile, sameOutcome⟩ := Prod.ext_iff.mp same
      refine ⟨rfl, sameFile, ?_⟩
      dsimp only at sameOutcome ⊢
      rw [sameOutcome]
      rfl

/-- `set_status` on the directory does what it does on the state file. -/
theorem perform_setStatus (faithful : codec.Faithful) (processId : Nat)
    (stop : Option (PersistStop Bytes)) (stays : ∀ point, stop = some point → point.Ends = false)
    (store : AlertStore) (files : AlertFiles Bytes)
    (clear : temporaryName processId alertStateName ∉ files) (instanceId : String)
    (status : AlertStatus) (detail : String) (observedAt : Nat) :
    let performed := perform codec processId stop store files
      (.setStatus instanceId status detail observedAt)
    let decided := store.setStatus instanceId status detail observedAt
      (stop.bind PersistStop.fault) (stateFile codec files)
    performed.1 = decided.1 ∧ stateFile codec performed.2.1 = decided.2.1 ∧
      performed.2.2 = outcomeOf (decided.2.2.map Answer.decided) := by
  unfold perform Command.plan AlertStore.setStatus
  dsimp only
  cases found : store.findInstance instanceId with
  | none => exact ⟨rfl, rfl, rfl⟩
  | some entry =>
      obtain ⟨key, record⟩ := entry
      dsimp only
      by_cases refused : record.status = .resolved ∧ status = .acknowledged
      · rw [if_pos refused, if_pos refused]
        exact ⟨rfl, rfl, rfl⟩
      · rw [if_neg refused, if_neg refused]
        have same := persistUntil_refines faithful processId stop stays
          (store.insert key (AlertStore.decidedRecord record status detail observedAt)) files clear
        dsimp only at same ⊢
        rcases held : AlertStore.persist (stop.bind PersistStop.fault) _ (stateFile codec files) with
          ⟨file, failure | done⟩
        all_goals
          rw [held] at same
          obtain ⟨sameFile, sameOutcome⟩ := Prod.ext_iff.mp same
          refine ⟨rfl, sameFile, ?_⟩
          dsimp only at sameOutcome ⊢
          rw [sameOutcome]
          rfl

/-! ## Commands that fail -/

/-- A step of `persist` fails and the process goes on. -/
def PersistFails (processId : Nat) (stop : Option (PersistStop Bytes)) (files : AlertFiles Bytes) :
    Prop :=
  (∃ point, stop = some point ∧ point.Ends = false) ∨
    (temporaryName processId alertStateName ∈ files ∧ stop ≠ some (.replacing .endBefore))

theorem persistOutcome_error_iff (result : Result) :
    (∃ failure, persistOutcome result () = .error failure) ↔ ∃ step, result = .failed step := by
  cases result <;> simp [persistOutcome]

theorem persistUntil_error_iff (processId : Nat) (stop : Option (PersistStop Bytes))
    (store : AlertStore) (files : AlertFiles Bytes) :
    (∃ failure, (persistUntil codec processId stop store files).2 = .error failure) ↔
      PersistFails processId stop files := by
  cases stop with
  | none =>
      simp only [persistUntil, persistOutcome_error_iff, replace_failed_iff]
      simp [PersistFails]
  | some point =>
      cases point with
      | createDirectory => simp [persistUntil, PersistFails, PersistStop.Ends]
      | secureDirectory => simp [persistUntil, PersistFails, PersistStop.Ends]
      | replacing stop =>
          simp only [persistUntil, persistOutcome_error_iff, replace_failed_iff]
          simp [PersistFails, PersistStop.Ends]

/-- The state file is as before when `persist` fails. -/
theorem persistUntil_error_file (processId : Nat) (stop : Option (PersistStop Bytes))
    (store : AlertStore) (files : AlertFiles Bytes) {failure : AppError}
    (failed : (persistUntil codec processId stop store files).2 = .error failure) :
    (persistUntil codec processId stop store files).1[alertStateName]? = files[alertStateName]? := by
  have replaced : ∀ stop,
      (∃ failure, persistOutcome (replace (temporaryName processId alertStateName) alertStateName
        (codec.toVecPretty store.state) stop files).2 () = .error failure) →
      (replace (temporaryName processId alertStateName) alertStateName
        (codec.toVecPretty store.state) stop files).1[alertStateName]? = files[alertStateName]? := by
    intro stop fails
    obtain ⟨step, fails⟩ := (persistOutcome_error_iff _).mp fails
    rcases replace_failed fails with kept | ⟨written, left⟩
    · rw [kept]
    · rw [left, SortedMap.getElem?_insert_of_ne _ _ (temporaryName_alertStateName_ne processId)]
  cases stop with
  | none => exact replaced none ⟨failure, failed⟩
  | some point =>
      cases point with
      | createDirectory => rfl
      | secureDirectory => rfl
      | replacing stop => exact replaced (some stop) ⟨failure, failed⟩

theorem insert_eq_self_iff (store : AlertStore) (key : String) (record : AlertRecord) :
    store.insert key record = store ↔ store.state.records[key]? = some record := by
  constructor
  · intro same
    rw [← same, AlertStore.insert, Std.ExtTreeMap.getElem?_insert_self]
  · intro held
    have records : store.state.records.insert key record = store.state.records := by
      apply Std.ExtTreeMap.ext_getElem?
      intro other
      rw [SortedMap.getElem?_insert]
      split
      · rename_i same
        rw [← same, held]
      · rfl
    rw [AlertStore.insert, records]

variable (codec)

/-- A call that returns an error leaves the map in memory and the state file. -/
def AtomicOnError (processId : Nat) (stop : Option (PersistStop Bytes)) (store : AlertStore)
    (files : AlertFiles Bytes) (command : Command) : Prop :=
  let performed := perform codec processId stop store files command
  ∀ failure, performed.2.2 = .error failure →
    performed.1 = store ∧ performed.2.1[alertStateName]? = files[alertStateName]?

/-- A failing command is atomic exactly when `persist` does not fail, or the
record the command puts into the map is there already. -/
theorem atomic_on_error_iff (processId : Nat) (stop : Option (PersistStop Bytes))
    (store : AlertStore) (files : AlertFiles Bytes) (command : Command) :
    AtomicOnError codec processId stop store files command ↔
      (PersistFails processId stop files → ∀ key record answer,
        command.plan store = .insert key record answer → store.state.records[key]? = some record) := by
  unfold AtomicOnError
  cases planned : command.plan store with
  | refused failure => simp [perform, planned]
  | unchanged => simp [perform, planned]
  | insert key record answer =>
      have failing : (∃ failure, (perform codec processId stop store files command).2.2 =
          .error failure) ↔ PersistFails processId stop files := by
        rw [← @persistUntil_error_iff _ codec processId stop (store.insert key record) files]
        simp only [perform, planned]
        cases (persistUntil codec processId stop (store.insert key record) files).2 <;>
          simp [Outcome.map]
      constructor
      · intro atomic fails otherKey otherRecord otherAnswer same
        cases same
        obtain ⟨failure, failed⟩ := failing.mpr fails
        have kept := (atomic failure failed).1
        simp only [perform, planned] at kept
        exact (insert_eq_self_iff store key record).mp kept
      · intro held performed failure failed
        have same := (insert_eq_self_iff store key record).mpr
          (held (failing.mp ⟨failure, failed⟩) key record answer rfl)
        simp only [performed, perform, planned] at failed ⊢
        refine ⟨same, ?_⟩
        cases ended : (persistUntil codec processId stop (store.insert key record) files).2 with
        | ok done =>
            rw [ended] at failed
            cases failed
        | crash =>
            rw [ended] at failed
            cases failed
        | error cause => exact persistUntil_error_file processId stop _ files ended

/-- The rename fails, the record stays in memory, and the repeated event is taken
for a duplicate. -/
theorem failed_apply_swallows_alert :
    let store : AlertStore := ⟨"alerts-v1.json", ⟨1, ∅⟩⟩
    let event : Command := .apply {
      ruleId := "rule"
      processName := "worker"
      pid := 10
      ppid := 1
      eventType := "EXEC"
      observedAtUnixNanos := 1
      labels := ∅ }
    let failed := perform plainStates 7 (some (.replacing .rename)) store ∅ event
    ¬ AtomicOnError plainStates 7 (some (.replacing .rename)) store ∅ event ∧
      failed.2.2 = .error (.io "could not commit alert state") ∧
      (perform plainStates 7 none failed.1 failed.2.1 event).2.2 = .ok .unchanged := by
  intro store event failed
  have error : failed.2.2 = .error (.io "could not commit alert state") := by decide
  refine ⟨?_, error, by decide⟩
  intro atomic
  have kept := congrArg (fun held => held.state.records[alertKey "rule" "worker"]?)
    (atomic _ error).1
  exact absurd kept (by decide)

end Perform

end SystemPilot.Alert
