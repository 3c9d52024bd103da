import SystemPilot.Alert.Commands

/-!
# The durable stores after an interrupted write

What a later command finds after `persist` was stopped at any of its steps: the
directory, and in the same process also the map in memory.  Together with the
spool this is the recovery of both stores.
-/

set_option autoImplicit false

namespace SystemPilot.Alert

open SystemPilot.Library
open SystemPilot.Library.Replacement
open SystemPilot.Telemetry
open SystemPilot.Cloud (ProcessAlert)
open SystemPilot.Spool (Outcome temporaryName)

section Recovery

variable {Bytes : Type} (codec : StateCodec Bytes)

/-- No earlier write left a temporary file, whichever process made it. -/
def CleanFiles (files : AlertFiles Bytes) : Prop :=
  ∀ processId, temporaryName processId alertStateName ∉ files

/-- The copy and the files of a command that was made as a whole or not at all. -/
def settledStore (processId : Nat) (stop : Option (PersistStop Bytes)) (store : AlertStore)
    (files : AlertFiles Bytes) (command : Command) : AlertStore × AlertFiles Bytes :=
  if PersistStop.commits stop then
    let performed := perform codec processId none store files command
    (performed.1, performed.2.1)
  else (store, files)

/-- Whatever process comes next, with its own copy or with the one of the
process that was stopped and still runs, does what it does after a command that
was made as a whole or not at all, and no step of its write fails. -/
structure Recovers (processId : Nat) (stop : Option (PersistStop Bytes)) (store : AlertStore)
    (files : AlertFiles Bytes) (command : Command) : Prop where
  others : ∀ (later : Nat) (copy : AlertStore) (next : Command),
    perform codec later none copy (perform codec processId stop store files command).2.1 next =
      perform codec later none copy (settledStore codec processId stop store files command).2 next
  same : (∀ point, stop = some point → point.Ends = false) → ∀ next : Command,
    let performed := perform codec processId stop store files command
    let settled := settledStore codec processId stop store files command
    (perform codec processId none performed.1 performed.2.1 next).2 =
      (perform codec processId none settled.1 settled.2 next).2
  unhindered : ∀ (later : Nat) (copy : AlertStore) (next : Command) (message : String),
    (perform codec later none copy (perform codec processId stop store files command).2.1 next).2.2 ≠
      .error (.io message)

/-- Whoever goes on after the stop finds no temporary file, and the map in
memory agrees with the state file again. -/
def StopsTidily (stop : Option (PersistStop Bytes)) (store : AlertStore) (command : Command) : Prop :=
  ∀ point key record answer, stop = some point → command.plan store = .insert key record answer →
    point.Leaves = false ∧
      (point.Ends = false → store.state.records[key]? = some record)

variable {codec}

theorem persistUntil_clear {processId : Nat} {store : AlertStore} {files : AlertFiles Bytes}
    (clear : temporaryName processId alertStateName ∉ files) :
    persistUntil codec processId none store files =
      (files.insert alertStateName (codec.toVecPretty store.state), .ok ()) := by
  rw [persistUntil]
  simp only [replace_clear clear]
  rfl

theorem persistUntil_tidy {processId : Nat} {store : AlertStore} {files : AlertFiles Bytes}
    (clear : temporaryName processId alertStateName ∉ files) {point : PersistStop Bytes}
    (tidy : point.Leaves = false) :
    (persistUntil codec processId (some point) store files).1 =
      if PersistStop.commits (some point) then
        files.insert alertStateName (codec.toVecPretty store.state)
      else files := by
  cases point with
  | createDirectory => rfl
  | secureDirectory => rfl
  | replacing stop =>
      have done : (replace (temporaryName processId alertStateName) alertStateName
          (codec.toVecPretty store.state) (some stop) files).1 = _ :=
        replace_tidy clear (some stop) (by rintro _ ⟨⟩; exact tidy)
      rw [persistUntil, done, settled]
      cases stop <;> rfl

/-- A command stopped without a temporary file leaves the files of a command
that was made as a whole or not at all. -/
theorem perform_tidy {processId : Nat} {stop : Option (PersistStop Bytes)} {store : AlertStore}
    {files : AlertFiles Bytes} (clear : temporaryName processId alertStateName ∉ files)
    {command : Command} (tidy : ∀ point key record answer, stop = some point →
      command.plan store = .insert key record answer → point.Leaves = false) :
    (perform codec processId stop store files command).2.1 =
      (settledStore codec processId stop store files command).2 := by
  cases planned : command.plan store with
  | refused failure =>
      simp only [perform, settledStore, planned]
      split <;> rfl
  | unchanged =>
      simp only [perform, settledStore, planned]
      split <;> rfl
  | insert key record answer =>
      cases stop with
      | none => rfl
      | some point =>
          simp only [perform, settledStore, planned, persistUntil_clear clear,
            persistUntil_tidy clear (tidy point key record answer rfl planned)]
          split <;> rfl

theorem plan_failure {store : AlertStore} {command : Command} {failure : AppError}
    (planned : command.plan store = .refused failure) (message : String) :
    failure ≠ .io message := by
  unfold Command.plan at planned
  split at planned
  · dsimp only at planned
    split at planned <;> cases planned
  · split at planned
    · cases planned
      simp
    · split at planned
      · cases planned
        simp
      · cases planned

theorem perform_unhindered {processId : Nat} {store : AlertStore} {files : AlertFiles Bytes}
    (clear : temporaryName processId alertStateName ∉ files) (command : Command)
    (message : String) :
    (perform codec processId none store files command).2.2 ≠ .error (.io message) := by
  cases planned : command.plan store with
  | refused failure =>
      have other := plan_failure planned message
      simpa [perform, planned] using other
  | unchanged => simp [perform, planned]
  | insert key record answer => simp [perform, planned, persistUntil_clear clear, Outcome.map]

theorem settledStore_clean {processId : Nat} {stop : Option (PersistStop Bytes)}
    {store : AlertStore} {files : AlertFiles Bytes} (clean : CleanFiles files) (command : Command) :
    CleanFiles (settledStore codec processId stop store files command).2 := by
  unfold settledStore
  split
  · cases planned : command.plan store with
    | refused failure => simpa [perform, planned] using clean
    | unchanged => simpa [perform, planned] using clean
    | insert key record answer =>
        intro later present
        simp only [perform, planned, persistUntil_clear (clean processId)] at present
        rw [Std.ExtTreeMap.mem_insert, Std.LawfulEqOrd.compare_eq_iff_eq] at present
        rcases present with name | earlier
        · exact temporaryName_alertStateName_ne later name.symm
        · exact clean later earlier
  · exact clean

/-- Some alert has no record yet. -/
theorem exists_fresh_alert (store : AlertStore) (taken : String) :
    ∃ alert : ProcessAlert, alert.eventType ≠ "EXIT" ∧
      alertKey alert.ruleId alert.processName ≠ taken ∧
      store.state.records[alertKey alert.ruleId alert.processName]? = none := by
  have keys : Function.Injective fun name : List Char => alertKey "" (String.ofList name) := by
    intro left right same
    have texts := congrArg String.toList same
    simpa [alertKey, String.toList_append] using texts
  obtain ⟨key, ⟨name, rfl⟩, fresh⟩ := (Set.infinite_range_of_injective keys).exists_notMem_finset
    (insert taken store.state.records.keys.toFinset)
  rw [Finset.mem_insert, not_or, List.mem_toFinset, SortedMap.mem_keys_iff] at fresh
  refine ⟨{
    ruleId := ""
    processName := String.ofList name
    pid := 0
    ppid := 0
    eventType := "EXEC"
    observedAtUnixNanos := 0
    labels := ∅ }, by simp, fresh.1, ?_⟩
  exact Option.eq_none_iff_forall_ne_some.mpr fun record held => fresh.2 ⟨record, held⟩

/-- The next transition of the process writes what memory has kept. -/
theorem persisted_difference (faithful : codec.Faithful) {processId : Nat} {store other : AlertStore}
    {files : AlertFiles Bytes} (clear : temporaryName processId alertStateName ∉ files)
    {alert : ProcessAlert} (lives : alert.eventType ≠ "EXIT")
    (fresh : store.state.records[alertKey alert.ruleId alert.processName]? = none)
    (otherFresh : other.state.records[alertKey alert.ruleId alert.processName]? = none)
    (same : (perform codec processId none store files (.apply alert)).2.1 =
      (perform codec processId none other files (.apply alert)).2.1)
    {key : String} (apart : alertKey alert.ruleId alert.processName ≠ key) :
    store.state.records[key]? = other.state.records[key]? := by
  have fires : desiredStatus alert = .firing := if_neg lives
  have moves : holdsStill none (desiredStatus alert) = false := by rw [fires]; rfl
  have planned : ∀ copy : AlertStore,
      copy.state.records[alertKey alert.ruleId alert.processName]? = none →
      ∃ answer, Command.plan copy (.apply alert) =
        .insert (alertKey alert.ruleId alert.processName)
          (nextRecord none (desiredStatus alert) alert) answer := by
    intro copy absent
    simp only [Command.plan, absent, moves, Bool.false_eq_true, if_false]
    exact ⟨_, rfl⟩
  obtain ⟨answer, first⟩ := planned store fresh
  obtain ⟨otherAnswer, second⟩ := planned other otherFresh
  simp only [perform, first, second, persistUntil_clear clear] at same
  have bytes := congrArg (fun held => held[alertStateName]?) same
  simp only [Std.ExtTreeMap.getElem?_insert_self, Option.some.injEq] at bytes
  have records := congrArg (fun state => state.records[key]?) (faithful.injective bytes)
  simpa only [AlertStore.insert, SortedMap.getElem?_insert_of_ne _ _ apart] using records

/-- The store recovers exactly when a stopped command leaves no temporary file
and, where its process goes on, nothing in memory the file does not have. -/
theorem recovers_iff (faithful : codec.Faithful) (processId : Nat)
    (stop : Option (PersistStop Bytes)) (store : AlertStore) (files : AlertFiles Bytes)
    (clean : CleanFiles files) (command : Command) :
    Recovers codec processId stop store files command ↔ StopsTidily stop store command := by
  constructor
  · intro recovers point key record answer stopped planned
    subst stopped
    have removed : point.Leaves = false := by
      rw [← Bool.not_eq_true]
      intro leaves
      cases point with
      | createDirectory => cases leaves
      | secureDirectory => cases leaves
      | replacing stop =>
          obtain ⟨written, stays⟩ : ∃ written,
              (replace (temporaryName processId alertStateName) alertStateName
                (codec.toVecPretty (store.insert key record).state) (some stop) files).1 =
                files.insert (temporaryName processId alertStateName) written :=
            replace_leaves (clean processId) stop leaves
          refine recovers.unhindered processId store command
            "could not create temporary alert state" ?_
          simp only [perform, planned, persistUntil, stays,
            replace_blocked Std.ExtTreeMap.mem_insert_self]
          rfl
    refine ⟨removed, fun lives => ?_⟩
    have uncommitted : PersistStop.commits (some point) = false := by
      cases point with
      | createDirectory => rfl
      | secureDirectory => rfl
      | replacing stop => cases stop <;> first | rfl | cases lives
    obtain ⟨alert, fires, apart, fresh⟩ := exists_fresh_alert store key
    have next := recovers.same (by rintro _ ⟨⟩; exact lives) (.apply alert)
    have settles : settledStore codec processId (some point) store files command =
        (store, files) := by
      rw [settledStore, uncommitted]
      rfl
    have memory : (perform codec processId (some point) store files command).1 =
        store.insert key record := by
      simp only [perform, planned]
    have directory : (perform codec processId (some point) store files command).2.1 = files := by
      simp only [perform, planned, persistUntil_tidy (clean processId) removed, uncommitted,
        Bool.false_eq_true, if_false]
    dsimp only at next
    rw [settles, memory, directory] at next
    have still : (store.insert key record).state.records[alertKey alert.ruleId
        alert.processName]? = none := by
      rw [AlertStore.insert, SortedMap.getElem?_insert_of_ne _ _ (Ne.symm apart), fresh]
    have changed := persisted_difference faithful (clean processId) fires still fresh
      (congrArg Prod.fst next) apart
    rw [AlertStore.insert, Std.ExtTreeMap.getElem?_insert_self] at changed
    exact changed.symm
  · intro tidy
    have settles : (perform codec processId stop store files command).2.1 =
        (settledStore codec processId stop store files command).2 :=
      perform_tidy (clean processId) fun point key record answer stopped planned =>
        (tidy point key record answer stopped planned).1
    constructor
    · intro later copy next
      rw [settles]
    · intro lives next
      dsimp only
      rw [settles]
      have memory : (perform codec processId stop store files command).1 =
          (settledStore codec processId stop store files command).1 := by
        unfold settledStore
        cases planned : command.plan store with
        | refused failure =>
            simp only [perform, planned]
            split <;> rfl
        | unchanged =>
            simp only [perform, planned]
            split <;> rfl
        | insert key record answer =>
            simp only [perform, planned]
            split
            · rfl
            · rename_i uncommitted
              cases stop with
              | none => exact absurd rfl uncommitted
              | some point =>
                  exact (insert_eq_self_iff store key record).mpr
                    ((tidy point key record answer rfl planned).2 (lives point rfl))
      rw [memory]
    · intro later copy next message
      rw [settles]
      exact perform_unhindered (settledStore_clean clean command later) next message

end Recovery

/-- Both stores recover from a write exactly when it stopped without leaving a
temporary file behind, and without a change in memory the alert file lacks. -/
theorem interrupted_writes_recover_iff {Record State : Type} (codec : Codec Record)
    (states : StateCodec State) (faithful : states.Faithful) :
    (∀ (spool : Spool.DiskSpool) (clock : Nat) (files : Spool.SpoolFiles Record), files.Clean →
      ∀ call : Spool.Call Record, Spool.Recovers codec spool clock files call ↔
        (call.Reaches codec spool clock files → ¬ call.Leaves)) ∧
    ∀ (processId : Nat) (stop : Option (PersistStop State)) (store : AlertStore)
      (files : AlertFiles State), CleanFiles files → ∀ command : Command,
        Recovers states processId stop store files command ↔ StopsTidily stop store command :=
  ⟨fun spool clock files clean call => Spool.recovers_iff codec spool clock files clean call,
    fun processId stop store files clean command =>
      recovers_iff faithful processId stop store files clean command⟩

theorem interrupted_writes_recover_fresh :
    Spool.Recovers plainCodec ⟨4096, 60, 7⟩ 0 {} (.nextSequence (some .create)) ∧
      Recovers plainStates 7 (some (.replacing .endAfter)) ⟨"alerts-v1.json", ⟨1, ∅⟩⟩ ∅
        (.setStatus "rule-1" .suppressed "maintenance" 2) := by
  obtain ⟨spool, alerts⟩ :=
    interrupted_writes_recover_iff plainCodec plainStates fun _ => rfl
  constructor
  · refine (spool ⟨4096, 60, 7⟩ 0 {} ⟨by simp, by simp⟩ (.nextSequence (some .create))).mpr ?_
    rintro _ ⟨point, ⟨⟩, leaves⟩
    cases leaves
  · refine (alerts 7 _ _ ∅ (by simp [CleanFiles]) _).mpr ?_
    rintro _ _ _ _ ⟨⟩ _
    exact ⟨rfl, nofun⟩

/-- The process ends before the rename; restarted with the same id it reserves no
sequence any more. -/
theorem restart_after_crash_blocked :
    let spool : Spool.DiskSpool := ⟨4096, 60, 7⟩
    let crash : Spool.Call TelemetryEnvelope := .nextSequence (some (.endInside ⟨"", 0⟩))
    let torn := (Spool.perform plainCodec spool 0 {} crash).1
    ¬ Spool.Recovers plainCodec spool 0 {} crash ∧
      (Spool.perform plainCodec spool 1 torn (.nextSequence none)).2 =
        .error (.io "could not create temporary spool record") ∧
      (Spool.perform plainCodec spool 1 {} (.nextSequence none)).2 = .ok (some 1) := by
  intro spool crash torn
  have blocked : (Spool.perform plainCodec spool 1 torn (.nextSequence none)).2 =
      .error (.io "could not create temporary spool record") := by decide
  refine ⟨fun recovers => ?_, blocked, by decide⟩
  exact recovers.unhindered spool 1 (.nextSequence none) rfl _ blocked

end SystemPilot.Alert
