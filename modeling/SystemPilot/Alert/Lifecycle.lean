import SystemPilot.Library.Machine
import SystemPilot.Alert.Recovery

/-!
# The life of an alert

Runs of `apply` and `set_status` on one store whose writes succeed, with the
store reopened from disk anywhere in between.  What one event may do to a record,
and over a run the order of the emitted states and the transition count.
-/

set_option autoImplicit false

namespace SystemPilot.Alert

open SystemPilot.Library
open SystemPilot.Telemetry
open SystemPilot.Cloud (ProcessAlert)
open SystemPilot.Spool (Outcome)

/-- One store with its directory, and the answers that changed a record. -/
structure Session (Bytes : Type) where
  processId : Nat
  store : AlertStore
  files : AlertFiles Bytes
  log : List Answer := []

inductive SessionEvent where
  | command (command : Command)
  | reopen (processId : Nat)
  deriving DecidableEq

/-- The answer of a command that changed a record. -/
def changes : Outcome Answer → List Answer
  | .ok (.emitted alert) => [.emitted alert]
  | .ok (.decided record) => [.decided record]
  | _ => []

/-- The answer is about a record of this rule and this process name. -/
def Answer.isAbout (ruleId processName : String) : Answer → Bool
  | .unchanged => false
  | .emitted alert => alert.ruleId == ruleId && alert.processName == processName
  | .decided record => record.ruleId == ruleId && record.processName == processName

def countAbout (ruleId processName : String) (log : List Answer) : Nat :=
  (log.filter (Answer.isAbout ruleId processName)).length

/-- The states emitted for a rule and a process name, in their order. -/
def emittedStates (ruleId processName : String) (log : List Answer) : List String :=
  log.filterMap fun answer => match answer with
    | .emitted alert =>
        if alert.ruleId = ruleId ∧ alert.processName = processName then some alert.state else none
    | _ => none

/-- Firing first, then resolved and firing in turn. -/
def Alternates (states : List String) : Prop :=
  ∀ (turn : Nat) (state : String), states[turn]? = some state →
    state = if turn % 2 = 0 then "firing" else "resolved"

section Sessions

variable {Bytes : Type} (codec : StateCodec Bytes)

namespace Session

def step (session : Session Bytes) : SessionEvent → Session Bytes
  | .command command =>
      let performed :=
        perform codec session.processId none session.store session.files command
      { session with
        store := performed.1
        files := performed.2.1
        log := session.log ++ changes performed.2.2 }
  | .reopen processId =>
      match AlertStore.open session.store.path (stateFile codec session.files) with
      | .ok store => { session with processId, store }
      | .error _ => session

/-- The session of a store opened where there is no state file yet. -/
def fresh (path : String) (processId : Nat) : Session Bytes where
  processId
  store := { path, state := { schemaVersion := alertStateSchemaVersion, records := ∅ } }
  files := ∅

end Session

/-- What one event may do to the records. -/
structure LifecycleKept (before : Session Bytes) (event : SessionEvent) : Prop where
  emits : ∀ alert, event = .command (.apply alert) →
    let key := alertKey alert.ruleId alert.processName
    let old := before.store.statusOf key
    let new := (before.step codec event).store.statusOf key
    let answer := (perform codec before.processId none before.store before.files
      (.apply alert)).2.2
    ((∃ emitted, answer = .ok (.emitted emitted)) ↔ new ≠ old) ∧
      ∀ emitted, answer = .ok (.emitted emitted) →
        new = some (desiredStatus alert) ∧ emitted.state = (desiredStatus alert).text ∧
          emitted.previousState = old.map AlertStatus.text
  resolved : ∀ key, (before.step codec event).store.statusOf key = some .resolved →
    before.store.statusOf key ≠ none
  suppressed : ∀ key, before.store.statusOf key = some .suppressed →
    (before.step codec event).store.state.records[key]? = before.store.state.records[key]? ∨
      ∃ instanceId status detail observedAt,
        event = .command (.setStatus instanceId status detail observedAt)
  acknowledged : ∀ key alert, event = .command (.apply alert) →
    before.store.statusOf key = some .acknowledged →
    (before.step codec event).store.state.records[key]? = before.store.state.records[key]? ∨
      (alert.eventType = "EXIT" ∧
        (before.step codec event).store.statusOf key = some .resolved)
  identity : ∀ (key : String) (record : AlertRecord),
    before.store.state.records[key]? = some record →
    ∃ later : AlertRecord, (before.step codec event).store.state.records[key]? = some later ∧
      later.instanceId = record.instanceId ∧
      later.firstObservedAtUnixNanos = record.firstObservedAtUnixNanos
  reopened : ∀ processId, event = .reopen processId →
    (before.step codec event).store = before.store

/-! ## One command -/

variable {codec}

theorem findInstance_some {store : AlertStore} {instanceId key : String} {record : AlertRecord}
    (found : store.findInstance instanceId = some (key, record)) :
    store.state.records[key]? = some record ∧ record.instanceId = instanceId := by
  refine ⟨?_, by simpa using List.find?_some found⟩
  exact Std.ExtTreeMap.mem_toList_iff_getElem?_eq_some.mp (List.mem_of_find?_eq_some found)

/-- The record a command puts under a key, and the answer it gives. -/
theorem plan_cases {store : AlertStore} {command : Command} {key : String} {record : AlertRecord}
    {answer : Answer} (planned : command.plan store = .insert key record answer) :
    (∃ alert, command = .apply alert ∧ key = alertKey alert.ruleId alert.processName ∧
      holdsStill (store.state.records[key]?) (desiredStatus alert) = false ∧
      record = nextRecord (store.state.records[key]?) (desiredStatus alert) alert ∧
      answer = .emitted { alert with
        instanceId := record.instanceId
        state := (desiredStatus alert).text
        previousState := (store.statusOf key).map AlertStatus.text }) ∨
    ∃ instanceId status detail observedAt old,
      command = .setStatus instanceId status detail observedAt ∧
      store.findInstance instanceId = some (key, old) ∧
      ¬(old.status = .resolved ∧ status = .acknowledged) ∧
      record = AlertStore.decidedRecord old status detail observedAt ∧
      answer = .decided record := by
  unfold Command.plan at planned
  split at planned
  · rename_i alert
    dsimp only at planned
    split at planned
    · cases planned
    · rename_i moves
      cases planned
      refine Or.inl ⟨alert, rfl, rfl, Bool.eq_false_of_not_eq_true moves, rfl, ?_⟩
      rw [AlertStore.statusOf, Option.map_map]
      rfl
  · rename_i instanceId status detail observedAt
    split at planned
    · cases planned
    · rename_i found old lookup
      split at planned
      · cases planned
      · rename_i allowed
        cases planned
        exact Or.inr ⟨instanceId, status, detail, observedAt, old, rfl, lookup, allowed, rfl, rfl⟩

/-- A command on a clean directory does nothing, or stores one record. -/
theorem perform_clean {processId : Nat} {store : AlertStore} {files : AlertFiles Bytes}
    (clean : CleanFiles files) (command : Command) :
    let performed := perform codec processId none store files command
    (performed.1 = store ∧ performed.2.1 = files ∧ changes performed.2.2 = [] ∧
      ∀ key record answer, command.plan store ≠ .insert key record answer) ∨
    ∃ key record answer, command.plan store = .insert key record answer ∧
      performed = (store.insert key record,
        files.insert alertStateName (codec.toVecPretty (store.insert key record).state),
        .ok answer) := by
  cases planned : command.plan store with
  | refused failure =>
      have same : perform codec processId none store files command =
          (store, files, .error failure) := by
        rw [perform, planned]
      rw [same]
      refine Or.inl ⟨rfl, rfl, rfl, ?_⟩
      intro key record answer inserted
      cases inserted
  | unchanged =>
      have same : perform codec processId none store files command =
          (store, files, .ok .unchanged) := by
        rw [perform, planned]
      rw [same]
      refine Or.inl ⟨rfl, rfl, rfl, ?_⟩
      intro key record answer inserted
      cases inserted
  | insert key record answer =>
      refine Or.inr ⟨key, record, answer, rfl, ?_⟩
      simp only [perform, planned, persistUntil_clear (clean processId)]
      rfl

/-! ## The invariant -/

/-- The two texts of a key are read back where the rule has no colon. -/
theorem alertKey_injective {ruleId otherRule name otherName : String}
    (plain : ':' ∉ ruleId.toList) (otherPlain : ':' ∉ otherRule.toList)
    (same : alertKey ruleId name = alertKey otherRule otherName) :
    ruleId = otherRule ∧ name = otherName := by
  have rules : ∀ (rule rest : List Char), ':' ∉ rule →
      (rule ++ ':' :: rest).takeWhile (· != ':') = rule := by
    intro rule rest absent
    rw [List.takeWhile_append_of_pos]
    · simp
    · intro character member
      simp only [bne_iff_ne, ne_eq]
      rintro rfl
      exact absent member
  have texts := congrArg String.toList same
  simp only [alertKey, String.toList_append, List.append_assoc] at texts
  have first : ruleId.toList = otherRule.toList := by
    rw [← rules ruleId.toList name.toList plain, ← rules otherRule.toList otherName.toList otherPlain]
    exact congrArg (List.takeWhile (· != ':')) texts
  rw [first, List.append_cancel_left_eq] at texts
  exact ⟨String.toList_injective first, String.toList_injective (List.append_cancel_left texts)⟩

/-- What holds of a session between two events. -/
structure SessionInvariant (codec : StateCodec Bytes) (session : Session Bytes) : Prop where
  clean : CleanFiles session.files
  saved : AlertStore.open session.store.path (stateFile codec session.files) = .ok session.store
  keyed : ∀ (key : String) (record : AlertRecord),
    session.store.state.records[key]? = some record →
    key = alertKey record.ruleId record.processName ∧ ':' ∉ record.ruleId.toList
  counted : ∀ ruleId processName : String, ':' ∉ ruleId.toList →
    ((session.store.state.records[alertKey ruleId processName]?).map
      AlertRecord.transitionCount).getD 0 =
      min (countAbout ruleId processName session.log) (2 ^ 64 - 1)

/-- The rule ids of the alerts that are applied have no colon. -/
def PlainRules : SessionEvent → Prop
  | .command (.apply alert) => ':' ∉ alert.ruleId.toList
  | _ => True

theorem open_state {path : String} {state : AlertState}
    (schema : state.schemaVersion = alertStateSchemaVersion) :
    AlertStore.open path (.state state) = .ok ⟨path, state⟩ := by
  simp [AlertStore.open, schema, bind, Except.bind]

theorem schema_of_open {path : String} {file : StateFile} {store : AlertStore}
    (opened : AlertStore.open path file = .ok store) :
    store.state.schemaVersion = alertStateSchemaVersion := by
  cases file with
  | unreadable => cases opened
  | invalid error => cases opened
  | absent =>
      cases opened
      rfl
  | state held =>
      simp only [AlertStore.open, bind, Except.bind] at opened
      split at opened
      · cases opened
      · rename_i supported
        cases opened
        exact not_not.mp supported

theorem fresh_invariant (path : String) (processId : Nat) :
    SessionInvariant codec (Session.fresh path processId) where
  clean := by simp [CleanFiles, Session.fresh]
  saved := by simp [Session.fresh, stateFile, AlertStore.open, bind, Except.bind]
  keyed := by simp [Session.fresh]
  counted := by simp [Session.fresh, countAbout]

/-- The key of a stored record, and what its answer counts for. -/
structure Puts (store : AlertStore) (key : String) (record : AlertRecord) (answer : Answer) :
    Prop where
  keyed : key = alertKey record.ruleId record.processName
  plain : ':' ∉ record.ruleId.toList
  about : ∀ ruleId processName, answer.isAbout ruleId processName = true ↔
    ruleId = record.ruleId ∧ processName = record.processName
  succeeds : record.transitionCount =
    min (((store.state.records[key]?).map AlertRecord.transitionCount).getD 0 + 1) (2 ^ 64 - 1)

theorem puts_of_planned {session : Session Bytes} (invariant : SessionInvariant codec session)
    {command : Command} (plain : PlainRules (.command command)) {key : String}
    {record : AlertRecord} {answer : Answer}
    (planned : command.plan session.store = .insert key record answer) :
    Puts session.store key record answer := by
  rcases plan_cases planned with ⟨alert, rfl, rfl, moves, rfl, rfl⟩ |
    ⟨instanceId, status, detail, observedAt, old, rfl, found, allowed, rfl, rfl⟩
  · constructor
    · rfl
    · exact plain
    · intro ruleId processName
      simp only [Answer.isAbout, Bool.and_eq_true, beq_iff_eq]
      exact and_congr eq_comm eq_comm
    · cases session.store.state.records[alertKey alert.ruleId alert.processName]? with
      | none =>
          change 1 = min (0 + 1) (2 ^ 64 - 1)
          norm_num
      | some existing => rfl
  · obtain ⟨held, _⟩ := findInstance_some found
    obtain ⟨keyed, rule⟩ := invariant.keyed key old held
    constructor
    · exact keyed
    · exact rule
    · intro ruleId processName
      simp only [Answer.isAbout, Bool.and_eq_true, beq_iff_eq]
      exact and_congr eq_comm eq_comm
    · rw [held]
      rfl

theorem step_reopen {session : Session Bytes} (invariant : SessionInvariant codec session)
    (processId : Nat) :
    session.step codec (.reopen processId) = { session with processId } := by
  rw [Session.step, invariant.saved]

/-- A command of a session does nothing, or puts one record and logs its answer. -/
theorem step_command {session : Session Bytes} (invariant : SessionInvariant codec session)
    (command : Command) :
    session.step codec (.command command) = session ∧
        (∀ key record answer, command.plan session.store ≠ .insert key record answer) ∨
      ∃ key record answer, command.plan session.store = .insert key record answer ∧
        session.step codec (.command command) =
          { session with
            store := session.store.insert key record
            files := session.files.insert alertStateName
              (codec.toVecPretty (session.store.insert key record).state)
            log := session.log ++ [answer] } := by
  rcases @perform_clean _ codec session.processId session.store _ invariant.clean command with ⟨store, files, answer, still⟩ | ⟨key, record, answer, planned, performed⟩
  · refine Or.inl ⟨?_, still⟩
    rw [Session.step, store, files, answer, List.append_nil]
  · refine Or.inr ⟨key, record, answer, planned, ?_⟩
    have logged : changes (.ok answer : Outcome Answer) = [answer] := by
      rcases plan_cases planned with ⟨_, _, _, _, _, rfl⟩ | ⟨_, _, _, _, _, _, _, _, _, rfl⟩ <;> rfl
    rw [Session.step, performed, logged]

theorem step_invariant (faithful : codec.Faithful) (session : Session Bytes) (event : SessionEvent)
    (invariant : SessionInvariant codec session) (plain : PlainRules event) :
    SessionInvariant codec (session.step codec event) := by
  cases event with
  | reopen processId =>
      rw [step_reopen invariant]
      exact ⟨invariant.clean, invariant.saved, invariant.keyed, invariant.counted⟩
  | command command =>
      rcases step_command invariant command with ⟨same, _⟩ | ⟨key, record, answer, planned, same⟩
      · rw [same]
        exact invariant
      · have puts := puts_of_planned invariant plain planned
        rw [same]
        constructor
        · intro processId present
          rw [Std.ExtTreeMap.mem_insert, Std.LawfulEqOrd.compare_eq_iff_eq] at present
          rcases present with name | earlier
          · exact temporaryName_alertStateName_ne processId name.symm
          · exact invariant.clean processId earlier
        · dsimp only
          rw [stateFile_insert faithful]
          have schema : session.store.state.schemaVersion = alertStateSchemaVersion :=
            schema_of_open invariant.saved
          exact open_state schema
        · intro other held found
          dsimp only [AlertStore.insert] at found
          rw [SortedMap.getElem?_insert] at found
          split at found
          · rename_i key'
            cases found
            exact ⟨key' ▸ puts.keyed, puts.plain⟩
          · exact invariant.keyed other held found
        · intro ruleId processName rule
          have before := invariant.counted ruleId processName rule
          dsimp only [AlertStore.insert]
          rw [SortedMap.getElem?_insert, countAbout, List.filter_append, List.length_append,
            ← countAbout]
          by_cases about : answer.isAbout ruleId processName = true
          · obtain ⟨rfl, rfl⟩ := (puts.about ruleId processName).mp about
            rw [if_pos puts.keyed, Option.map_some, Option.getD_some, puts.succeeds]
            rw [← puts.keyed] at before
            rw [before, List.filter_cons_of_pos about]
            simp only [List.filter_nil, List.length_singleton]
            omega
          · have other : key ≠ alertKey ruleId processName := by
              intro same'
              rw [puts.keyed] at same'
              obtain ⟨first, second⟩ := alertKey_injective puts.plain rule same'
              exact about ((puts.about ruleId processName).mpr ⟨first.symm, second.symm⟩)
            rw [if_neg other, List.filter_cons_of_neg about, List.filter_nil, List.length_nil,
              before, Nat.add_zero]

/-! ## The clauses about one event -/

theorem holdsStill_eq_false_iff (existing : Option AlertRecord) (desired : AlertStatus) :
    holdsStill existing desired = false ↔
      existing.map AlertRecord.status ≠ some .suppressed ∧
        (existing.map AlertRecord.status = some .acknowledged → desired ≠ .firing) ∧
        existing.map AlertRecord.status ≠ some desired ∧
        (existing = none → desired ≠ .resolved) := by
  cases existing with
  | none => cases desired <;> simp [holdsStill]
  | some record =>
      cases held : record.status <;> cases desired <;> simp [holdsStill, held]

theorem desiredStatus_cases (alert : ProcessAlert) :
    (alert.eventType = "EXIT" ∧ desiredStatus alert = .resolved) ∨
      (alert.eventType ≠ "EXIT" ∧ desiredStatus alert = .firing) := by
  by_cases exits : alert.eventType = "EXIT"
  · exact Or.inl ⟨exits, if_pos exits⟩
  · exact Or.inr ⟨exits, if_neg exits⟩

/-- A command changes the record under its own key only. -/
theorem records_insert_of_ne (store : AlertStore) {key other : String} (record : AlertRecord)
    (distinct : key ≠ other) :
    (store.insert key record).state.records[other]? = store.state.records[other]? :=
  SortedMap.getElem?_insert_of_ne _ _ distinct

theorem statusOf_insert_self (store : AlertStore) (key : String) (record : AlertRecord) :
    (store.insert key record).statusOf key = some record.status := by
  rw [statusOf_insert, if_pos rfl]

variable (codec) in
theorem lifecycle_same {before : Session Bytes} {event : SessionEvent}
    (store : (before.step codec event).store = before.store)
    (still : ∀ alert, event = .command (.apply alert) →
      ∀ key record answer, Command.plan before.store (.apply alert) ≠ .insert key record answer) :
    LifecycleKept codec before event where
  emits alert applied := by
    dsimp only
    rw [store]
    have silent : ∀ emitted, (perform codec before.processId none before.store before.files
        (.apply alert)).2.2 ≠ .ok (.emitted emitted) := by
      intro emitted answered
      cases planned : Command.plan before.store (.apply alert) with
      | refused failure => simp [perform, planned] at answered
      | unchanged => simp [perform, planned] at answered
      | insert key record answer => exact still alert applied key record answer planned
    refine ⟨⟨?_, fun moved => absurd rfl moved⟩,
      fun emitted answered => absurd answered (silent emitted)⟩
    rintro ⟨emitted, answered⟩
    exact absurd answered (silent emitted)
  resolved key status := by
    rw [store] at status
    rw [status]
    simp
  suppressed key _ := Or.inl (by rw [store])
  acknowledged key _ _ _ := Or.inl (by rw [store])
  identity key record held := ⟨record, by rw [store, held], rfl, rfl⟩
  reopened _ _ := store

/-- The step of an alert that makes a transition. -/
theorem lifecycle_apply {before : Session Bytes} (invariant : SessionInvariant codec before)
    {alert : ProcessAlert} {answer : Answer} {record : AlertRecord}
    (planned : Command.plan before.store (.apply alert) =
      .insert (alertKey alert.ruleId alert.processName) record answer)
    (store : (before.step codec (.command (.apply alert))).store =
      before.store.insert (alertKey alert.ruleId alert.processName) record) :
    LifecycleKept codec before (.command (.apply alert)) := by
  obtain ⟨other, same, _, moves, rfl, rfl⟩ | ⟨_, _, _, _, _, other, _⟩ := plan_cases planned
  · cases same
    obtain ⟨unsuppressed, unacknowledged, differs, present⟩ :=
      (holdsStill_eq_false_iff _ _).mp moves
    constructor
    · intro again applied
      cases applied
      dsimp only
      rw [store, statusOf_insert_self]
      have answered := (@perform_clean _ codec before.processId _ _ invariant.clean
        (.apply alert)).resolve_left fun unchanged => unchanged.2.2.2 _ _ _ planned
      obtain ⟨_, _, _, planned', performed⟩ := answered
      rw [planned] at planned'
      cases planned'
      rw [performed]
      refine ⟨⟨fun _ => Ne.symm differs, fun _ => ⟨_, rfl⟩⟩, ?_⟩
      rintro emitted ⟨⟩
      exact ⟨rfl, rfl, rfl⟩
    · intro key status
      rw [store, statusOf_insert] at status
      split at status
      · rename_i same
        subst same
        intro absent
        rw [AlertStore.statusOf, Option.map_eq_none_iff] at absent
        exact present absent (by simpa [nextRecord] using status)
      · rw [status]
        simp
    · intro key held
      refine Or.inl ?_
      rw [store]
      refine records_insert_of_ne _ _ ?_
      rintro rfl
      exact unsuppressed held
    · intro key again applied held
      cases applied
      rw [store]
      by_cases same : alertKey alert.ruleId alert.processName = key
      · subst same
        rcases desiredStatus_cases alert with ⟨exits, desired⟩ | ⟨_, desired⟩
        · refine Or.inr ⟨exits, ?_⟩
          rw [statusOf_insert_self]
          exact congrArg some desired
        · exact absurd desired (unacknowledged held)
      · exact Or.inl (records_insert_of_ne _ _ same)
    · intro key old held
      rw [store]
      by_cases same : alertKey alert.ruleId alert.processName = key
      · subst same
        exact ⟨_, Std.ExtTreeMap.getElem?_insert_self, by simp [nextRecord, held],
          by simp [nextRecord, held]⟩
      · exact ⟨old, by rw [records_insert_of_ne _ _ same, held], rfl, rfl⟩
    · intro processId reopened
      cases reopened
  · cases other

/-- The step of an operator's decision. -/
theorem lifecycle_setStatus {before : Session Bytes} {instanceId : String} {status : AlertStatus}
    {detail : String} {observedAt : Nat} {key : String} {old : AlertRecord}
    (held : before.store.state.records[key]? = some old)
    (store : (before.step codec (.command (.setStatus instanceId status detail observedAt))).store =
      before.store.insert key (AlertStore.decidedRecord old status detail observedAt)) :
    LifecycleKept codec before (.command (.setStatus instanceId status detail observedAt)) where
  emits := by
    intro alert applied
    cases applied
  resolved := by
    intro other resolves absent
    rw [store, statusOf_insert] at resolves
    split at resolves
    · rename_i same
      subst same
      rw [AlertStore.statusOf, held] at absent
      cases absent
    · rw [absent] at resolves
      cases resolves
  suppressed := fun _ _ => Or.inr ⟨instanceId, status, detail, observedAt, rfl⟩
  acknowledged := by
    intro other alert applied
    cases applied
  identity := by
    intro other record found
    rw [store]
    by_cases same : key = other
    · subst same
      rw [held] at found
      cases found
      exact ⟨_, Std.ExtTreeMap.getElem?_insert_self, rfl, rfl⟩
    · exact ⟨record, by rw [records_insert_of_ne _ _ same, found], rfl, rfl⟩
  reopened := by
    intro processId reopened
    cases reopened

theorem lifecycle_kept (before : Session Bytes) (event : SessionEvent)
    (invariant : SessionInvariant codec before) : LifecycleKept codec before event := by
  cases event with
  | reopen processId =>
      refine lifecycle_same codec ?_ nofun
      rw [step_reopen invariant]
  | command command =>
      rcases step_command invariant command with ⟨same, still⟩ | ⟨key, record, answer, planned, same⟩
      · refine lifecycle_same codec (by rw [same]) ?_
        rintro alert ⟨⟩
        exact still
      · have store : (before.step codec (.command command)).store =
            before.store.insert key record := by rw [same]
        rcases plan_cases planned with ⟨alert, rfl, rfl, _, _, _⟩ |
          ⟨instanceId, status, detail, observedAt, old, rfl, found, _, rfl, _⟩
        · exact lifecycle_apply invariant planned store
        · exact lifecycle_setStatus (findInstance_some found).1 store

/-! ## Runs -/

/-- The event is not an operator's decision. -/
def Automatic : SessionEvent → Prop
  | .command (.setStatus _ _ _ _) => False
  | _ => True

/-- The status after so many emissions. -/
def statusAfter (emissions : Nat) : Option AlertStatus :=
  if emissions = 0 then none else if emissions % 2 = 1 then some .firing else some .resolved

/-- Without operators the emitted states alternate, and the last one stands. -/
def Turns (session : Session Bytes) : Prop :=
  ∀ ruleId processName : String, ':' ∉ ruleId.toList →
    Alternates (emittedStates ruleId processName session.log) ∧
      session.store.statusOf (alertKey ruleId processName) =
        statusAfter (emittedStates ruleId processName session.log).length

theorem alternates_append {states : List String} {state : String} (alternates : Alternates states)
    (next : state = if states.length % 2 = 0 then "firing" else "resolved") :
    Alternates (states ++ [state]) := by
  intro turn found held
  by_cases earlier : turn < states.length
  · rw [List.getElem?_append_left earlier] at held
    exact alternates turn found held
  · rw [List.getElem?_append_right (Nat.not_lt.mp earlier)] at held
    have last : turn - states.length = 0 := by
      have bound := (List.getElem?_eq_some_iff.mp held).1
      simpa using bound
    rw [last] at held
    cases held
    have same : turn = states.length := by omega
    rw [same, next]

/-- A transition that is not an operator's takes the other state in turn. -/
theorem statusAfter_next {emissions : Nat} {existing : Option AlertRecord} {desired : AlertStatus}
    (status : existing.map AlertRecord.status = statusAfter emissions)
    (asked : desired = .resolved ∨ desired = .firing)
    (moves : holdsStill existing desired = false) :
    desired.text = (if emissions % 2 = 0 then "firing" else "resolved") ∧
      some desired = statusAfter (emissions + 1) := by
  obtain ⟨_, _, differs, present⟩ := (holdsStill_eq_false_iff _ _).mp moves
  rw [status] at differs
  have absent : existing = none ↔ emissions = 0 := by
    rw [← Option.map_eq_none_iff (f := AlertRecord.status), status, statusAfter]
    split_ifs <;> simp_all
  rcases Nat.mod_two_eq_zero_or_one emissions with even | odd
  · have fires : desired = .firing := by
      rcases asked with rfl | rfl
      · by_cases zero : emissions = 0
        · exact absurd rfl (present (absent.mpr zero))
        · simp [statusAfter, zero, even] at differs
      · rfl
    subst fires
    have next : (emissions + 1) % 2 = 1 := by omega
    exact ⟨by simp [even, AlertStatus.text], by simp [statusAfter, next]⟩
  · have nonzero : emissions ≠ 0 := by omega
    have resolves : desired = .resolved := by
      rcases asked with rfl | rfl
      · rfl
      · simp [statusAfter, nonzero, odd] at differs
    subst resolves
    have next : (emissions + 1) % 2 = 0 := by omega
    exact ⟨by simp [odd, AlertStatus.text], by simp [statusAfter, next]⟩

theorem step_turns (session : Session Bytes) (event : SessionEvent)
    (invariant : SessionInvariant codec session) (turns : Turns session)
    (plain : PlainRules event) (automatic : Automatic event) :
    Turns (session.step codec event) := by
  cases event with
  | reopen processId =>
      rw [step_reopen invariant]
      exact turns
  | command command =>
      rcases step_command invariant command with ⟨same, _⟩ | ⟨key, record, answer, planned, same⟩
      · rw [same]
        exact turns
      · have puts := puts_of_planned invariant plain planned
        rw [same]
        rcases plan_cases planned with ⟨alert, rfl, rfl, moves, rfl, rfl⟩ |
          ⟨_, _, _, _, _, rfl, _⟩
        · intro ruleId processName rule
          obtain ⟨alternates, status⟩ := turns ruleId processName rule
          dsimp only
          rw [emittedStates, List.filterMap_append, ← emittedStates, statusOf_insert]
          by_cases about : alert.ruleId = ruleId ∧ alert.processName = processName
          · obtain ⟨rfl, rfl⟩ := about
            rw [AlertStore.statusOf] at status
            have asked := (desiredStatus_cases alert).imp And.right And.right
            obtain ⟨text, next⟩ := statusAfter_next status asked moves
            simp only [List.filterMap_cons, List.filterMap_nil, and_self, if_true,
              List.length_append, List.length_singleton]
            exact ⟨alternates_append alternates text, next⟩
          · have other : alertKey alert.ruleId alert.processName ≠ alertKey ruleId processName :=
              fun same' => about (alertKey_injective puts.plain rule same')
            simp only [List.filterMap_cons, List.filterMap_nil, if_neg about, if_neg other,
              List.append_nil]
            exact ⟨alternates, status⟩
        · exact absurd automatic (fun impossible => impossible)

variable (codec) in
/-- The lifecycle of the alerts of one store, over every run. -/
theorem alert_lifecycle (faithful : codec.Faithful) (path : String) (processId : Nat)
    (events : List SessionEvent) (plain : ∀ event ∈ events, PlainRules event) :
    let start : Session Bytes := Session.fresh path processId
    let final := Machine.run (Session.step codec) start events
    Machine.EveryStep (Session.step codec) (LifecycleKept codec) start events ∧
      (final.log.length < 2 ^ 64 → ∀ (key : String) (record : AlertRecord),
        final.store.state.records[key]? = some record →
          record.transitionCount = countAbout record.ruleId record.processName final.log) ∧
      ((∀ event ∈ events, Automatic event) → ∀ ruleId processName, ':' ∉ ruleId.toList →
        Alternates (emittedStates ruleId processName final.log)) := by
  intro start final
  have admitted : ∀ (property : SessionEvent → Prop), (∀ event ∈ events, property event) →
      Machine.EveryStep (Session.step codec) (fun _ event => property event) start events := by
    intro property holds pair visited
    obtain ⟨before, after, split, _⟩ := (Machine.mem_visited_iff _ _ _ pair).mp visited
    exact holds pair.2 (by rw [split]; simp)
  have initial : SessionInvariant codec start := fresh_invariant path processId
  have invariant : SessionInvariant codec final :=
    Machine.run_invariant _ (SessionInvariant codec) (fun _ event => PlainRules event)
      (step_invariant faithful) start events initial (admitted PlainRules plain)
  refine ⟨?_, ?_, ?_⟩
  · exact Machine.everyStep_of_invariant _ (SessionInvariant codec) (fun _ event => PlainRules event)
      _ (step_invariant faithful) (fun before event holds _ => lifecycle_kept before event holds)
      start events initial (admitted PlainRules plain)
  · intro few key record held
    obtain ⟨keyed, rule⟩ := invariant.keyed key record held
    have counted := invariant.counted record.ruleId record.processName rule
    rw [← keyed, held] at counted
    have bound : countAbout record.ruleId record.processName final.log ≤ final.log.length :=
      List.length_filter_le _ _
    rw [Nat.min_eq_left (by omega)] at counted
    exact counted
  · intro automatic ruleId processName rule
    have both : SessionInvariant codec final ∧ Turns final :=
      Machine.run_invariant _ (fun session => SessionInvariant codec session ∧ Turns session)
        (fun _ event => PlainRules event ∧ Automatic event)
        (fun session event holds now => ⟨step_invariant faithful session event holds.1 now.1,
          step_turns session event holds.1 holds.2 now.1 now.2⟩)
        start events
        ⟨initial, fun ruleId processName _ => ⟨nofun, rfl⟩⟩
        (admitted _ fun event member => ⟨plain event member, automatic event member⟩)
    exact (both.2 ruleId processName rule).1

end Sessions

/-- The transition count over a firing, a restart and an exit. -/
theorem alert_lifecycle_worker :
    let event : String → Nat → SessionEvent := fun kind time => .command (.apply {
      ruleId := "rule"
      processName := "worker"
      pid := 10
      ppid := 1
      eventType := kind
      observedAtUnixNanos := time
      labels := ∅ })
    let final := Machine.run (Session.step plainStates) (Session.fresh "alerts-v1.json" 7)
      [event "EXEC" 1, .reopen 8, event "EXIT" 2]
    ∀ (key : String) (record : AlertRecord), final.store.state.records[key]? = some record →
      record.transitionCount = countAbout record.ruleId record.processName final.log := by
  intro event final
  refine (alert_lifecycle plainStates (fun _ => rfl) "alerts-v1.json" 7 _ ?_).2.1 (by decide +kernel)
  have rule : ':' ∉ "rule".toList := by decide
  intro occurred member
  simp only [List.mem_cons, List.not_mem_nil, or_false] at member
  rcases member with rfl | rfl | rfl
  · exact rule
  · trivial
  · exact rule

end SystemPilot.Alert
