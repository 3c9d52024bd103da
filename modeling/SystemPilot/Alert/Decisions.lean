import SystemPilot.Library.Machine
import SystemPilot.Alert.Store

/-!
# Operator decisions

The daemon opens the alert store once and keeps its copy; each run of the command
line opens the same file, decides about one alert and exits.  Every transition
writes the whole copy back, so whoever persists an outdated copy undoes what was
decided since it was read.
-/

set_option autoImplicit false

namespace SystemPilot.Alert

open SystemPilot.Library
open SystemPilot.Telemetry
open SystemPilot.Cloud (ProcessAlert)

/-- The state file, the copies of the processes that have it open, and for each
key the decision that stands. -/
structure Deployment where
  path : String
  file : StateFile
  daemon : AlertStore
  commands : Nat → Option AlertStore := fun _ => none
  decisions : String → Option AlertStatus := fun _ => none

inductive AlertEvent where
  | lifecycle (alert : ProcessAlert) (fault : Option PersistFault)
  | openCommand (command : Nat)
  | setStatus (command : Nat) (instanceId : String) (status : AlertStatus) (detail : String)
      (observedAt : Nat) (fault : Option PersistFault)

/-- An EXIT supersedes the decision about its key, except a suppression. -/
def supersede (alert : ProcessAlert) (decisions : String → Option AlertStatus) :
    String → Option AlertStatus := fun key =>
  if alert.eventType = "EXIT" ∧ key = alertKey alert.ruleId alert.processName ∧
      decisions key ≠ some .suppressed then
    none
  else decisions key

namespace Deployment

def lifecycle (state : Deployment) (alert : ProcessAlert) (fault : Option PersistFault) :
    Deployment :=
  let (daemon, file, _) := state.daemon.apply alert fault state.file
  { state with daemon, file, decisions := supersede alert state.decisions }

/-- A command opens the file; it exits when it cannot. -/
def openCommand (state : Deployment) (command : Nat) : Deployment :=
  { state with
    commands := Function.update state.commands command
      (AlertStore.open state.path state.file).toOption }

/-- A command sets a status and exits; a successful decision stands. -/
def setStatus (state : Deployment) (command : Nat) (instanceId : String) (status : AlertStatus)
    (detail : String) (observedAt : Nat) (fault : Option PersistFault) : Deployment :=
  match state.commands command with
  | none => state
  | some store =>
      let commands := Function.update state.commands command none
      match store.findInstance instanceId,
          (store.setStatus instanceId status detail observedAt fault state.file).2 with
      | some (key, _), (file, .ok _) =>
          { state with
            commands
            file
            decisions := Function.update state.decisions key (some status) }
      | _, (file, _) => { state with commands, file }

def step (state : Deployment) : AlertEvent → Deployment
  | .lifecycle alert fault => state.lifecycle alert fault
  | .openCommand command => state.openCommand command
  | .setStatus command instanceId status detail observedAt fault =>
      state.setStatus command instanceId status detail observedAt fault

/-- The file has the decided status of every key. -/
def Reflects (state : Deployment) : Prop :=
  ∀ key status, state.decisions key = some status → state.file.statusOf key = some status

end Deployment

/-- After the event the file reflects every decision that stands, and no event
other than EXIT makes an acknowledged or suppressed alert fire. -/
structure DecisionsKept (state : Deployment) (event : AlertEvent) : Prop where
  reflects : (state.step event).Reflects
  silent : ∀ alert fault, event = .lifecycle alert fault → alert.eventType ≠ "EXIT" →
    state.decisions (alertKey alert.ruleId alert.processName) = some .acknowledged ∨
      state.decisions (alertKey alert.ruleId alert.processName) = some .suppressed →
    ∀ emitted, (state.daemon.apply alert fault state.file).2.2 ≠ .ok (some emitted)

/-- The copy has the decided status of every key but one. -/
def CurrentBut (key : String) (store : AlertStore) (state : Deployment) : Prop :=
  ∀ other status, other ≠ key → state.decisions other = some status →
    store.statusOf other = some status

/-- Whoever is about to persist its copy knows the decisions about the other
keys; the daemon changes its own key only by an EXIT where no suppression stands,
or where no decision but a firing one does. -/
def PersistsCurrent (state : Deployment) : AlertEvent → Prop
  | .lifecycle alert fault =>
      let key := alertKey alert.ruleId alert.processName
      fault = none →
      holdsStill (state.daemon.state.records[key]?) (desiredStatus alert) = false →
        CurrentBut key state.daemon state ∧
          if alert.eventType = "EXIT" then state.decisions key ≠ some .suppressed
          else state.decisions key = none ∨ state.decisions key = some .firing
  | .openCommand _ => True
  | .setStatus command instanceId status _ _ fault =>
      fault = none → ∀ store key record, state.commands command = some store →
        store.findInstance instanceId = some (key, record) →
        ¬(record.status = .resolved ∧ status = .acknowledged) → CurrentBut key store state

section Steps

variable {state : Deployment}

theorem supersede_some {alert : ProcessAlert} {key : String} {status : AlertStatus}
    (stands : supersede alert state.decisions key = some status) :
    state.decisions key = some status ∧
      ¬(alert.eventType = "EXIT" ∧ key = alertKey alert.ruleId alert.processName ∧
        status ≠ .suppressed) := by
  unfold supersede at stands
  split at stands
  · contradiction
  · rename_i kept
    refine ⟨stands, fun superseded => kept ⟨superseded.1, superseded.2.1, ?_⟩⟩
    rw [stands]
    exact fun same => superseded.2.2 (Option.some.inj same)

theorem reflects_supersede (alert : ProcessAlert) (reflects : state.Reflects) {key : String}
    {status : AlertStatus} (stands : supersede alert state.decisions key = some status) :
    state.file.statusOf key = some status :=
  reflects key status (supersede_some stands).1

theorem supersede_of_ne {alert : ProcessAlert} {key : String}
    (other : key ≠ alertKey alert.ruleId alert.processName) :
    supersede alert state.decisions key = state.decisions key :=
  if_neg fun superseded => other superseded.2.1

theorem reflects_lifecycle {alert : ProcessAlert} {fault : Option PersistFault}
    {daemon : AlertStore} {file : StateFile} {result : AppResult (Option ProcessAlert)}
    (applied : state.daemon.apply alert fault state.file = (daemon, file, result)) :
    (state.step (.lifecycle alert fault)).Reflects ↔
      ∀ key status, supersede alert state.decisions key = some status →
        file.statusOf key = some status := by
  change (state.lifecycle alert fault).Reflects ↔ _
  unfold Deployment.lifecycle
  rw [applied]
  rfl

variable (state) in
/-- The file after a transition of the daemon reflects the decisions exactly
when its copy did. -/
theorem reflects_transition_iff (alert : ProcessAlert) (record : AlertRecord)
    (status : record.status = desiredStatus alert) :
    (∀ key status, supersede alert state.decisions key = some status →
      (state.daemon.insert (alertKey alert.ruleId alert.processName) record).statusOf key =
        some status) ↔
    CurrentBut (alertKey alert.ruleId alert.processName) state.daemon state ∧
      if alert.eventType = "EXIT" then
        state.decisions (alertKey alert.ruleId alert.processName) ≠ some .suppressed
      else
        state.decisions (alertKey alert.ruleId alert.processName) = none ∨
          state.decisions (alertKey alert.ruleId alert.processName) = some .firing := by
  constructor
  · intro kept
    constructor
    · intro other decided distinct stands
      have after := kept other decided (by rw [supersede_of_ne distinct, stands])
      rwa [statusOf_insert, if_neg distinct.symm] at after
    · have own : ∀ decided,
          supersede alert state.decisions (alertKey alert.ruleId alert.processName) =
            some decided → desiredStatus alert = decided := by
        intro decided stands
        have after := kept _ decided stands
        rw [statusOf_insert, if_pos rfl, status] at after
        exact Option.some.inj after
      unfold desiredStatus supersede at own
      split
      · rename_i exits
        intro suppressed
        have conflict := own .suppressed (by simp [suppressed])
        rw [if_pos exits] at conflict
        contradiction
      · rename_i lives
        cases stands : state.decisions (alertKey alert.ruleId alert.processName) with
        | none => exact Or.inl rfl
        | some decided =>
            have same := own decided (by simp [lives, stands])
            rw [if_neg lives] at same
            exact Or.inr (by rw [same])
  · rintro ⟨current, own⟩ key decided stands
    obtain ⟨before, remains⟩ := supersede_some stands
    rw [statusOf_insert]
    split
    · rename_i same
      subst same
      rw [status]
      unfold desiredStatus
      split at own
      · rename_i exits
        -- only a suppression outlives an EXIT of its key
        refine absurd ⟨exits, rfl, ?_⟩ remains
        exact fun suppressed => own (by rw [before, suppressed])
      · rename_i lives
        rw [if_neg lives]
        rcases own with none | firing
        · rw [none] at before
          contradiction
        · rw [← before, firing]
    · rename_i distinct
      exact current key decided (fun same => distinct same.symm) before

/-- The step lemma for the daemon. -/
theorem lifecycle_kept_iff (reflects : state.Reflects) (alert : ProcessAlert)
    (fault : Option PersistFault) :
    DecisionsKept state (.lifecycle alert fault) ↔
      PersistsCurrent state (.lifecycle alert fault) := by
  rcases apply_cases state.daemon fault state.file alert with
    ⟨still, applied⟩ | ⟨-, failure, failed, applied⟩ | ⟨moves, written, emitted, applied⟩
  · constructor
    · intro _ _ moves
      rw [still] at moves
      contradiction
    · intro _
      refine ⟨(reflects_lifecycle applied).mpr fun _ _ => reflects_supersede alert reflects, ?_⟩
      rintro _ _ same - - emitted
      cases same
      rw [applied]
      nofun
  · constructor
    · intro _ written
      rw [failed] at written
      contradiction
    · intro _
      refine ⟨(reflects_lifecycle applied).mpr fun _ _ => reflects_supersede alert reflects, ?_⟩
      rintro _ _ same - - emitted
      cases same
      rw [applied]
      nofun
  · have after := reflects_transition_iff state alert
      (nextRecord (state.daemon.state.records[alertKey alert.ruleId alert.processName]?)
        (desiredStatus alert) alert) rfl
    constructor
    · intro kept _ _
      exact after.mp ((reflects_lifecycle applied).mp kept.reflects)
    · intro current
      have known := current written moves
      refine ⟨(reflects_lifecycle applied).mpr (after.mpr known), ?_⟩
      rintro _ _ same lives decided emitted
      cases same
      rw [if_neg lives] at known
      rcases known.2 with none | firing
      · rw [none] at decided
        simp at decided
      · rw [firing] at decided
        simp at decided

/-- The step lemma for a command. -/
theorem setStatus_kept_iff (reflects : state.Reflects) (command : Nat) (instanceId : String)
    (status : AlertStatus) (detail : String) (observedAt : Nat) (fault : Option PersistFault) :
    DecisionsKept state (.setStatus command instanceId status detail observedAt fault) ↔
      PersistsCurrent state (.setStatus command instanceId status detail observedAt fault) := by
  have onlyReflects : DecisionsKept state
        (.setStatus command instanceId status detail observedAt fault) ↔
      (state.setStatus command instanceId status detail observedAt fault).Reflects :=
    ⟨fun kept => kept.reflects, fun after => ⟨after, nofun⟩⟩
  rw [onlyReflects]
  unfold Deployment.setStatus
  cases opened : state.commands command with
  | none => exact ⟨fun _ _ store _ _ holding => by simp [opened] at holding, fun _ => reflects⟩
  | some store =>
      dsimp only
      rcases setStatus_cases store fault state.file instanceId status detail observedAt with
        ⟨impossible, failure, refused⟩ | ⟨key, record, found, allowed, written, decided⟩
      · rw [refused]
        constructor
        · intro _ succeeds other key record holding found allowed
          rw [opened] at holding
          cases holding
          exact absurd succeeds (impossible key record found allowed)
        · intro _
          cases store.findInstance instanceId <;> exact reflects
      · rw [found, decided]
        constructor
        · intro after _ other key' record' holding found' _
          rw [opened] at holding
          cases holding
          rw [found] at found'
          cases found'
          intro name decision distinct stands
          have kept := after name decision (by
            change Function.update state.decisions key (some status) name = some decision
            rwa [Function.update_of_ne distinct])
          change (store.insert key _).statusOf name = some decision at kept
          rwa [statusOf_insert, if_neg distinct.symm] at kept
        · intro current name decision stands
          change Function.update state.decisions key (some status) name = some decision at stands
          change (store.insert key _).statusOf name = some decision
          rw [statusOf_insert]
          split
          · rename_i same
            subst same
            rwa [Function.update_self] at stands
          · rename_i distinct
            rw [Function.update_of_ne fun same => distinct same.symm] at stands
            exact current written store key record opened found allowed name decision
              (fun same => distinct same.symm) stands

theorem decisionsKept_iff (event : AlertEvent) (reflects : state.Reflects) :
    DecisionsKept state event ↔ PersistsCurrent state event := by
  cases event with
  | lifecycle alert fault => exact lifecycle_kept_iff reflects alert fault
  | openCommand command => exact ⟨fun _ => trivial, fun _ => ⟨reflects, nofun⟩⟩
  | setStatus command instanceId status detail observedAt fault =>
      exact setStatus_kept_iff reflects command instanceId status detail observedAt fault

end Steps

/-- The deployment at start-up: the daemon opens the file it finds. -/
def Deployment.start (path : String) (file : StateFile) : AppResult Deployment := do
  let daemon ← AlertStore.open path file
  return { path, file, daemon }

/-- Over every interleaving of lifecycle events and commands: the file reflects
every decision that stands after each step, and no acknowledged or suppressed
alert fires, exactly when every process that persists its copy knows the
decisions that stand. -/
theorem operator_decisions_kept_iff (path : String) (file : StateFile) (start : Deployment)
    (started : Deployment.start path file = .ok start) (events : List AlertEvent) :
    Machine.EveryStep Deployment.step DecisionsKept start events ↔
      Machine.EveryStep Deployment.step PersistsCurrent start events := by
  have undecided : start.Reflects := by
    unfold Deployment.start at started
    cases opened : AlertStore.open path file with
    | error failure =>
        rw [opened] at started
        cases started
    | ok daemon =>
        rw [opened] at started
        cases started
        nofun
  exact Machine.everyStep_iff_of_established Deployment.step Deployment.Reflects DecisionsKept
    PersistsCurrent (fun _ _ _ kept => kept.reflects)
    (fun _ event reflects => decisionsKept_iff event reflects) start events undecided

/-! ## A suppression that is undone -/

/-- A lifecycle event under one rule. -/
def plainEvent (processName eventType : String) (observedAt : Nat) : ProcessAlert where
  ruleId := "rule"
  processName
  pid := 10
  ppid := 1
  eventType
  observedAtUnixNanos := observedAt
  labels := ∅

/-- The deployment at start-up, before any alert. -/
def plainDeployment : Deployment where
  path := "alerts-v1.json"
  file := .absent
  daemon := ⟨"alerts-v1.json", 1, ∅⟩

/-- The operator suppresses the only alert, and it stays quiet. -/
theorem operator_decisions_kept_iff_suppressed :
    Machine.EveryStep Deployment.step DecisionsKept plainDeployment
      [.lifecycle (plainEvent "sshd" "EXEC" 1) none, .openCommand 1,
        .setStatus 1 "rule-1" .suppressed "operator action: suppress" 2 none,
        .lifecycle (plainEvent "sshd" "FORK" 3) none] :=
  (operator_decisions_kept_iff "alerts-v1.json" .absent plainDeployment rfl
    [.lifecycle (plainEvent "sshd" "EXEC" 1) none, .openCommand 1,
      .setStatus 1 "rule-1" .suppressed "operator action: suppress" 2 none,
      .lifecycle (plainEvent "sshd" "FORK" 3) none]).mpr (by
      rw [Machine.everyStep_cons, Machine.everyStep_cons, Machine.everyStep_cons,
        Machine.everyStep_cons]
      refine ⟨?_, trivial, ?_, ?_, by simp [Machine.EveryStep, Machine.visited]⟩
      · intro _ _
        refine ⟨?_, Or.inl rfl⟩
        intro other status _ stands
        exact absurd stands (Option.some_ne_none status).symm
      · intro _ store key record _ _ _ other status _ stands
        exact absurd stands (Option.some_ne_none status).symm
      · intro _ moves
        exact absurd moves (by decide))

/-- The daemon persists the copy it opened before the suppression. -/
theorem suppression_is_undone :
    let events : List AlertEvent :=
      [.lifecycle (plainEvent "sshd" "EXEC" 1) none, .openCommand 1,
        .setStatus 1 "rule-1" .suppressed "operator action: suppress" 2 none]
    let reached := Machine.run Deployment.step plainDeployment events
    let after := reached.step (.lifecycle (plainEvent "nginx" "EXEC" 3) none)
    reached.file.statusOf "rule:sshd" = some .suppressed ∧
      after.file.statusOf "rule:sshd" = some .firing ∧
      ¬Machine.EveryStep Deployment.step DecisionsKept plainDeployment
        (events ++ [.lifecycle (plainEvent "nginx" "EXEC" 3) none]) := by
  intro events reached after
  have before : reached.file.statusOf "rule:sshd" = some .suppressed := by decide
  have undone : after.file.statusOf "rule:sshd" = some .firing := by decide
  refine ⟨before, undone, ?_⟩
  intro every
  have last : DecisionsKept reached (.lifecycle (plainEvent "nginx" "EXEC" 3) none) :=
    every (reached, .lifecycle (plainEvent "nginx" "EXEC" 3) none) (by
      rw [Machine.mem_visited_iff]
      exact ⟨events, [], rfl, rfl⟩)
  have stands : after.decisions "rule:sshd" = some .suppressed := by decide
  have kept : after.file.statusOf "rule:sshd" = some .suppressed :=
    last.reflects "rule:sshd" .suppressed stands
  rw [undone] at kept
  contradiction

end SystemPilot.Alert
