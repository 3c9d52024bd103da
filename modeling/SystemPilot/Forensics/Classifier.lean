import Mathlib.Tactic
import SystemPilot.Forensics.Events

/-!
# The classifier

`Classifier::classify` on the events of one timeline: the last exit of the group
leader, the last matching signal and the last OOM kill in its causal window, and
the cause they give.  The lemmas say where a report comes from.
-/

set_option autoImplicit false

namespace SystemPilot.Forensics

/-- `MAX_CAUSAL_DISTANCE_NS`. -/
def maxCausalDistanceNs : Nat := 5000000000

/-- The event is no later than the exit and not too long before it. -/
def isCausal (exitNs eventNs : Nat) : Bool :=
  decide (eventNs ≤ exitNs) && decide (exitNs - eventNs ≤ maxCausalDistanceNs)

/-- What the classifier reads of an exit. -/
structure LeaderExit where
  timestampNs : Nat
  cgroupId : Nat
  exitCode : Int
  deriving DecidableEq

def leaderExit (identity : ProcessIdentity) : KernelEvent → Option LeaderExit
  | .processExit timestampNs eventIdentity _ _ cgroupId exitCode isGroupLeader =>
      if isGroupLeader && eventIdentity == identity then some ⟨timestampNs, cgroupId, exitCode⟩
      else none
  | _ => none

/-- What the classifier reads of a signal. -/
structure GeneratedSignal where
  signal : Int
  origin : SignalOrigin
  siCode : Int
  deriving DecidableEq

def matchingSignal (identity : ProcessIdentity) (exitNs : Nat) (expected : Int) :
    KernelEvent → Option GeneratedSignal
  | .signalGenerated eventNs target signal siCode senderPid senderUid senderIsKernel _ =>
      if target == identity && signal == expected && isCausal exitNs eventNs then
        some ⟨signal, .fromParts senderPid senderUid senderIsKernel, siCode⟩
      else none
  | _ => none

/-- What the classifier reads of an OOM kill. -/
structure OomKill where
  kind : OomKind
  cgroupId : Nat
  deriving DecidableEq

def matchingOom (identity : ProcessIdentity) (exitNs : Nat) : KernelEvent → Option OomKill
  | .oomVictim eventNs victim cgroupId kind =>
      if victim == identity && isCausal exitNs eventNs then some ⟨kind, cgroupId⟩ else none
  | _ => none

/-- The signal a disposition ends with, as the signed number events carry. -/
def ExitDisposition.terminalSignal : ExitDisposition → Option Int
  | .exited _ => none
  | .signalled signal _ => some signal

/-- The last signal that matches the disposition. -/
def generatedSignal (identity : ProcessIdentity) (exitNs : Nat) (disposition : ExitDisposition)
    (events : List KernelEvent) : Option GeneratedSignal :=
  disposition.terminalSignal.bind fun expected =>
    events.reverse.findSome? (matchingSignal identity exitNs expected)

/-- The last OOM kill in the window. -/
def lastOom (identity : ProcessIdentity) (exitNs : Nat) (events : List KernelEvent) :
    Option OomKill :=
  events.reverse.findSome? (matchingOom identity exitNs)

def evidenceOf (disposition : ExitDisposition) (signal : Option GeneratedSignal)
    (oom : Option OomKill) (evidenceIncomplete : Bool) : List Evidence :=
  [.exit disposition] ++
    (signal.map fun signal => .signal signal.signal signal.origin signal.siCode).toList ++
    (oom.map fun oom => .oomVictim oom.kind oom.cgroupId).toList ++
    if evidenceIncomplete then [.telemetryLoss 0] else []

/-- The arm for a signal no OOM kill explains. -/
def fatalSignal (terminal : Nat) (signal : Option GeneratedSignal) : Cause × Confidence :=
  let origin := (signal.map GeneratedSignal.origin).getD .unknown
  (.fatalSignal terminal origin, if origin = .unknown then .medium else .high)

/-- The ordered cases of the cause. -/
def verdict (cgroupId : Nat) (disposition : ExitDisposition) (signal : Option GeneratedSignal)
    (oom : Option OomKill) : Cause × Confidence :=
  match disposition, oom with
  | .exited status, _ => (.normalExit status, .confirmed)
  | .signalled 9 _, some ⟨.memcg, oomCgroupId⟩ =>
      if oomCgroupId = cgroupId then (.cgroupOom cgroupId, .confirmed) else fatalSignal 9 signal
  | .signalled 9 _, some ⟨.global, _⟩ => (.globalOom, .high)
  | .signalled 9 _, some ⟨.unknown, _⟩ => (.unknown, .medium)
  | .signalled terminal _, _ => fatalSignal terminal signal

/-- The report of an exit from the evidence that was found. -/
def deathReport (identity : ProcessIdentity) (exit : LeaderExit) (signal : Option GeneratedSignal)
    (oom : Option OomKill) (evidenceIncomplete : Bool) : DeathReport :=
  let disposition := ExitDisposition.fromExitCode exit.exitCode
  let (cause, confidence) := verdict exit.cgroupId disposition signal oom
  { identity
    timestampNs := exit.timestampNs
    cgroupId := exit.cgroupId
    disposition
    cause
    confidence := if evidenceIncomplete then confidence.min .medium else confidence
    evidence := evidenceOf disposition signal oom evidenceIncomplete
    evidenceIncomplete }

def classify (identity : ProcessIdentity) (events : List KernelEvent)
    (evidenceIncomplete : Bool) : Option DeathReport := do
  let exit ← events.reverse.findSome? (leaderExit identity)
  let disposition := ExitDisposition.fromExitCode exit.exitCode
  return deathReport identity exit
    (generatedSignal identity exit.timestampNs disposition events)
    (lastOom identity exit.timestampNs events) evidenceIncomplete

/-! ## The exit that is reported -/

section Facts

variable {identity : ProcessIdentity} {event : KernelEvent}

theorem leaderExit_of_isDeath (death : event.isDeath = true)
    (own : event.identity = some identity) : ∃ exit, leaderExit identity event = some exit := by
  cases event with
  | processExit timestampNs eventIdentity pid ppid cgroupId exitCode isGroupLeader =>
      cases own
      have leader : isGroupLeader = true := death
      exact ⟨⟨timestampNs, cgroupId, exitCode⟩, by simp [leaderExit, leader]⟩
  | signalGenerated => contradiction
  | oomVictim => contradiction
  | telemetryLoss => contradiction

/-- A timeline that ends with the leader's exit is always classified. -/
theorem classify_exit {exit : LeaderExit} (found : leaderExit identity event = some exit)
    (events : List KernelEvent) (evidenceIncomplete : Bool) :
    classify identity (events ++ [event]) evidenceIncomplete =
      some (deathReport identity exit
        (generatedSignal identity exit.timestampNs
          (ExitDisposition.fromExitCode exit.exitCode) (events ++ [event]))
        (lastOom identity exit.timestampNs (events ++ [event])) evidenceIncomplete) := by
  unfold classify
  rw [List.reverse_append, List.reverse_singleton, List.singleton_append, List.findSome?_cons,
    found]
  rfl

theorem matchingSignal_of_leaderExit {exit : LeaderExit} (exitNs : Nat) (expected : Int)
    (found : leaderExit identity event = some exit) :
    matchingSignal identity exitNs expected event = none := by
  cases event <;> first | rfl | contradiction

theorem matchingOom_of_leaderExit {exit : LeaderExit} (exitNs : Nat)
    (found : leaderExit identity event = some exit) :
    matchingOom identity exitNs event = none := by
  cases event <;> first | rfl | contradiction

/-- The exit itself adds nothing to the search for its cause. -/
theorem generatedSignal_concat {exit : LeaderExit} (exitNs : Nat)
    (disposition : ExitDisposition) (events : List KernelEvent)
    (found : leaderExit identity event = some exit) :
    generatedSignal identity exitNs disposition (events ++ [event]) =
      generatedSignal identity exitNs disposition events := by
  unfold generatedSignal
  congr 1
  funext expected
  rw [List.reverse_append, List.reverse_singleton, List.singleton_append, List.findSome?_cons,
    matchingSignal_of_leaderExit exitNs expected found]

theorem lastOom_concat {exit : LeaderExit} (exitNs : Nat) (events : List KernelEvent)
    (found : leaderExit identity event = some exit) :
    lastOom identity exitNs (events ++ [event]) = lastOom identity exitNs events := by
  unfold lastOom
  rw [List.reverse_append, List.reverse_singleton, List.singleton_append, List.findSome?_cons,
    matchingOom_of_leaderExit exitNs found]

/-- The report of an exit from the evidence in a list of events. -/
def exitReport (identity : ProcessIdentity) (exit : LeaderExit) (events : List KernelEvent)
    (evidenceIncomplete : Bool) : DeathReport :=
  deathReport identity exit
    (generatedSignal identity exit.timestampNs (ExitDisposition.fromExitCode exit.exitCode) events)
    (lastOom identity exit.timestampNs events) evidenceIncomplete

/-- The exit itself is no evidence of its cause. -/
theorem classify_concat_exit {exit : LeaderExit} (found : leaderExit identity event = some exit)
    (events : List KernelEvent) (evidenceIncomplete : Bool) :
    classify identity (events ++ [event]) evidenceIncomplete =
      some (exitReport identity exit events evidenceIncomplete) := by
  rw [classify_exit found, generatedSignal_concat _ _ _ found, lastOom_concat _ _ found]
  rfl

theorem isDeath_of_leaderExit {exit : LeaderExit}
    (found : leaderExit identity event = some exit) :
    event.isDeath = true ∧ event.identity = some identity := by
  cases event with
  | processExit timestampNs owner pid ppid cgroupId exitCode isGroupLeader =>
      simp only [leaderExit] at found
      split at found
      · rename_i both
        rw [Bool.and_eq_true, beq_iff_eq] at both
        exact ⟨both.1, congrArg some both.2⟩
      · contradiction
  | signalGenerated => contradiction
  | oomVictim => contradiction
  | telemetryLoss => contradiction

/-! ## What a report reveals -/

theorem evidence_inj {signal signal' : Option GeneratedSignal} {oom oom' : Option OomKill}
    (same : (signal.map fun found => Evidence.signal found.signal found.origin found.siCode).toList ++
        (oom.map fun found => Evidence.oomVictim found.kind found.cgroupId).toList =
      (signal'.map fun found => Evidence.signal found.signal found.origin found.siCode).toList ++
        (oom'.map fun found => Evidence.oomVictim found.kind found.cgroupId).toList) :
    signal = signal' ∧ oom = oom' := by
  rcases signal with - | ⟨signal, origin, siCode⟩ <;>
    rcases signal' with - | ⟨signal', origin', siCode'⟩ <;>
    rcases oom with - | ⟨kind, cgroupId⟩ <;>
    rcases oom' with - | ⟨kind', cgroupId'⟩ <;>
    simp_all

/-- Two reports of one exit are equal only if they rest on the same evidence. -/
theorem deathReport_inj {exit : LeaderExit} {signal signal' : Option GeneratedSignal}
    {oom oom' : Option OomKill} {incomplete incomplete' : Bool} :
    deathReport identity exit signal oom incomplete =
        deathReport identity exit signal' oom' incomplete' ↔
      signal = signal' ∧ oom = oom' ∧ incomplete = incomplete' := by
  constructor
  · intro same
    have flags : incomplete = incomplete' := congrArg DeathReport.evidenceIncomplete same
    have entries : evidenceOf (ExitDisposition.fromExitCode exit.exitCode) signal oom incomplete =
        evidenceOf (ExitDisposition.fromExitCode exit.exitCode) signal' oom' incomplete' :=
      congrArg DeathReport.evidence same
    subst flags
    unfold evidenceOf at entries
    have found := List.append_cancel_right entries
    rw [List.append_assoc, List.append_assoc] at found
    have rest := List.append_cancel_left found
    exact ⟨(evidence_inj rest).1, (evidence_inj rest).2, rfl⟩
  · rintro ⟨rfl, rfl, rfl⟩
    rfl

end Facts

end SystemPilot.Forensics
