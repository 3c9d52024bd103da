import Mathlib.Tactic

/-!
# Forensic events

The records a kernel collector hands to the correlator and the report it makes
of a death.  Timestamps and identifiers are unsigned, exit codes and signals are
the signed integers of the kernel.
-/

set_option autoImplicit false

namespace SystemPilot.Forensics

structure ProcessIdentity where
  tgid : Nat
  startBoottimeNs : Nat
  deriving DecidableEq, Repr

inductive OomKind where
  | global
  | memcg
  | unknown
  deriving DecidableEq, Repr

inductive KernelEvent where
  | processExit (timestampNs : Nat) (identity : ProcessIdentity) (pid ppid cgroupId : Nat)
      (exitCode : Int) (isGroupLeader : Bool)
  | signalGenerated (timestampNs : Nat) (target : ProcessIdentity) (signal siCode : Int)
      (senderPid senderUid : Nat) (senderIsKernel : Bool) (cgroupId : Nat)
  | oomVictim (timestampNs : Nat) (victim : ProcessIdentity) (cgroupId : Nat) (kind : OomKind)
  | telemetryLoss (timestampNs droppedRecords : Nat)
  deriving DecidableEq, Repr

def KernelEvent.timestampNs : KernelEvent → Nat
  | .processExit timestampNs _ _ _ _ _ _ => timestampNs
  | .signalGenerated timestampNs _ _ _ _ _ _ _ => timestampNs
  | .oomVictim timestampNs _ _ _ => timestampNs
  | .telemetryLoss timestampNs _ => timestampNs

/-- The process an event is about; a loss is about none. -/
def KernelEvent.identity : KernelEvent → Option ProcessIdentity
  | .processExit _ identity _ _ _ _ _ => some identity
  | .signalGenerated _ target _ _ _ _ _ _ => some target
  | .oomVictim _ victim _ _ => some victim
  | .telemetryLoss _ _ => none

/-- An exit of a thread group's leader. -/
def KernelEvent.isDeath : KernelEvent → Bool
  | .processExit _ _ _ _ _ _ isGroupLeader => isGroupLeader
  | _ => false

/-- A loss of at least one record. -/
def KernelEvent.isLoss : KernelEvent → Bool
  | .telemetryLoss _ droppedRecords => droppedRecords != 0
  | _ => false

inductive ExitDisposition where
  | exited (status : Nat)
  | signalled (signal : Nat) (coreDumped : Bool)
  deriving DecidableEq, Repr

/-- `ExitDisposition::from_exit_code`; `exit_code as u32` keeps the low 32 bits. -/
def ExitDisposition.fromExitCode (exitCode : Int) : ExitDisposition :=
  let raw := (exitCode % 2 ^ 32).toNat
  let signal := raw &&& 0x7f
  if signal = 0 then .exited ((raw >>> 8) &&& 0xff)
  else .signalled signal (raw &&& 0x80 != 0)

inductive Confidence where
  | unknown
  | low
  | medium
  | high
  | confirmed
  deriving DecidableEq, Repr

/-- The order of the declaration. -/
def Confidence.rank : Confidence → Nat
  | .unknown => 0
  | .low => 1
  | .medium => 2
  | .high => 3
  | .confirmed => 4

def Confidence.min (left right : Confidence) : Confidence :=
  if left.rank ≤ right.rank then left else right

inductive SignalOrigin where
  | kernel
  | process (pid uid : Nat)
  | unknown
  deriving DecidableEq, Repr

def SignalOrigin.fromParts (senderPid senderUid : Nat) (senderIsKernel : Bool) : SignalOrigin :=
  if senderIsKernel then .kernel
  else if senderPid ≠ 0 then .process senderPid senderUid
  else .unknown

inductive Cause where
  | normalExit (status : Nat)
  | fatalSignal (signal : Nat) (origin : SignalOrigin)
  | globalOom
  | cgroupOom (cgroupId : Nat)
  | unknown
  deriving DecidableEq, Repr

inductive Evidence where
  | exit (disposition : ExitDisposition)
  | signal (signal : Int) (origin : SignalOrigin) (siCode : Int)
  | oomVictim (kind : OomKind) (cgroupId : Nat)
  | telemetryLoss (droppedRecords : Nat)
  deriving DecidableEq, Repr

structure DeathReport where
  identity : ProcessIdentity
  timestampNs : Nat
  cgroupId : Nat
  disposition : ExitDisposition
  cause : Cause
  confidence : Confidence
  evidence : List Evidence
  evidenceIncomplete : Bool
  deriving DecidableEq, Repr

theorem Confidence.rank_min_medium (confidence : Confidence) :
    (confidence.min .medium).rank ≤ Confidence.medium.rank := by
  cases confidence <;> decide

theorem KernelEvent.identity_of_isDeath {event : KernelEvent} (death : event.isDeath = true) :
    ∃ identity, event.identity = some identity := by
  cases event with
  | processExit _ identity _ _ _ _ _ => exact ⟨identity, rfl⟩
  | signalGenerated => contradiction
  | oomVictim => contradiction
  | telemetryLoss => contradiction

theorem KernelEvent.not_isLoss_of_identity {event : KernelEvent} {identity : ProcessIdentity}
    (own : event.identity = some identity) : event.isLoss = false := by
  cases event <;> first | rfl | contradiction

end SystemPilot.Forensics
