import SystemPilot.Alert.Engine
import SystemPilot.Netlink.Listener

/-!
# The process tree

What `netlink_listener` does with the frames it reads: the tree of processes, the
lifecycle events it publishes and queues, and the alert transitions they cause.
The process file system, the clock and the other ends of the channels answer from
outside, once for each frame.
-/

set_option autoImplicit false

namespace SystemPilot.Netlink

open SystemPilot.Library
open SystemPilot.Alert
open SystemPilot.Cloud (ProcessAlert)

structure ProcessNode where
  pid : Int
  ppid : Int
  name : String
  state : Char
  deriving DecidableEq, Repr

structure ProcessEvent where
  timestampNs : Nat
  eventType : String
  pid : Int
  ppid : Int
  name : String
  exitStatus : Option Int := none
  parentExitSignal : Option Int := none
  exitReason : Option String := none
  deriving DecidableEq, Repr

/-- `describe_exit_status`; the masks and the shift of an `i32` are remainders
and a quotient rounded down. -/
def describeExitStatus (status : Int) : String :=
  let signal := status % 128
  if signal ≠ 0 then
    let suffix := if status / 128 % 2 ≠ 0 then " (core dumped)" else ""
    "terminated by signal " ++ toString signal ++ suffix
  else
    let code := status / 256 % 256
    if code = 0 then "exited normally (code 0)" else "exited with code " ++ toString code

/-- What is answered from outside while one frame is handled: `read_comm`,
`read_ppid`, `now_ns`, whether the lock of the alert state is poisoned, how each
write of it ends, and whether the event queue has room. -/
structure Answers where
  comm : Int → String
  ppid : Int → Int
  now : Nat
  poisoned : Bool
  fault : ProcessAlert → Option PersistFault
  room : Bool

/-- What the telemetry publisher is given. -/
inductive Publication where
  | lifecycle (event : ProcessEvent)
  | alert (alert : ProcessAlert)
  deriving DecidableEq

structure Daemon where
  tree : Std.ExtTreeMap Int ProcessNode
  alertState : AlertStore
  alertFile : StateFile
  published : List Publication
  queued : List ProcessEvent
  droppedEvents : Nat
  handled : Nat

namespace Daemon

/-- One round of the loop of `record_event`. -/
def applyAlert (answers : Answers) (daemon : Daemon) (alert : ProcessAlert) : Daemon :=
  if answers.poisoned then daemon
  else
    match daemon.alertState.apply alert (answers.fault alert) daemon.alertFile with
    | (alertState, alertFile, .ok (some emitted)) =>
        { daemon with
          alertState
          alertFile
          published := daemon.published ++ [.alert emitted] }
    | (alertState, alertFile, _) => { daemon with alertState, alertFile }

def recordEvent (alerts : ProcessAlertEngine) (answers : Answers) (daemon : Daemon)
    (event : ProcessEvent) : Daemon :=
  let announced := { daemon with published := daemon.published ++ [.lifecycle event] }
  let evaluated :=
    (alerts.evaluate event.name event.pid event.ppid event.eventType event.timestampNs).foldl
      (applyAlert answers) announced
  if answers.room then { evaluated with queued := evaluated.queued ++ [event] }
  else { evaluated with droppedEvents := evaluated.droppedEvents + 1 }

/-- The tree after a frame, and the event about it. -/
def track (answers : Answers) (tree : Std.ExtTreeMap Int ProcessNode) :
    Frame → Std.ExtTreeMap Int ProcessNode × Option ProcessEvent
  | .fork parent child =>
      let name := answers.comm child
      (tree.insert child { pid := child, ppid := parent, name, state := 'S' },
        some { timestampNs := answers.now, eventType := "FORK", pid := child, ppid := parent,
               name })
  | .exec pid =>
      let name := answers.comm pid
      let node :=
        match tree[pid]? with
        | some known => { known with name }
        | none => { pid, ppid := answers.ppid pid, name, state := 'S' }
      (tree.insert pid node,
        some { timestampNs := answers.now, eventType := "EXEC", pid, ppid := 0, name })
  | .exit pid status signal =>
      let name := (tree[pid]?.map ProcessNode.name).getD ""
      (tree.erase pid,
        some { timestampNs := answers.now, eventType := "EXIT", pid, ppid := 0, name,
               exitStatus := some status, parentExitSignal := some signal,
               exitReason := some (describeExitStatus status) })
  | .kernelError _ => (tree, none)

/-- The arm of the listener for one frame. -/
def handleFrame (alerts : ProcessAlertEngine) (world : Nat → Answers) (daemon : Daemon)
    (frame : Frame) : Daemon :=
  let answers := world daemon.handled
  match track answers daemon.tree frame with
  | (tree, some event) =>
      recordEvent alerts answers { daemon with tree, handled := daemon.handled + 1 } event
  | (_, none) => daemon

/-- `netlink_listener` over the received parts of its buffer, past which it reads
nothing (`listenReadings_eq`); it returns at an error. -/
def netlinkListener (alerts : ProcessAlertEngine) (world : Nat → Answers) :
    Daemon → List (List UInt8) → Daemon
  | daemon, [] => daemon
  | daemon, received :: rest =>
      let frames := listenFrames received received.length
      let daemon := frames.foldl (handleFrame alerts world) daemon
      if frames.all Frame.isEvent then netlinkListener alerts world daemon rest else daemon

/-- The pids in the tree. -/
def pids (daemon : Daemon) : Set Int :=
  {pid | pid ∈ daemon.tree}

/-! ## What a frame does -/

section Frames

variable (alerts : ProcessAlertEngine) (answers : Answers)

/-- An alert leaves the tree alone and takes back nothing that was published. -/
theorem applyAlert_spec (daemon : Daemon) (alert : ProcessAlert) :
    (applyAlert answers daemon alert).tree = daemon.tree ∧
      daemon.published <+: (applyAlert answers daemon alert).published := by
  unfold applyAlert
  split
  · exact ⟨rfl, List.prefix_rfl⟩
  · split
    · exact ⟨rfl, List.prefix_append _ _⟩
    · exact ⟨rfl, List.prefix_rfl⟩

theorem foldl_applyAlert_spec (daemon : Daemon) (raised : List ProcessAlert) :
    (raised.foldl (applyAlert answers) daemon).tree = daemon.tree ∧
      daemon.published <+: (raised.foldl (applyAlert answers) daemon).published := by
  induction raised generalizing daemon with
  | nil => exact ⟨rfl, List.prefix_rfl⟩
  | cons alert rest inductionHypothesis =>
      obtain ⟨sameTree, published⟩ := applyAlert_spec answers daemon alert
      obtain ⟨laterTree, laterPublished⟩ := inductionHypothesis (applyAlert answers daemon alert)
      exact ⟨laterTree.trans sameTree, published.trans laterPublished⟩

/-- A recorded event leaves the tree alone and is published in any case. -/
theorem recordEvent_spec (daemon : Daemon) (event : ProcessEvent) :
    (recordEvent alerts answers daemon event).tree = daemon.tree ∧
      daemon.published ++ [.lifecycle event] <+:
        (recordEvent alerts answers daemon event).published := by
  obtain ⟨sameTree, published⟩ := foldl_applyAlert_spec answers
    { daemon with published := daemon.published ++ [.lifecycle event] }
    (alerts.evaluate event.name event.pid event.ppid event.eventType event.timestampNs)
  unfold recordEvent
  dsimp only
  split <;> exact ⟨sameTree, published⟩

/-- The tasks after a frame, as the tree counts them. -/
def tasksAfter (tasks : Set Int) : Frame → Set Int
  | .fork _ child => insert child tasks
  | .exec pid => insert pid tasks
  | .exit pid _ _ => tasks \ {pid}
  | .kernelError _ => tasks

theorem track_pids (tree : Std.ExtTreeMap Int ProcessNode) (frame : Frame) :
    {pid | pid ∈ (track answers tree frame).1} = tasksAfter {pid | pid ∈ tree} frame := by
  ext pid
  cases frame with
  | fork parent child =>
      simp only [track, tasksAfter, Set.mem_ofPred_eq, Set.mem_insert_iff,
        Std.ExtTreeMap.mem_insert, Std.LawfulEqOrd.compare_eq_iff_eq]
      rw [eq_comm]
  | exec known =>
      simp only [track, tasksAfter, Set.mem_ofPred_eq, Set.mem_insert_iff,
        Std.ExtTreeMap.mem_insert, Std.LawfulEqOrd.compare_eq_iff_eq]
      rw [eq_comm]
  | exit gone status signal =>
      simp only [track, tasksAfter, Set.mem_ofPred_eq, Set.mem_sdiff, Set.mem_singleton_iff,
        Std.ExtTreeMap.mem_erase, ne_eq, Std.LawfulEqOrd.compare_eq_iff_eq]
      rw [and_comm, eq_comm]
  | kernelError code => rfl

/-- The step lemma: the tree counts every task the frame names. -/
theorem handleFrame_pids (world : Nat → Answers) (daemon : Daemon) (frame : Frame) :
    (handleFrame alerts world daemon frame).pids = tasksAfter daemon.pids frame := by
  have tracked := track_pids (world daemon.handled) daemon.tree frame
  unfold handleFrame pids
  dsimp only
  cases made : track (world daemon.handled) daemon.tree frame with
  | mk tree event =>
      rw [made] at tracked
      cases event with
      | none =>
          cases frame <;> simp [track] at made
          rfl
      | some event =>
          dsimp only
          rw [(recordEvent_spec alerts (world daemon.handled) _ event).1]
          exact tracked

theorem handleFrame_published (world : Nat → Answers) (daemon : Daemon) {frame : Frame}
    (isEvent : frame.isEvent = true) :
    ∃ event, daemon.published ++ [.lifecycle event] <+:
      (handleFrame alerts world daemon frame).published := by
  have recorded : ∃ tree event,
      track (world daemon.handled) daemon.tree frame = (tree, some event) := by
    cases frame with
    | kernelError code => contradiction
    | _ => exact ⟨_, _, rfl⟩
  obtain ⟨tree, event, made⟩ := recorded
  refine ⟨event, ?_⟩
  unfold handleFrame
  dsimp only
  rw [made]
  exact (recordEvent_spec alerts (world daemon.handled)
    { daemon with tree, handled := daemon.handled + 1 } event).2

end Frames

end Daemon

end SystemPilot.Netlink
