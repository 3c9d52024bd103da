import SystemPilot.Library.Machine
import SystemPilot.Netlink.ProcessTree

/-!
# Processes and threads

The connector reports the start and the end of every task, thread or process,
with the same messages, and tells them apart by the thread group next to each
pid.  The daemon never reads it: the tree follows tasks, and it follows processes
exactly as long as no message is about a thread.
-/

set_option autoImplicit false

namespace SystemPilot.Netlink

open SystemPilot.Library
open SystemPilot.Alert

/-! ## Messages as the kernel lays them out -/

structure Task where
  pid : Int32
  tgid : Int32
  deriving DecidableEq, Repr

inductive TaskEvent where
  | fork (parent child : Task)
  | exec (task : Task)
  | exit (task : Task) (code signal : Int32)
  deriving DecidableEq, Repr

/-- A connector message: its event, and the bytes the daemon does not look at. -/
structure ConnectorMessage where
  event : TaskEvent
  header : Vector UInt8 10
  connector : Vector UInt8 12
  clock : Vector UInt8 12
  unused : Vector UInt8 16

/-- The four bytes of an `i32`. -/
def wordBytes (value : Int32) : List UInt8 :=
  let number := value.toBitVec.toNat
  [UInt8.ofNat number, UInt8.ofNat (number / 256), UInt8.ofNat (number / 65536),
    UInt8.ofNat (number / 16777216)]

def Task.bytes (task : Task) : List UInt8 :=
  wordBytes task.pid ++ wordBytes task.tgid

namespace TaskEvent

/-- The task an event is about. -/
def subject : TaskEvent → Task
  | fork _ child => child
  | exec task => task
  | exit task _ _ => task

/-- The event is about a process, not about one of its other threads. -/
def AboutLeader (event : TaskEvent) : Prop :=
  event.subject.pid = event.subject.tgid

instance (event : TaskEvent) : Decidable event.AboutLeader :=
  inferInstanceAs (Decidable (_ = _))

/-- `proc_event.what`. -/
def what : TaskEvent → List UInt8
  | fork _ _ => [1, 0, 0, 0]
  | exec _ => [2, 0, 0, 0]
  | exit _ _ _ => [0, 0, 0, 0x80]

/-- The union of `proc_event`, the unused part of it last. -/
def union (unused : List UInt8) : TaskEvent → List UInt8
  | fork parent child => parent.bytes ++ (child.bytes ++ unused.take 8)
  | exec task => task.bytes ++ unused
  | exit task code signal => task.bytes ++ (wordBytes code ++ (wordBytes signal ++ unused.take 8))

/-- The part of the union that is read. -/
def fields : TaskEvent → List UInt8
  | fork parent child => parent.bytes ++ child.bytes
  | exec task => task.bytes
  | exit task code signal => task.bytes ++ (wordBytes code ++ wordBytes signal)

/-- What the daemon makes of the event. -/
def frame : TaskEvent → Frame
  | fork parent child => .fork parent.pid.toInt child.pid.toInt
  | exec task => .exec task.pid.toInt
  | exit task code signal => .exit task.pid.toInt code.toInt signal.toInt

end TaskEvent

/-- `nlmsghdr`, `cn_msg` and `proc_event`. -/
def ConnectorMessage.bytes (message : ConnectorMessage) : List UInt8 :=
  [76, 0, 0, 0, 3, 0] ++ (message.header.toList ++ ([1, 0, 0, 0, 1, 0, 0, 0] ++
    (message.connector.toList ++ (message.event.what ++ (message.clock.toList ++
      message.event.union message.unused.toList)))))

/-- The messages the kernel puts into one datagram, which fit the buffer. -/
structure Datagram where
  messages : List ConnectorMessage
  fits : 76 * messages.length ≤ 8192

def Datagram.bytes (datagram : Datagram) : List UInt8 :=
  datagram.messages.flatMap ConnectorMessage.bytes

/-! ## Reading them back -/

section Fields

theorem length_wordBytes (value : Int32) : (wordBytes value).length = 4 := rfl

theorem word_wordBytes (value : Int32) (rest : List UInt8) :
    word (wordBytes value ++ rest) 0 = value.toBitVec.toNat := by
  have bound : value.toBitVec.toNat < 2 ^ 32 := value.toBitVec.isLt
  have bytes : word (wordBytes value ++ rest) 0 =
      value.toBitVec.toNat % 256 + 256 * (value.toBitVec.toNat / 256 % 256) +
        65536 * (value.toBitVec.toNat / 65536 % 256 +
          256 * (value.toBitVec.toNat / 16777216 % 256)) := rfl
  omega

theorem signedWord_wordBytes (value : Int32) (rest : List UInt8) :
    signedWord (wordBytes value ++ rest) 0 = value.toInt := by
  unfold signedWord signed
  rw [word_wordBytes]
  change _ = value.toBitVec.toInt
  rw [BitVec.toInt_eq_toNat_cond]
  split <;> split <;> omega

theorem length_what (event : TaskEvent) : event.what.length = 4 := by
  cases event <;> rfl

theorem length_union (event : TaskEvent) (unused : Vector UInt8 16) :
    (event.union unused.toList).length = 24 := by
  cases event <;> simp [TaskEvent.union, Task.bytes, length_wordBytes]

theorem length_bytes (message : ConnectorMessage) : message.bytes.length = 76 := by
  simp [ConnectorMessage.bytes, length_what, length_union]

theorem word_what_exit (rest : List UInt8) :
    word ([0, 0, 0, 0x80] ++ rest) 0 = 0x80000000 := by
  simp [word, half, byteAt]

variable (message : ConnectorMessage) (rest : List UInt8)

theorem drop_header :
    (message.bytes ++ rest).drop 16 = [1, 0, 0, 0, 1, 0, 0, 0] ++ (message.connector.toList ++
      (message.event.what ++ (message.clock.toList ++
        (message.event.union message.unused.toList ++ rest)))) := by
  simp [ConnectorMessage.bytes]

theorem drop_connector :
    (message.bytes ++ rest).drop 36 = message.event.what ++ (message.clock.toList ++
      (message.event.union message.unused.toList ++ rest)) := by
  simp [ConnectorMessage.bytes, List.drop_append]

theorem drop_event :
    (message.bytes ++ rest).drop 52 = message.event.union message.unused.toList ++ rest := by
  rw [show 52 = 36 + 16 from rfl, ← List.drop_drop, drop_connector, ← List.append_assoc]
  exact List.drop_left' (by simp [length_what])

theorem drop_message : (message.bytes ++ rest).drop 76 = rest :=
  List.drop_left' (length_bytes message)

theorem signedWord_task (task : Task) (rest : List UInt8) :
    signedWord (task.bytes ++ rest) 0 = task.pid.toInt := by
  unfold Task.bytes
  rw [List.append_assoc, signedWord_wordBytes]

theorem signedWord_after (task : Task) (rest : List UInt8) (offset : Nat) :
    signedWord (task.bytes ++ rest) (8 + offset) = signedWord rest offset := by
  rw [← signedWord_drop, List.drop_left' (by rfl)]

theorem signedWord_next (value : Int32) (rest : List UInt8) :
    signedWord (wordBytes value ++ rest) 4 = signedWord rest 0 := by
  rw [show 4 = 4 + 0 from rfl, ← signedWord_drop, List.drop_left' (length_wordBytes value)]

theorem fields_union (event : TaskEvent) (unused : Vector UInt8 16) :
    ∃ unread, event.union unused.toList = event.fields ++ unread := by
  cases event with
  | fork parent child => exact ⟨unused.toList.take 8, by simp [TaskEvent.union, TaskEvent.fields]⟩
  | exec task => exact ⟨unused.toList, rfl⟩
  | exit task code signal =>
      exact ⟨unused.toList.take 8, by simp [TaskEvent.union, TaskEvent.fields]⟩

theorem length_fields_le (event : TaskEvent) : event.fields.length ≤ 16 := by
  cases event <;> simp [TaskEvent.fields, Task.bytes, length_wordBytes]

/-- The event is made of its fields, wherever they are read from. -/
theorem listenEvent_fields {bytes later more : List UInt8} {place limit : Nat} {event : TaskEvent}
    (what : word bytes place = word (event.what ++ later) 0)
    (fields : ∀ field, signedWord bytes (place + 16 + field) =
      signedWord (event.fields ++ more) field)
    (room : place + 16 + event.fields.length ≤ limit) :
    (listenEvent bytes limit place).1 = [event.frame] := by
  have parent := fields 0
  have child := fields (8 + 0)
  have signal := fields (8 + 4)
  unfold listenEvent
  cases event with
  | fork parentTask childTask =>
      have kind : word bytes place = 1 := what
      change place + 16 + 16 ≤ limit at room
      rw [if_pos ⟨kind, by omega⟩]
      unfold TaskEvent.fields at parent child
      rw [List.append_assoc] at parent child
      rw [signedWord_task] at parent
      rw [signedWord_after, signedWord_task] at child
      exact congrArg₂ (fun parent child => [Frame.fork parent child]) parent child
  | exec task =>
      have kind : word bytes place = 2 := what
      change place + 16 + 8 ≤ limit at room
      rw [if_neg (by omega), if_pos ⟨kind, by omega⟩]
      unfold TaskEvent.fields at parent
      rw [signedWord_task] at parent
      exact congrArg (fun pid => [Frame.exec pid]) parent
  | exit task code exitSignal =>
      have kind : word bytes place = 0x80000000 := what.trans (word_what_exit _)
      change place + 16 + 16 ≤ limit at room
      rw [if_neg (by omega), if_neg (by omega), if_pos ⟨kind, by omega⟩]
      unfold TaskEvent.fields at parent child signal
      rw [List.append_assoc] at parent child signal
      rw [signedWord_task] at parent
      rw [signedWord_after, List.append_assoc, signedWord_wordBytes] at child
      rw [signedWord_after, List.append_assoc, signedWord_next, signedWord_wordBytes] at signal
      change [Frame.exit _ _ _] = [Frame.exit _ _ _]
      rw [← parent, ← child, ← signal]

end Fields

/-! ## One message in a datagram -/

section Reading

variable {bytes rest : List UInt8} {offset : Nat} {message : ConnectorMessage}

/-- The message starts at the offset. -/
def StartsAt (bytes : List UInt8) (offset : Nat) (message : ConnectorMessage)
    (rest : List UInt8) : Prop :=
  bytes.drop offset = message.bytes ++ rest

theorem StartsAt.drop (starts : StartsAt bytes offset message rest) (count : Nat) :
    bytes.drop (offset + count) = (message.bytes ++ rest).drop count := by
  rw [← List.drop_drop, starts]

theorem StartsAt.length (starts : StartsAt bytes offset message rest) :
    offset + 76 + rest.length = bytes.length := by
  have size := congrArg List.length starts
  rw [List.length_drop, List.length_append, length_bytes] at size
  omega

theorem StartsAt.word (starts : StartsAt bytes offset message rest) (count field : Nat) :
    word bytes (offset + count + field) = Netlink.word ((message.bytes ++ rest).drop count) field := by
  rw [← starts.drop count, word_drop]

theorem StartsAt.signedWord (starts : StartsAt bytes offset message rest) (field : Nat) :
    signedWord bytes (offset + 52 + field) =
      Netlink.signedWord (message.event.union message.unused.toList ++ rest) field := by
  rw [← drop_event, ← starts.drop 52, signedWord_drop]

theorem listenEvent_message (starts : StartsAt bytes offset message rest) :
    (listenEvent bytes bytes.length (offset + 36)).1 = [message.event.frame] := by
  have size := starts.length
  have what := starts.word 36 0
  rw [drop_connector] at what
  obtain ⟨unread, union⟩ := fields_union message.event message.unused
  have read := length_fields_le message.event
  have fields : ∀ field, Netlink.signedWord bytes (offset + 36 + 16 + field) =
      Netlink.signedWord (message.event.fields ++ (unread ++ rest)) field := by
    intro field
    rw [← List.append_assoc, ← union]
    exact starts.signedWord field
  exact listenEvent_fields what fields (by omega)

theorem listenConnector_message (starts : StartsAt bytes offset message rest) :
    (listenConnector bytes bytes.length ⟨offset, 76⟩).frames = [message.event.frame] := by
  have size := starts.length
  have index : Netlink.word bytes (offset + 16) = 1 := by
    have field := starts.word 16 0
    rw [drop_header] at field
    exact field
  have value : Netlink.word bytes (offset + 16 + 4) = 1 := by
    have field := starts.word 16 4
    rw [drop_header] at field
    exact field
  unfold listenConnector
  dsimp only
  rw [if_pos ⟨index, value⟩, if_pos (by omega)]
  exact listenEvent_message starts

/-- The loop makes the frame of the message and goes on behind it. -/
theorem listenReadings_message (starts : StartsAt bytes offset message rest) :
    (listenReadings bytes bytes.length offset).flatMap Reading.frames =
      message.event.frame ::
        (listenReadings bytes bytes.length (offset + 76)).flatMap Reading.frames := by
  have size := starts.length
  have length : Netlink.word bytes offset = 76 := starts.word 0 0
  have kind : half bytes (offset + 4) ≠ 2 := by
    unfold half
    have low : byteAt bytes (offset + 4) = 3 := by
      rw [← byteAt_drop, starts]
      rfl
    omega
  rw [listenReadings, dif_pos (by omega)]
  dsimp only
  rw [length, dif_neg (by omega), if_neg kind, if_neg (by omega), List.flatMap_cons,
    listenConnector_message starts]
  rfl

theorem listenReadings_messages (messages : List ConnectorMessage)
    (starts : bytes.drop offset = messages.flatMap ConnectorMessage.bytes) :
    (listenReadings bytes bytes.length offset).flatMap Reading.frames =
      messages.map fun message => message.event.frame := by
  induction messages generalizing offset with
  | nil =>
      have ended : bytes.length ≤ offset := List.drop_eq_nil_iff.mp starts
      rw [listenReadings, dif_neg (by omega)]
      rfl
  | cons message others inductionHypothesis =>
      have here : StartsAt bytes offset message (others.flatMap ConnectorMessage.bytes) := starts
      have next : bytes.drop (offset + 76) = others.flatMap ConnectorMessage.bytes := by
        rw [here.drop 76, drop_message]
      rw [listenReadings_message here, inductionHypothesis next]
      rfl

end Reading

/-- The daemon reads the messages of a datagram back, and nothing else. -/
theorem listenFrames_datagram (datagram : Datagram) :
    listenFrames datagram.bytes datagram.bytes.length =
      datagram.messages.map fun message => message.event.frame :=
  listenReadings_messages datagram.messages rfl

/-! ## Processes that are alive -/

/-- The thread-group leaders alive after a message: a message about another
thread changes nothing. -/
def leadersAfter (leaders : Set Int) (message : ConnectorMessage) : Set Int :=
  if message.event.AboutLeader then
    match message.event with
    | .fork _ child => insert child.pid.toInt leaders
    | .exec task => insert task.pid.toInt leaders
    | .exit task _ _ => leaders \ {task.pid.toInt}
  else leaders

/-- What the daemon does with one message. -/
def handleMessage (alerts : ProcessAlertEngine) (world : Nat → Answers) (daemon : Daemon)
    (message : ConnectorMessage) : Daemon :=
  (listenFrames message.bytes message.bytes.length).foldl (Daemon.handleFrame alerts world) daemon

/-- Neither the tree changed, nor was a lifecycle event or an alert transition
produced. -/
structure Unmoved (before after : Daemon) : Prop where
  tree : after.tree = before.tree
  published : after.published = before.published
  queued : after.queued = before.queued
  alerts : after.alertState = before.alertState

/-- Over a stream of datagrams the tree holds the live thread-group leaders, and
no message about another thread moves anything. -/
structure TracksProcesses (alerts : ProcessAlertEngine) (world : Nat → Answers) (start : Daemon)
    (stream : List Datagram) : Prop where
  leaders : (start.netlinkListener alerts world (stream.map Datagram.bytes)).pids =
    (stream.flatMap Datagram.messages).foldl leadersAfter start.pids
  threads : Machine.EveryStep (handleMessage alerts world)
    (fun daemon message => ¬message.event.AboutLeader →
      Unmoved daemon (handleMessage alerts world daemon message))
    start (stream.flatMap Datagram.messages)

section Stream

variable (alerts : ProcessAlertEngine) (world : Nat → Answers)

theorem handleMessage_eq (daemon : Daemon) (message : ConnectorMessage) :
    handleMessage alerts world daemon message =
      daemon.handleFrame alerts world message.event.frame := by
  have frames := listenReadings_messages [message]
    (show message.bytes.drop 0 = [message].flatMap ConnectorMessage.bytes by simp)
  unfold handleMessage
  change ((listenReadings message.bytes message.bytes.length 0).flatMap Reading.frames).foldl
    _ _ = _
  rw [frames]
  rfl

theorem isEvent_frame (event : TaskEvent) : event.frame.isEvent = true := by
  cases event <;> rfl

/-- However the messages are spread over datagrams, the listener handles them one
by one. -/
theorem netlinkListener_eq (daemon : Daemon) (stream : List Datagram) :
    daemon.netlinkListener alerts world (stream.map Datagram.bytes) =
      Machine.run (handleMessage alerts world) daemon (stream.flatMap Datagram.messages) := by
  induction stream generalizing daemon with
  | nil => rfl
  | cons datagram rest inductionHypothesis =>
      have one : ∀ messages : List ConnectorMessage,
          (messages.map fun message => message.event.frame).foldl
            (Daemon.handleFrame alerts world) daemon =
          Machine.run (handleMessage alerts world) daemon messages := by
        intro messages
        rw [List.foldl_map]
        unfold Machine.run
        congr 1
        funext before message
        rw [handleMessage_eq]
      rw [List.map_cons, Daemon.netlinkListener, listenFrames_datagram, if_pos (by simp [isEvent_frame]), inductionHypothesis,
        List.flatMap_cons, Machine.run_append, one]

/-- The run lemma: over every stream the tree holds the tasks that are alive,
threads among them. -/
theorem run_tasks (daemon : Daemon) (messages : List ConnectorMessage) :
    (Machine.run (handleMessage alerts world) daemon messages).pids =
      messages.foldl (fun tasks message => Daemon.tasksAfter tasks message.event.frame)
        daemon.pids := by
  induction messages generalizing daemon with
  | nil => rfl
  | cons message rest inductionHypothesis =>
      rw [Machine.run_cons, List.foldl_cons, inductionHypothesis, handleMessage_eq,
        Daemon.handleFrame_pids]

/-- Of processes alone, the live tasks are the live leaders. -/
theorem tasks_eq_leaders (tasks : Set Int) (messages : List ConnectorMessage)
    (aboutLeaders : ∀ message ∈ messages, message.event.AboutLeader) :
    messages.foldl (fun tasks message => Daemon.tasksAfter tasks message.event.frame) tasks =
      messages.foldl leadersAfter tasks := by
  apply List.foldl_ext
  intro tasks message member
  unfold leadersAfter
  rw [if_pos (aboutLeaders message member)]
  cases message.event <;> rfl

/-- Every message is published, so none leaves the daemon unmoved. -/
theorem not_unmoved (daemon : Daemon) (message : ConnectorMessage) :
    ¬Unmoved daemon (handleMessage alerts world daemon message) := by
  rintro ⟨-, same, -, -⟩
  rw [handleMessage_eq] at same
  obtain ⟨event, published⟩ := Daemon.handleFrame_published alerts world daemon
    (isEvent_frame message.event)
  have longer := published.length_le
  rw [same, List.length_append, List.length_singleton] at longer
  omega

end Stream

/-- For every stream of messages, in whatever datagrams: the tree tracks
processes exactly when no message is about a thread that leads no group. -/
theorem tracks_processes_iff (alerts : ProcessAlertEngine) (world : Nat → Answers)
    (start : Daemon) (stream : List Datagram) :
    TracksProcesses alerts world start stream ↔
      ∀ datagram ∈ stream, ∀ message ∈ datagram.messages, message.event.AboutLeader := by
  have flat : (∀ datagram ∈ stream, ∀ message ∈ datagram.messages, message.event.AboutLeader) ↔
      ∀ message ∈ stream.flatMap Datagram.messages, message.event.AboutLeader := by
    simp only [List.mem_flatMap]
    constructor
    · rintro each message ⟨datagram, inStream, member⟩
      exact each datagram inStream message member
    · intro each datagram inStream message member
      exact each message ⟨datagram, inStream, member⟩
  rw [flat]
  constructor
  · rintro ⟨-, threads⟩ message member
    by_contra thread
    obtain ⟨before, after, split⟩ := List.append_of_mem member
    have step := threads (Machine.run (handleMessage alerts world) start before, message) (by
      rw [Machine.mem_visited_iff]
      exact ⟨before, after, split, rfl⟩)
    exact not_unmoved alerts world _ message (step thread)
  · intro aboutLeaders
    refine ⟨?_, ?_⟩
    · rw [netlinkListener_eq, run_tasks, tasks_eq_leaders _ _ aboutLeaders]
    · rintro ⟨daemon, message⟩ visited thread
      rw [Machine.mem_visited_iff] at visited
      obtain ⟨before, after, split, -⟩ := visited
      exact absurd (aboutLeaders message (by rw [split]; simp)) thread

/-! ## A thread that ends -/

theorem workerRules_checked :
    Telemetry.checkRules [{ id := "rule", processName := "worker", enabled := true }] [] = .ok () := rfl

/-- One rule for one process name. -/
def workerAlerts : ProcessAlertEngine where
  rules := [{ id := "rule", processName := "worker", enabled := true }]
  checked := workerRules_checked

/-- Every task is called like its process, and every write succeeds. -/
def workerWorld : Nat → Answers := fun handled =>
  { comm := fun _ => "worker"
    ppid := fun _ => 1
    now := handled
    poisoned := false
    fault := fun _ => none
    room := true }

/-- The daemon at start-up, with process 42 in its tree. -/
def workerDaemon : Daemon where
  tree := (∅ : Std.ExtTreeMap Int ProcessNode).insert 42 ⟨42, 1, "worker", 'S'⟩
  alertState := ⟨"alerts-v1.json", ⟨1, ∅⟩⟩
  alertFile := .absent
  published := []
  queued := []
  droppedEvents := 0
  handled := 0

/-- A datagram with one message. -/
def oneMessage (event : TaskEvent) : Datagram where
  messages :=
    [⟨event, Vector.replicate 10 0, Vector.replicate 12 0, Vector.replicate 12 0,
      Vector.replicate 16 0⟩]
  fits := by simp

/-- Process 42 runs a program, starts thread 43, and the thread ends. -/
def threadEnds : List Datagram :=
  [oneMessage (.exec ⟨42, 42⟩), oneMessage (.fork ⟨42, 42⟩ ⟨43, 42⟩),
    oneMessage (.exit ⟨43, 42⟩ 0 17)]

/-- The thread enters the tree though it leads no group, and its end resolves the
alert of the process, which is still there. -/
theorem thread_exit_resolves :
    let started := workerDaemon.netlinkListener workerAlerts workerWorld
      ((threadEnds.take 2).map Datagram.bytes)
    let ended := workerDaemon.netlinkListener workerAlerts workerWorld
      (threadEnds.map Datagram.bytes)
    43 ∈ started.tree ∧
      43 ∉ ((threadEnds.take 2).flatMap Datagram.messages).foldl leadersAfter workerDaemon.pids ∧
      started.alertState.statusOf "rule:worker" = some .firing ∧
      42 ∈ ended.tree ∧ ended.alertState.statusOf "rule:worker" = some .resolved ∧
      ¬TracksProcesses workerAlerts workerWorld workerDaemon threadEnds := by
  intro started ended
  refine ⟨by decide +kernel, ?_, by decide +kernel, by decide +kernel, by decide +kernel, ?_⟩
  · intro member
    have afterFork : (43 : Int) ∈ insert (42 : Int) workerDaemon.pids := member
    rcases Set.mem_insert_iff.mp afterFork with same | initial
    · contradiction
    · have held : (43 : Int) ∈ workerDaemon.tree := initial
      exact absurd held (by decide)
  · rintro ⟨-, threads⟩
    let thread : ConnectorMessage :=
      ⟨.fork ⟨42, 42⟩ ⟨43, 42⟩, Vector.replicate 10 0, Vector.replicate 12 0,
        Vector.replicate 12 0, Vector.replicate 16 0⟩
    have step := threads (Machine.run (handleMessage workerAlerts workerWorld) workerDaemon
      (oneMessage (.exec ⟨42, 42⟩)).messages, thread) (by
        rw [Machine.mem_visited_iff]
        exact ⟨_, (oneMessage (.exit ⟨43, 42⟩ 0 17)).messages, rfl, rfl⟩)
    exact not_unmoved workerAlerts workerWorld _ thread (step (by decide))

end SystemPilot.Netlink
