import SystemPilot.Library.Machine
import Mathlib.Data.List.Sort

/-!
# The process monitor

The loop of `run_monitor`.  What a turn finds outside the loop (the terminal's size, the
clock, the process list, the input and how an explanation goes) is part of the turn; what
it does is its effects.  A frame is what `render_frame` hands to the terminal, without the
load and memory figures of its first line.
-/

set_option autoImplicit false

namespace SystemPilot.Ui

open SystemPilot.Library.Machine

structure TuiProcess (Rate : Type) where
  pid : Int
  ppid : Int
  name : String
  state : String
  cpuUsagePct : Rate
  readRateKb : Rate
  writeRateKb : Rate
  isAnomalous : Bool
  deriving DecidableEq, Repr

variable {Rate : Type}

/-! ## Frames -/

structure Frame (Rate : Type) where
  sort : String
  rows : List (TuiProcess Rate)
  selected : Option Nat
  offset : Nat
  deriving DecidableEq, Repr

/-- `render_frame`. -/
def renderFrame (processes : List (TuiProcess Rate)) (selected scroll sortCol : Nat) :
    Frame Rate where
  sort :=
    match min sortCol 2 with
    | 0 => "CPU%"
    | 1 => "I/O Rate"
    | _ => "PID"
  rows := processes
  selected := if processes.isEmpty then none else some selected
  offset := scroll

/-- The process of the row that is shown as selected. -/
def Frame.highlighted (frame : Frame Rate) : Option (TuiProcess Rate) :=
  frame.selected.bind fun row => frame.rows[row]?

/-- `get_terminal_size`, of what the terminal answers. -/
def getTerminalSize : Option (Nat × Nat) → Nat × Nat
  | some (columns, rows) => (max columns 40, max rows 10)
  | none => (80, 24)

def listHeight (size : Option (Nat × Nat)) : Nat := (getTerminalSize size).2 - 8

/-- The selected row is a row, and lies in what the frame shows of them. -/
def Frame.Visible (frame : Frame Rate) (size : Option (Nat × Nat)) : Prop :=
  ∀ row, frame.selected = some row →
    row < frame.rows.length ∧ frame.offset ≤ row ∧ row < frame.offset + listHeight size

/-! ## The loop -/

inductive Signal where
  | sigstop
  | sigcont
  | sigkill
  deriving DecidableEq, Repr

/-- What the monitor does to the world: a frame with the size it was made for, a signal,
a question about a process. -/
inductive Effect (Rate : Type) where
  | drawn (size : Option (Nat × Nat)) (frame : Frame Rate)
  | signalled (pid : Int) (signal : Signal)
  | queried (pid : Int) (name : String)
  deriving DecidableEq, Repr

inductive KeyCode where
  | char (character : Char)
  | tab
  | enter
  | up
  | down
  | esc
  | other
  deriving DecidableEq, Repr

inductive KeyEventKind where
  | press
  | repeated
  | release
  deriving DecidableEq, Repr

inductive TerminalEvent where
  | resize (columns rows : Nat)
  | key (code : KeyCode) (kind : KeyEventKind)
  | other
  deriving DecidableEq, Repr

/-- What `poll` and `read` find. -/
inductive Input where
  | quiet
  | pollFailed
  | readFailed
  | event (event : TerminalEvent)
  deriving DecidableEq, Repr

/-- How an explanation goes: raw mode is left, the configuration loads, both
serialisations succeed, Enter is read, raw mode is entered again. -/
structure Explanation where
  suspended : Bool
  configured : Bool
  serialized : Bool
  entered : Bool
  resumed : Bool
  deriving DecidableEq, Repr

/-- What one turn of the loop finds.  The times are nanoseconds of the clock, read where
the age of the list is asked, where the list is there and where a key is handled. -/
structure Turn (Rate : Type) where
  size : Option (Nat × Nat)
  asked : Int
  listed : Int
  handled : Int
  processes : List (TuiProcess Rate)
  input : Input
  explanation : Explanation

/-- The variables of the loop. -/
structure Monitor (Rate : Type) where
  sortCol : Nat := 0
  selected : Nat := 0
  scroll : Nat := 0
  processes : List (TuiProcess Rate) := []
  lastRefresh : Int
  needsRender : Bool := true
  deriving DecidableEq, Repr

/-- How a turn ends. -/
inductive Next (Rate : Type) where
  | again (monitor : Monitor Rate)
  | left
  | panicked
  deriving DecidableEq, Repr

def second : Int := 10 ^ 9

/-- `sort_by`, which is stable. -/
def sortBy (compare : TuiProcess Rate → TuiProcess Rate → Ordering)
    (processes : List (TuiProcess Rate)) : List (TuiProcess Rate) :=
  processes.insertionSort fun before after => (compare before after).isLE = true

def TuiProcess.io [Add Rate] (process : TuiProcess Rate) : Rate :=
  process.readRateKb + process.writeRateKb

/-- The list in the order of the sort column. -/
def sortProcesses [Add Rate] (partialCmp : Rate → Rate → Option Ordering) (sortCol : Nat)
    (processes : List (TuiProcess Rate)) : List (TuiProcess Rate) :=
  match sortCol with
  | 0 => sortBy (fun a b => (partialCmp b.cpuUsagePct a.cpuUsagePct).getD .eq) processes
  | 1 => sortBy (fun a b => (partialCmp b.io a.io).getD .eq) processes
  | _ => sortBy (fun a b => compare a.pid b.pid) processes

namespace Monitor

/-- The refresh, once the list is a second old. -/
def refresh [Add Rate] (partialCmp : Rate → Rate → Option Ordering) (monitor : Monitor Rate)
    (turn : Turn Rate) : Monitor Rate :=
  if second ≤ turn.asked - monitor.lastRefresh then
    { monitor with
      processes := sortProcesses partialCmp monitor.sortCol turn.processes
      lastRefresh := turn.listed
      needsRender := true }
  else monitor

/-- The selection kept to the list. -/
def clamp (monitor : Monitor Rate) : Monitor Rate :=
  if monitor.processes.isEmpty then { monitor with selected := 0 }
  else if monitor.processes.length ≤ monitor.selected then
    { monitor with selected := monitor.processes.length - 1 }
  else monitor

/-- The scroll offset kept to the selection. -/
def follow (monitor : Monitor Rate) (listHeight : Nat) : Monitor Rate :=
  if monitor.selected < monitor.scroll then { monitor with scroll := monitor.selected }
  else if monitor.scroll + listHeight ≤ monitor.selected then
    { monitor with scroll := monitor.selected - listHeight + 1 }
  else monitor

def frame (monitor : Monitor Rate) : Frame Rate :=
  renderFrame monitor.processes monitor.selected monitor.scroll monitor.sortCol

def render (monitor : Monitor Rate) (size : Option (Nat × Nat)) :
    List (Effect Rate) × Monitor Rate :=
  if monitor.needsRender then
    ([.drawn size monitor.frame], { monitor with needsRender := false })
  else ([], monitor)

/-- A key that works on `processes[selected]` when there are processes. -/
def onSelected (monitor : Monitor Rate)
    (use : TuiProcess Rate → List (Effect Rate) × Next Rate) :
    List (Effect Rate) × Next Rate :=
  if monitor.processes.isEmpty then ([], .again monitor)
  else
    match monitor.processes[monitor.selected]? with
    | some process => use process
    | none => ([], .panicked)

/-- `signal_process`; a failure is only reported. -/
def signal (monitor : Monitor Rate) (signal : Signal) : List (Effect Rate) × Next Rate :=
  monitor.onSelected fun process => ([.signalled process.pid signal], .again monitor)

/-- What an explanation leaves of the monitor. -/
def explained (monitor : Monitor Rate) (turn : Turn Rate) : Next Rate :=
  let returned := turn.explanation.entered && turn.explanation.resumed
  if turn.explanation.configured then
    if turn.explanation.serialized && returned then
      .again { monitor with lastRefresh := turn.handled - 2 * second, needsRender := true }
    else .left
  else if returned then .again { monitor with needsRender := true }
  else .left

def explain (monitor : Monitor Rate) (turn : Turn Rate) : List (Effect Rate) × Next Rate :=
  monitor.onSelected fun process =>
    if turn.explanation.suspended then
      ([.queried process.pid process.name], monitor.explained turn)
    else ([], .left)

/-- The character a key stands for. -/
def keyCharacter : KeyCode → Option Char
  | .char character => if character.val < 128 then some character else none
  | .tab => some '\t'
  | .enter => some '\n'
  | .up => some 'k'
  | .down => some 'j'
  | .esc => some 'q'
  | .other => none

def press (monitor : Monitor Rate) (turn : Turn Rate) (key : Char) :
    List (Effect Rate) × Next Rate :=
  if key = 'q' then ([], .left)
  else if key = '\t' then
    ([], .again
      { monitor with
        sortCol := (monitor.sortCol + 1) % 3
        lastRefresh := turn.handled - 2 * second
        needsRender := true })
  else if key = 'j' ∧ monitor.selected + 1 < monitor.processes.length then
    ([], .again { monitor with selected := monitor.selected + 1, needsRender := true })
  else if key = 'k' ∧ 0 < monitor.selected then
    ([], .again { monitor with selected := monitor.selected - 1, needsRender := true })
  else if key = 's' then monitor.signal .sigstop
  else if key = 'r' then monitor.signal .sigcont
  else if key = 'x' then monitor.signal .sigkill
  else if key = 'e' ∨ key = '\n' then monitor.explain turn
  else ([], .again monitor)

def handle (monitor : Monitor Rate) (turn : Turn Rate) : List (Effect Rate) × Next Rate :=
  match turn.input with
  | .quiet => ([], .again monitor)
  | .pollFailed | .readFailed => ([], .left)
  | .event (.resize _ _) => ([], .again { monitor with needsRender := true })
  | .event (.key code .press) =>
      match keyCharacter code with
      | some key => monitor.press turn key
      | none => ([], .again monitor)
  | .event _ => ([], .again monitor)

/-- The loop's variables where the frame is made. -/
def settled [Add Rate] (partialCmp : Rate → Rate → Option Ordering) (monitor : Monitor Rate)
    (turn : Turn Rate) : Monitor Rate :=
  ((monitor.refresh partialCmp turn).clamp).follow (listHeight turn.size)

/-- The body of the loop. -/
def step [Add Rate] (partialCmp : Rate → Rate → Option Ordering) (monitor : Monitor Rate)
    (turn : Turn Rate) : List (Effect Rate) × Next Rate :=
  let rendered := (monitor.settled partialCmp turn).render turn.size
  let handled := rendered.2.handle turn
  (rendered.1 ++ handled.1, handled.2)

/-- The turns of the loop, up to the one that ends it. -/
def turns [Add Rate] (partialCmp : Rate → Rate → Option Ordering) :
    Monitor Rate → List (Turn Rate) → List (Effect Rate) × Next Rate
  | monitor, [] => ([], .again monitor)
  | monitor, turn :: rest =>
      match monitor.step partialCmp turn with
      | (effects, .again next) =>
          (effects ++ (turns partialCmp next rest).1, (turns partialCmp next rest).2)
      | (effects, ending) => (effects, ending)

end Monitor

/-- `run_monitor`, from where the terminal is there. -/
def runMonitor [Add Rate] (partialCmp : Rate → Rate → Option Ordering) (started : Int)
    (turns : List (Turn Rate)) : List (Effect Rate) × Next Rate :=
  Monitor.turns partialCmp { lastRefresh := started - 2 * second } turns

/-- The frame on the terminal behind an effect. -/
def showing (shown : Option (Frame Rate)) : Effect Rate → Option (Frame Rate)
  | .drawn _ frame => some frame
  | .signalled _ _ => shown
  | .queried _ _ => shown

/-- The last frame that was rendered. -/
def lastFrame (effects : List (Effect Rate)) : Option (Frame Rate) :=
  run showing none effects

/-! ## What one turn keeps -/

/-- An effect behind a frame: a new frame shows its selected row, everything else is
about the process highlighted in the frame. -/
def Aimed (shown : Option (Frame Rate)) : Effect Rate → Prop
  | .drawn size frame => frame.Visible size
  | .signalled pid _ => ∃ process, shown.bind Frame.highlighted = some process ∧ process.pid = pid
  | .queried pid name =>
      ∃ process, shown.bind Frame.highlighted = some process ∧
        process.pid = pid ∧ process.name = name

/-- The selection between two turns: a row of the list if there is one, and the row of
the last frame unless a new one is due. -/
structure Coherent (shown : Option (Frame Rate)) (monitor : Monitor Rate) : Prop where
  inRange : monitor.selected ≤ monitor.processes.length - 1
  current : monitor.needsRender = false →
    shown.bind Frame.highlighted = monitor.processes[monitor.selected]?

/-- What holds of the effects and the end of a turn, or of several. -/
structure Kept (shown : Option (Frame Rate)) (result : List (Effect Rate) × Next Rate) :
    Prop where
  aimed : EveryStep showing Aimed shown result.1
  running : result.2 ≠ .panicked
  next : ∀ monitor, result.2 = .again monitor → Coherent (run showing shown result.1) monitor

namespace Monitor

theorem clamp_eq (monitor : Monitor Rate) :
    monitor.clamp =
      { monitor with selected := min monitor.selected (monitor.processes.length - 1) } := by
  unfold clamp
  split
  · next empty => simp [List.isEmpty_iff.mp empty]
  · next nonempty =>
      have positive : 0 < monitor.processes.length :=
        List.length_pos_iff.mpr (by simpa using nonempty)
      split
      · next beyond => rw [Nat.min_eq_right (by omega)]
      · next within => rw [Nat.min_eq_left (by omega)]

/-- Scrolling moves nothing but the offset. -/
theorem follow_eq (monitor : Monitor Rate) (height : Nat) :
    monitor.follow height = { monitor with scroll := (monitor.follow height).scroll } := by
  unfold follow
  split
  · rfl
  · split
    · rfl
    · rfl

/-- Where there are rows to show, the selected one is shown. -/
theorem follow_scroll (monitor : Monitor Rate) {height : Nat} (shows : 0 < height) :
    (monitor.follow height).scroll ≤ monitor.selected ∧
      monitor.selected < (monitor.follow height).scroll + height := by
  unfold follow
  split
  · dsimp only
    omega
  · split
    · dsimp only
      omega
    · omega

/-- A list that was not read anew is the one of the last frame. -/
theorem refresh_eq_of_quiet [Add Rate] {partialCmp : Rate → Rate → Option Ordering}
    {monitor : Monitor Rate} {turn : Turn Rate}
    (quiet : (monitor.refresh partialCmp turn).needsRender = false) :
    monitor.refresh partialCmp turn = monitor := by
  unfold refresh at quiet ⊢
  split
  · next due =>
      rw [if_pos due] at quiet
      cases quiet
  · rfl

theorem listHeight_pos (size : Option (Nat × Nat)) : 0 < listHeight size := by
  cases size with
  | none => decide
  | some rows =>
      have tall : 10 ≤ max rows.2 10 := Nat.le_max_right _ _
      exact Nat.sub_pos_of_lt (by simp only [getTerminalSize]; omega)

section Settled

variable [Add Rate] (partialCmp : Rate → Rate → Option Ordering) (monitor : Monitor Rate)
variable (turn : Turn Rate)

/-- Behind the refresh only the selection and the offset change. -/
theorem settled_eq :
    monitor.settled partialCmp turn =
      { monitor.refresh partialCmp turn with
        selected := min (monitor.refresh partialCmp turn).selected
          ((monitor.refresh partialCmp turn).processes.length - 1)
        scroll := (monitor.settled partialCmp turn).scroll } := by
  rw [settled, follow_eq, clamp_eq]

theorem settled_scroll :
    (monitor.settled partialCmp turn).scroll ≤ (monitor.settled partialCmp turn).selected ∧
      (monitor.settled partialCmp turn).selected <
        (monitor.settled partialCmp turn).scroll + listHeight turn.size := by
  have scrolled := follow_scroll (monitor.refresh partialCmp turn).clamp
    (listHeight_pos turn.size)
  have selected : (monitor.settled partialCmp turn).selected =
      (monitor.refresh partialCmp turn).clamp.selected := by
    rw [settled, follow_eq]
  rw [selected]
  exact scrolled

/-- Reading the list, clamping and scrolling leave the monitor coherent. -/
theorem settled_coherent {shown : Option (Frame Rate)} (coherent : Coherent shown monitor) :
    Coherent shown (monitor.settled partialCmp turn) := by
  rw [settled_eq]
  constructor
  · exact Nat.min_le_right _ _
  · intro quiet
    have same : monitor.refresh partialCmp turn = monitor := refresh_eq_of_quiet quiet
    rw [same] at quiet ⊢
    dsimp only
    rw [Nat.min_eq_left coherent.inRange]
    exact coherent.current quiet

end Settled

/-! ### Frames -/

theorem frame_highlighted {monitor : Monitor Rate} :
    monitor.frame.highlighted = monitor.processes[monitor.selected]? := by
  unfold Frame.highlighted frame renderFrame
  dsimp only
  by_cases empty : monitor.processes.isEmpty = true
  · rw [if_pos empty, List.isEmpty_iff.mp empty]
    rfl
  · rw [if_neg empty]
    rfl

theorem frame_visible {monitor : Monitor Rate} {size : Option (Nat × Nat)}
    (inRange : monitor.selected ≤ monitor.processes.length - 1)
    (scrolled : monitor.scroll ≤ monitor.selected ∧
      monitor.selected < monitor.scroll + listHeight size) :
    monitor.frame.Visible size := by
  intro row chosen
  unfold frame renderFrame at chosen ⊢
  dsimp only at chosen ⊢
  split at chosen
  · cases chosen
  · next nonempty =>
      have positive : 0 < monitor.processes.length :=
        List.length_pos_iff.mpr (by simpa using nonempty)
      cases chosen
      exact ⟨by omega, scrolled⟩

/-! ### Input -/

section Input

variable {shown : Option (Frame Rate)} {monitor : Monitor Rate}

/-- A turn that goes on without an effect. -/
theorem kept_again (coherent : Coherent shown monitor) : Kept shown ([], .again monitor) := by
  refine ⟨by simp [EveryStep, visited], by simp, ?_⟩
  intro next same
  cases same
  exact coherent

theorem kept_left : Kept shown ([], .left) :=
  ⟨by simp [EveryStep, visited], by simp, by simp⟩

/-- A new frame is due, and the selection is a row of the list. -/
theorem coherent_of_due (inRange : monitor.selected ≤ monitor.processes.length - 1)
    (due : monitor.needsRender = true) : Coherent shown monitor :=
  ⟨inRange, fun quiet => absurd (due.symm.trans quiet) (by decide)⟩

/-- A use of `processes[selected]` is one of the highlighted process. -/
theorem onSelected_kept (coherent : Coherent shown monitor) (quiet : monitor.needsRender = false)
    {use : TuiProcess Rate → List (Effect Rate) × Next Rate}
    (used : ∀ process, shown.bind Frame.highlighted = some process → Kept shown (use process)) :
    Kept shown (monitor.onSelected use) := by
  unfold onSelected
  split
  · exact kept_again coherent
  · next nonempty =>
      have positive : 0 < monitor.processes.length :=
        List.length_pos_iff.mpr (by simpa using nonempty)
      have inRange : monitor.selected < monitor.processes.length := by
        have bound := coherent.inRange
        omega
      have found := List.getElem?_eq_getElem inRange
      have highlighted := (coherent.current quiet).trans found
      rw [found]
      exact used _ highlighted

/-- One effect that leaves the frame alone. -/
theorem kept_effect {effect : Effect Rate} {next : Next Rate} (aimed : Aimed shown effect)
    (silent : showing shown effect = shown) (kept : Kept shown ([], next)) :
    Kept shown ([effect], next) := by
  refine ⟨(everyStep_cons ..).mpr ⟨aimed, by simp [EveryStep, visited]⟩, kept.running, ?_⟩
  intro monitor again
  rw [run_cons, silent]
  exact kept.next monitor again

theorem signal_kept (coherent : Coherent shown monitor) (quiet : monitor.needsRender = false)
    (signal : Signal) : Kept shown (monitor.signal signal) := by
  refine onSelected_kept coherent quiet ?_
  intro process highlighted
  exact kept_effect ⟨process, highlighted, rfl⟩ rfl (kept_again coherent)

theorem explained_kept (coherent : Coherent shown monitor) (turn : Turn Rate) :
    Kept shown ([], monitor.explained turn) := by
  unfold explained
  dsimp only
  split
  · split
    · exact kept_again (coherent_of_due coherent.inRange rfl)
    · exact kept_left
  · split
    · exact kept_again (coherent_of_due coherent.inRange rfl)
    · exact kept_left

theorem explain_kept (coherent : Coherent shown monitor) (quiet : monitor.needsRender = false)
    (turn : Turn Rate) : Kept shown (monitor.explain turn) := by
  refine onSelected_kept coherent quiet ?_
  intro process highlighted
  split
  · exact kept_effect ⟨process, highlighted, rfl, rfl⟩ rfl (explained_kept coherent turn)
  · exact kept_left

theorem press_kept (coherent : Coherent shown monitor) (quiet : monitor.needsRender = false)
    (turn : Turn Rate) (key : Char) : Kept shown (monitor.press turn key) := by
  have inRange := coherent.inRange
  unfold press
  split
  · exact kept_left
  split
  · exact kept_again (coherent_of_due inRange rfl)
  split
  · next down =>
      refine kept_again (coherent_of_due ?_ rfl)
      dsimp only
      omega
  split
  · next up =>
      refine kept_again (coherent_of_due ?_ rfl)
      dsimp only
      omega
  split
  · exact signal_kept coherent quiet .sigstop
  split
  · exact signal_kept coherent quiet .sigcont
  split
  · exact signal_kept coherent quiet .sigkill
  split
  · exact explain_kept coherent quiet turn
  · exact kept_again coherent

theorem handle_kept (coherent : Coherent shown monitor) (quiet : monitor.needsRender = false)
    (turn : Turn Rate) : Kept shown (monitor.handle turn) := by
  unfold handle
  split
  · exact kept_again coherent
  · exact kept_left
  · exact kept_left
  · exact kept_again (coherent_of_due coherent.inRange rfl)
  · split
    · next key _ => exact press_kept coherent quiet turn key
    · exact kept_again coherent
  · exact kept_again coherent

end Input

/-! ### Passes -/

/-- What holds behind some effects holds with them. -/
theorem kept_append {shown : Option (Frame Rate)} {effects : List (Effect Rate)}
    {result : List (Effect Rate) × Next Rate} (first : EveryStep showing Aimed shown effects)
    (rest : Kept (run showing shown effects) result) :
    Kept shown (effects ++ result.1, result.2) := by
  refine ⟨?_, rest.running, ?_⟩
  · intro pair member
    rw [visited_append, List.mem_append] at member
    rcases member with early | late
    · exact first pair early
    · exact rest.aimed pair late
  · intro monitor again
    rw [run_append]
    exact rest.next monitor again

theorem step_kept [Add Rate] (partialCmp : Rate → Rate → Option Ordering)
    {shown : Option (Frame Rate)} {monitor : Monitor Rate} (coherent : Coherent shown monitor)
    (turn : Turn Rate) : Kept shown (monitor.step partialCmp turn) := by
  have settled := settled_coherent partialCmp monitor turn coherent
  unfold step render
  dsimp only
  cases due : (monitor.settled partialCmp turn).needsRender with
  | false =>
      exact handle_kept settled due turn
  | true =>
      have scrolled := settled_scroll partialCmp monitor turn
      -- behind the frame nothing is due, and it shows the selected process
      have rendered : Coherent (some (monitor.settled partialCmp turn).frame)
          { monitor.settled partialCmp turn with needsRender := false } :=
        ⟨settled.inRange, fun _ => frame_highlighted⟩
      refine kept_append ((everyStep_cons ..).mpr
        ⟨frame_visible settled.inRange scrolled, by simp [EveryStep, visited]⟩) ?_
      exact handle_kept rendered rfl turn

theorem turns_kept [Add Rate] (partialCmp : Rate → Rate → Option Ordering)
    {shown : Option (Frame Rate)} {monitor : Monitor Rate} (coherent : Coherent shown monitor)
    (inputs : List (Turn Rate)) : Kept shown (turns partialCmp monitor inputs) := by
  induction inputs generalizing shown monitor with
  | nil => exact kept_again coherent
  | cons turn rest inductionHypothesis =>
      have kept := step_kept partialCmp coherent turn
      unfold turns
      rcases result : monitor.step partialCmp turn with ⟨effects, ending⟩
      rw [result] at kept
      cases ending with
      | again next => exact kept_append kept.aimed (inductionHypothesis (kept.next next rfl))
      | left => exact kept
      | panicked => exact absurd rfl kept.running

end Monitor

theorem runMonitor_kept [Add Rate] (partialCmp : Rate → Rate → Option Ordering) (started : Int)
    (turns : List (Turn Rate)) : Kept none (runMonitor partialCmp started turns) :=
  Monitor.turns_kept partialCmp (Monitor.coherent_of_due (Nat.zero_le _) rfl) turns

end SystemPilot.Ui
