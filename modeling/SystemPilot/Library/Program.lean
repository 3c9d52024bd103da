import Mathlib.Logic.Function.Basic
import Mathlib.Data.List.Range
import SystemPilot.Library.Machine

/-!
# Programs of operations

A program is a value, or an operation on a shared state with what is done with its
result.  It can be run alone, or as one of several processes whose operations
interleave.
-/

set_option autoImplicit false

namespace SystemPilot.Library

inductive Program {Op : Type} (Result : Op → Type) (Value : Type) where
  | done (value : Value)
  | perform (op : Op) (next : Result op → Program Result Value)

namespace Program

variable {Op : Type} {Result : Op → Type} {Value Other Third : Type}

def bind (program : Program Result Value) (following : Value → Program Result Other) :
    Program Result Other :=
  match program with
  | .done value => following value
  | .perform op next => .perform op fun result => (next result).bind following

theorem bind_assoc (program : Program Result Value) (following : Value → Program Result Other)
    (last : Other → Program Result Third) :
    (program.bind following).bind last =
      program.bind fun value => (following value).bind last := by
  induction program with
  | done value => rfl
  | perform op next inductionHypothesis =>
      exact congrArg (Program.perform op) (funext inductionHypothesis)

/-- The operations of a program are `allowed` and it ends as `ending`, as long as
their results are `expected`. -/
def Keeps (allowed : Op → Prop) (expected : (op : Op) → Result op → Prop)
    (ending : Value → Prop) : Program Result Value → Prop
  | .done value => ending value
  | .perform op next =>
      allowed op ∧ ∀ result, expected op result → Keeps allowed expected ending (next result)

/-- The value of a program that has ended. -/
def ended : Program Result Value → Option Value
  | .done value => some value
  | .perform _ _ => none

theorem done_of_ended {program : Program Result Value} {value : Value}
    (ended : program.ended = some value) : program = .done value := by
  cases program with
  | done other => exact congrArg done (Option.some.inj ended)
  | perform op next => cases ended

variable {allowed : Op → Prop} {expected : (op : Op) → Result op → Prop}

theorem keeps_bind {middle : Value → Prop} {ending : Other → Prop} {program : Program Result Value}
    {following : Value → Program Result Other} (first : program.Keeps allowed expected middle)
    (rest : ∀ value, middle value → (following value).Keeps allowed expected ending) :
    (program.bind following).Keeps allowed expected ending := by
  induction program with
  | done value => exact rest value first
  | perform op next inductionHypothesis =>
      exact ⟨first.1, fun result met => inductionHypothesis result (first.2 result met)⟩

theorem Keeps.mono {other : Op → Prop} {fewer : (op : Op) → Result op → Prop}
    {ending final : Value → Prop} {program : Program Result Value}
    (keeps : program.Keeps allowed expected ending) (weaker : ∀ op, allowed op → other op)
    (met : ∀ op result, fewer op result → expected op result)
    (ends : ∀ value, ending value → final value) : program.Keeps other fewer final := by
  induction program with
  | done value => exact ends value keeps
  | perform op next inductionHypothesis =>
      exact ⟨weaker op keeps.1, fun result found =>
        inductionHypothesis result (keeps.2 result (met op result found))⟩

end Program

/-! ## Effects -/

/-- What operations do to a state; everything else they depend on is the
environment's. -/
structure Effects {Op : Type} (Result : Op → Type) (Environment State : Type) where
  perform : (op : Op) → Environment → State → Result op × State

namespace Effects

variable {Op : Type} {Result : Op → Type} {Environment State Value Other : Type}
variable (effects : Effects Result Environment State)

/-- A program that runs alone. -/
def run (environment : Environment) : Program Result Value → State → Value × State
  | .done value, state => (value, state)
  | .perform op next, state =>
      run environment (next (effects.perform op environment state).1)
        (effects.perform op environment state).2

theorem run_bind (environment : Environment) (program : Program Result Value)
    (following : Value → Program Result Other) (state : State) :
    effects.run environment (program.bind following) state =
      effects.run environment (following (effects.run environment program state).1)
        (effects.run environment program state).2 := by
  induction program generalizing state with
  | done value => rfl
  | perform op next inductionHypothesis => exact inductionHypothesis _ _

/-! ## Where a program can be interrupted -/

/-- A state the program passes through, whatever the environment does. -/
inductive Passes : Program Result Value → State → State → Prop where
  | here (program : Program Result Value) (state : State) : Passes program state state
  | later (op : Op) (next : Result op → Program Result Value) (environment : Environment)
      (state last : State) (rest : Passes (next (effects.perform op environment state).1)
        (effects.perform op environment state).2 last) : Passes (.perform op next) state last

theorem passes_run (environment : Environment) (program : Program Result Value) (state : State) :
    effects.Passes program state (effects.run environment program state).2 := by
  induction program generalizing state with
  | done value => exact .here _ _
  | perform op next inductionHypothesis =>
      exact .later op next environment state _ (inductionHypothesis _ _)

/-- Every state the program passes through has a property, and it ends as `ending`. -/
def Always (property : State → Prop) (ending : Value → State → Prop) :
    Program Result Value → State → Prop
  | .done value, state => property state ∧ ending value state
  | .perform op next, state => property state ∧ ∀ environment,
      Always property ending (next (effects.perform op environment state).1)
        (effects.perform op environment state).2

variable {effects} {property : State → Prop}

theorem always_bind {middle : Value → State → Prop} {ending : Other → State → Prop}
    {program : Program Result Value} {following : Value → Program Result Other} {state : State}
    (first : effects.Always property middle program state)
    (rest : ∀ value state, middle value state →
      effects.Always property ending (following value) state) :
    effects.Always property ending (program.bind following) state := by
  induction program generalizing state with
  | done value => exact rest value state first.2
  | perform op next inductionHypothesis =>
      exact ⟨first.1, fun environment => inductionHypothesis _ (first.2 environment)⟩

/-- A property that every allowed operation leaves holds all along. -/
theorem always_of_keeps {allowed : Op → Prop} {expected : (op : Op) → Result op → Prop}
    {ending : Value → Prop} {program : Program Result Value} {state : State}
    (keeps : program.Keeps allowed expected ending) (every : ∀ op result, expected op result)
    (preserved : ∀ op environment state, allowed op → property state →
      property (effects.perform op environment state).2) (initial : property state) :
    effects.Always property (fun _ state => property state) program state := by
  induction program generalizing state with
  | done value => exact ⟨initial, initial⟩
  | perform op next inductionHypothesis =>
      refine ⟨initial, fun environment => ?_⟩
      exact inductionHypothesis _ (keeps.2 _ (every _ _))
        (preserved op environment state keeps.1 initial)

theorem Always.passes {ending : Value → State → Prop} {program : Program Result Value}
    {state last : State} (always : effects.Always property ending program state)
    (passes : effects.Passes program state last) : property last := by
  induction passes with
  | here program state =>
      cases program with
      | done value => exact always.1
      | perform op next => exact always.1
  | later op next environment state last _ inductionHypothesis =>
      exact inductionHypothesis (always.2 environment)

theorem Always.mono {other : State → Prop} {ending final : Value → State → Prop}
    {program : Program Result Value} {state : State}
    (always : effects.Always property ending program state)
    (weaker : ∀ state, property state → other state)
    (ends : ∀ value state, ending value state → final value state) :
    effects.Always other final program state := by
  induction program generalizing state with
  | done value => exact ⟨weaker state always.1, ends value state always.2⟩
  | perform op next inductionHypothesis =>
      exact ⟨weaker state always.1, fun environment => inductionHypothesis _ (always.2 environment)⟩

/-- The property holds at the end too. -/
theorem Always.held {ending : Value → State → Prop} {program : Program Result Value}
    {state : State} (always : effects.Always property ending program state) :
    effects.Always property (fun value state => property state ∧ ending value state) program state := by
  induction program generalizing state with
  | done value => exact ⟨always.1, always.1, always.2⟩
  | perform op next inductionHypothesis =>
      exact ⟨always.1, fun environment => inductionHypothesis _ (always.2 environment)⟩

theorem Always.and {other : State → Prop} {ending final : Value → State → Prop}
    {program : Program Result Value} {state : State}
    (first : effects.Always property ending program state)
    (second : effects.Always other final program state) :
    effects.Always (fun state => property state ∧ other state)
      (fun value state => ending value state ∧ final value state) program state := by
  induction program generalizing state with
  | done value => exact ⟨⟨first.1, second.1⟩, first.2, second.2⟩
  | perform op next inductionHypothesis =>
      exact ⟨⟨first.1, second.1⟩, fun environment =>
        inductionHypothesis _ (first.2 environment) (second.2 environment)⟩

variable (effects) in
/-- A program that runs alone until it ends or the environment does; it has no value then. -/
def during : List Environment → Program Result Value → State → Option Value × State
  | _, .done value, state => (some value, state)
  | [], .perform _ _, state => (none, state)
  | environment :: rest, .perform op next, state =>
      during rest (next (effects.perform op environment state).1)
        (effects.perform op environment state).2

theorem Always.during {ending : Value → State → Prop} {program : Program Result Value}
    {state : State} (always : effects.Always property ending program state)
    (environments : List Environment) :
    property (effects.during environments program state).2 ∧
      ∀ value, (effects.during environments program state).1 = some value →
        ending value (effects.during environments program state).2 := by
  induction program generalizing state environments with
  | done value =>
      cases environments <;> exact ⟨always.1, fun other same => Option.some.inj same ▸ always.2⟩
  | perform op next inductionHypothesis =>
      cases environments with
      | nil => exact ⟨always.1, fun value impossible => by cases impossible⟩
      | cons environment rest => exact inductionHypothesis _ (always.2 environment) rest

/-- Two states that no allowed operation tells apart are told apart by no program of them,
wherever it is interrupted. -/
theorem during_related {relation : State → State → Prop} {allowed : Op → Prop}
    (related : ∀ op environment left right, allowed op → relation left right →
      (effects.perform op environment left).1 = (effects.perform op environment right).1 ∧
        relation (effects.perform op environment left).2 (effects.perform op environment right).2)
    {program : Program Result Value}
    (keeps : program.Keeps allowed (fun _ _ => True) fun _ => True) {left right : State}
    (initial : relation left right) (environments : List Environment) :
    (effects.during environments program left).1 = (effects.during environments program right).1 ∧
      relation (effects.during environments program left).2
        (effects.during environments program right).2 := by
  induction program generalizing left right environments with
  | done value =>
      cases environments <;> exact ⟨rfl, initial⟩
  | perform op next inductionHypothesis =>
      cases environments with
      | nil => exact ⟨rfl, initial⟩
      | cons environment rest =>
          obtain ⟨same, after⟩ := related op environment left right keeps.1 initial
          simp only [during]
          rw [← same]
          exact inductionHypothesis _ (keeps.2 _ trivial) after rest

/-! ## Processes -/

/-- What is left of the program of each process, and the state they share. -/
structure Processes {Op : Type} (Result : Op → Type) (State Value Process : Type) where
  programs : Process → Program Result Value
  state : State

variable {Process : Type} [DecidableEq Process]

variable (effects) in
/-- The next operation of a process. -/
def advance (processes : Processes Result State Value Process) (event : Process × Environment) :
    Processes Result State Value Process :=
  match processes.programs event.1 with
  | .done _ => processes
  | .perform op next =>
      { programs := Function.update processes.programs event.1
          (next (effects.perform op event.2 processes.state).1)
        state := (effects.perform op event.2 processes.state).2 }

theorem advance_done {processes : Processes Result State Value Process}
    {event : Process × Environment} {value : Value}
    (returned : processes.programs event.1 = .done value) :
    effects.advance processes event = processes := by
  rw [advance, returned]

theorem advance_perform {processes : Processes Result State Value Process}
    {event : Process × Environment} {op : Op} {next : Result op → Program Result Value}
    (current : processes.programs event.1 = .perform op next) :
    effects.advance processes event =
      { programs := Function.update processes.programs event.1
          (next (effects.perform op event.2 processes.state).1)
        state := (effects.perform op event.2 processes.state).2 } := by
  rw [advance, current]

/-- A step of another process leaves the program of a process. -/
theorem programs_advance_of_ne {processes : Processes Result State Value Process}
    {event : Process × Environment} {process : Process} (other : event.1 ≠ process) :
    (effects.advance processes event).programs process = processes.programs process := by
  unfold advance
  split
  · rfl
  · exact Function.update_of_ne other.symm _ _

theorem programs_advance_self {processes : Processes Result State Value Process}
    {event : Process × Environment} {op : Op} {next : Result op → Program Result Value}
    (current : processes.programs event.1 = .perform op next) :
    (effects.advance processes event).programs event.1 =
      next (effects.perform op event.2 processes.state).1 := by
  rw [advance_perform current]
  exact Function.update_self _ _ _

theorem keeps_advance {allowed : Op → Prop} {expected : (op : Op) → Result op → Prop}
    {ending : Value → Prop} {processes : Processes Result State Value Process}
    {event : Process × Environment} {process : Process}
    (keeps : (processes.programs process).Keeps allowed expected ending)
    (met : event.1 = process → ∀ op next, processes.programs process = .perform op next →
      expected op (effects.perform op event.2 processes.state).1) :
    ((effects.advance processes event).programs process).Keeps allowed expected ending := by
  by_cases own : event.1 = process
  · subst own
    cases current : processes.programs event.1 with
    | done value =>
        rw [advance_done current]
        exact keeps
    | perform op next =>
        rw [programs_advance_self current]
        rw [current] at keeps
        exact keeps.2 _ (met rfl op next current)
  · rw [programs_advance_of_ne own]
    exact keeps

/-- A process that is scheduled again and again returns. -/
theorem returns (schedule : Nat → Process × Environment) (process : Process)
    (often : ∀ start, ∃ later ≥ start, (schedule later).1 = process)
    (processes : Processes Result State Value Process) :
    ∃ count value, (Machine.run effects.advance processes
      ((List.range count).map schedule)).programs process = .done value := by
  have run_succ : ∀ count, Machine.run effects.advance processes
      ((List.range (count + 1)).map schedule) = effects.advance
        (Machine.run effects.advance processes ((List.range count).map schedule))
        (schedule count) := by
    intro count
    rw [List.range_succ, List.map_append, Machine.run_append]
    rfl
  have from_program : ∀ (program : Program Result Value) (start : Nat),
      (Machine.run effects.advance processes ((List.range start).map schedule)).programs process =
        program → ∃ count value, (Machine.run effects.advance processes
          ((List.range count).map schedule)).programs process = .done value := by
    intro program
    induction program with
    | done value => exact fun start here => ⟨start, value, here⟩
    | perform op next inductionHypothesis =>
        intro start here
        obtain ⟨later, after, scheduled⟩ := often start
        -- the program waits for the first event of the process from here on
        have waits : ∀ count, start ≤ count →
            (∀ between, start ≤ between → between < count → (schedule between).1 ≠ process) →
            (Machine.run effects.advance processes ((List.range count).map schedule)).programs
              process = .perform op next := by
          intro count reached
          induction count, reached using Nat.le_induction with
          | base => exact fun _ => here
          | succ count reached inductionHypothesis =>
              intro others
              rw [run_succ, programs_advance_of_ne (others count reached (by omega))]
              exact inductionHypothesis fun between lower upper => others between lower (by omega)
        classical
        have found : ∃ first, start ≤ first ∧ (schedule first).1 = process := ⟨later, after, scheduled⟩
        obtain ⟨first, ⟨reached, own⟩, least⟩ : ∃ first,
            (start ≤ first ∧ (schedule first).1 = process) ∧
              ∀ between < first, ¬ (start ≤ between ∧ (schedule between).1 = process) :=
          ⟨Nat.find found, Nat.find_spec found, fun _ => Nat.find_min found⟩
        have current := waits first reached fun between lower upper same =>
          least between upper ⟨lower, same⟩
        rw [← own] at current
        have stepped := @programs_advance_self _ _ _ _ _ effects _ _ _ _ _ _ current
        rw [← run_succ, own] at stepped
        exact inductionHypothesis _ (first + 1) stepped
  exact from_program _ 0 rfl

end Effects

end SystemPilot.Library
