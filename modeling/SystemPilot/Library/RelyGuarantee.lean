import SystemPilot.Library.Program

/-!
# Rely and guarantee

What one program does to a shared state while others change it in ways it relies on.
Programs each of which guarantees what the others rely on can run side by side: an
invariant of all guarantees holds throughout, and each program ends as it says.
-/

set_option autoImplicit false

namespace SystemPilot.Library.Effects

variable {Op : Type} {Result : Op → Type} {Environment State Value Other : Type}
variable (effects : Effects Result Environment State)

/-- Whatever others do that it relies on, the program does what it guarantees and ends as
`ending`. -/
def Secure (rely guarantee : State → State → Prop) (ending : Value → State → Prop) :
    Program Result Value → State → Prop
  | .done value, state => ∀ later, rely state later → ending value later
  | .perform op next, state => ∀ later, rely state later → ∀ environment,
      guarantee later (effects.perform op environment later).2 ∧
        Secure rely guarantee ending (next (effects.perform op environment later).1)
          (effects.perform op environment later).2

variable {effects} {rely guarantee : State → State → Prop} {ending : Value → State → Prop}
  {program : Program Result Value} {state later : State}

/-- A step of another program does not matter. -/
theorem Secure.interfered
    (transitive : ∀ first middle last, rely first middle → rely middle last → rely first last)
    (secure : effects.Secure rely guarantee ending program state) (step : rely state later) :
    effects.Secure rely guarantee ending program later := by
  cases program with
  | done value => exact fun last further => secure last (transitive _ _ _ step further)
  | perform op next => exact fun last further => secure last (transitive _ _ _ step further)

theorem secure_bind {middle : Value → State → Prop} {final : Other → State → Prop}
    {following : Value → Program Result Other}
    (first : effects.Secure rely guarantee middle program state)
    (rest : ∀ value state, (∀ later, rely state later → middle value later) →
      effects.Secure rely guarantee final (following value) state) :
    effects.Secure rely guarantee final (program.bind following) state := by
  induction program generalizing state with
  | done value => exact rest value state first
  | perform op next inductionHypothesis =>
      intro later step environment
      obtain ⟨guaranteed, secure⟩ := first later step environment
      exact ⟨guaranteed, inductionHypothesis _ secure⟩

theorem Secure.mono {final : Value → State → Prop}
    (secure : effects.Secure rely guarantee ending program state)
    (weaker : ∀ value state, ending value state → final value state) :
    effects.Secure rely guarantee final program state := by
  induction program generalizing state with
  | done value => exact fun later step => weaker value later (secure later step)
  | perform op next inductionHypothesis =>
      intro later step environment
      obtain ⟨guaranteed, rest⟩ := secure later step environment
      exact ⟨guaranteed, inductionHypothesis _ rest⟩

/-- A program that runs alone keeps what it guarantees to keep. -/
theorem Secure.always {property : State → Prop} (reflexive : ∀ state, rely state state)
    (kept : ∀ state later, guarantee state later → property state → property later)
    (secure : effects.Secure rely guarantee ending program state) (initial : property state) :
    effects.Always property ending program state := by
  induction program generalizing state with
  | done value => exact ⟨initial, secure _ (reflexive _)⟩
  | perform op next inductionHypothesis =>
      refine ⟨initial, fun environment => ?_⟩
      obtain ⟨guaranteed, rest⟩ := secure _ (reflexive _) environment
      exact inductionHypothesis _ rest (kept _ _ guaranteed initial)

section Side

variable {Process : Type} [DecidableEq Process]
variable {relies guarantees : Process → State → State → Prop}
  {endings : Process → Value → State → Prop} {processes : Processes Result State Value Process}

/-- Every program of the processes is secure. -/
def AllSecure (effects : Effects Result Environment State)
    (relies guarantees : Process → State → State → Prop)
    (endings : Process → Value → State → Prop) (processes : Processes Result State Value Process) :
    Prop :=
  ∀ process, effects.Secure (relies process) (guarantees process) (endings process)
    (processes.programs process) processes.state

/-- A step does nothing, or what the process that takes it guarantees. -/
theorem advance_guaranteed (reflexive : ∀ process state, relies process state state)
    (secure : AllSecure effects relies guarantees endings processes)
    (event : Process × Environment) :
    (effects.advance processes event).state = processes.state ∨
      guarantees event.1 processes.state (effects.advance processes event).state := by
  cases current : processes.programs event.1 with
  | done value =>
      rw [advance_done current]
      exact .inl rfl
  | perform op next =>
      have mine := secure event.1
      rw [current] at mine
      rw [advance_perform current]
      exact .inr (mine processes.state (reflexive _ _) event.2).1

theorem advance_secure (reflexive : ∀ process state, relies process state state)
    (transitive : ∀ process first middle last, relies process first middle →
      relies process middle last → relies process first last)
    (compatible : ∀ process other, process ≠ other → ∀ state later,
      guarantees process state later → relies other state later)
    (secure : AllSecure effects relies guarantees endings processes)
    (event : Process × Environment) :
    AllSecure effects relies guarantees endings (effects.advance processes event) := by
  intro process
  by_cases own : event.1 = process
  · subst own
    cases current : processes.programs event.1 with
    | done value =>
        rw [advance_done current]
        exact secure event.1
    | perform op next =>
        have mine := secure event.1
        rw [current] at mine
        rw [programs_advance_self current, advance_perform current]
        exact (mine processes.state (reflexive _ _) event.2).2
  · rw [programs_advance_of_ne own]
    refine (secure process).interfered (transitive process) ?_
    rcases advance_guaranteed reflexive secure event with same | guaranteed
    · rw [same]
      exact reflexive _ _
    · exact compatible _ _ own _ _ guaranteed

/-- Side by side every program stays secure, and an invariant of the guarantees holds. -/
theorem run_secure (reflexive : ∀ process state, relies process state state)
    (transitive : ∀ process first middle last, relies process first middle →
      relies process middle last → relies process first last)
    (compatible : ∀ process other, process ≠ other → ∀ state later,
      guarantees process state later → relies other state later)
    {invariant : State → Prop}
    (kept : ∀ process state later, guarantees process state later → invariant state →
      invariant later)
    (secure : AllSecure effects relies guarantees endings processes)
    (initial : invariant processes.state) (events : List (Process × Environment)) :
    AllSecure effects relies guarantees endings (Machine.run effects.advance processes events) ∧
      invariant (Machine.run effects.advance processes events).state := by
  refine Machine.run_invariant_always _ (fun processes =>
    AllSecure effects relies guarantees endings processes ∧ invariant processes.state) ?_ _ events
    ⟨secure, initial⟩
  intro processes event held
  refine ⟨advance_secure reflexive transitive compatible held.1 event, ?_⟩
  rcases advance_guaranteed reflexive held.1 event with same | guaranteed
  · rw [same]
    exact held.2
  · exact kept _ _ _ guaranteed held.2

omit [DecidableEq Process] in
/-- What holds where a process has ended. -/
theorem AllSecure.ended (reflexive : ∀ process state, relies process state state)
    (secure : AllSecure effects relies guarantees endings processes) {process : Process}
    {value : Value} (finished : processes.programs process = .done value) :
    endings process value processes.state := by
  have mine := secure process
  rw [finished] at mine
  exact mine _ (reflexive _ _)

end Side

end SystemPilot.Library.Effects
