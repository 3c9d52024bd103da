/-!
# Transducers

A machine that reads a list symbol by symbol, may fail, and writes any number of
outputs at each step.  Reading a concatenation is reading its parts one after the
other, and the output of one machine can be the input of another.
-/

set_option autoImplicit false

namespace SystemPilot.Library

structure Transducer (State Symbol Output : Type) where
  step : State → Symbol → Option (List Output × State)

namespace Transducer

variable {State Symbol Output : Type} (machine : Transducer State Symbol Output)

/-- What a list makes of a state, with all that is written on the way. -/
def run : State → List Symbol → Option (List Output × State)
  | state, [] => some ([], state)
  | state, symbol :: rest =>
      (machine.step state symbol).bind fun stepped =>
        (run stepped.2 rest).map fun later => (stepped.1 ++ later.1, later.2)

theorem run_nil (state : State) : machine.run state [] = some ([], state) := rfl

theorem run_cons (state : State) (symbol : Symbol) (rest : List Symbol) :
    machine.run state (symbol :: rest) =
      (machine.step state symbol).bind fun stepped =>
        (machine.run stepped.2 rest).map fun later => (stepped.1 ++ later.1, later.2) := rfl

variable {machine}

/-- A step that writes nothing. -/
theorem run_cons_of_silent {state next : State} {symbol : Symbol}
    (stepped : machine.step state symbol = some ([], next)) (rest : List Symbol) :
    machine.run state (symbol :: rest) = machine.run next rest := by
  rw [run_cons, stepped, Option.bind_some]
  simp

theorem run_append {state next : State} {before : List Symbol} {written : List Output}
    (read : machine.run state before = some (written, next)) (after : List Symbol) :
    machine.run state (before ++ after) =
      (machine.run next after).map fun later => (written ++ later.1, later.2) := by
  induction before generalizing state written with
  | nil =>
      cases read
      simp
  | cons symbol before inductionHypothesis =>
      rw [run_cons, Option.bind_eq_some_iff] at read
      obtain ⟨⟨first, middle⟩, stepped, rest⟩ := read
      rw [Option.map_eq_some_iff] at rest
      obtain ⟨⟨later, final⟩, read, same⟩ := rest
      cases same
      rw [List.cons_append, run_cons, stepped, Option.bind_some, inductionHypothesis read,
        Option.map_map]
      simp [Function.comp_def, List.append_assoc]

theorem run_append_of_silent {state next : State} {before : List Symbol}
    (read : machine.run state before = some ([], next)) (after : List Symbol) :
    machine.run state (before ++ after) = machine.run next after := by
  rw [run_append read]
  simp

/-- If a step either writes nothing and keeps `before`, or writes a `first` output,
then so does a run. -/
theorem run_first {before : State → Prop} {first : Output → Prop}
    (steps : ∀ state symbol written next, before state →
      machine.step state symbol = some (written, next) →
        (written = [] ∧ before next) ∨ ∃ output others, written = output :: others ∧ first output)
    {state final : State} {symbols : List Symbol} {all : List Output} (initial : before state)
    (read : machine.run state symbols = some (all, final)) :
    (all = [] ∧ before final) ∨ ∃ output others, all = output :: others ∧ first output := by
  induction symbols generalizing state all with
  | nil =>
      cases read
      exact Or.inl ⟨rfl, initial⟩
  | cons symbol symbols inductionHypothesis =>
      rw [run_cons, Option.bind_eq_some_iff] at read
      obtain ⟨⟨written, next⟩, stepped, others⟩ := read
      rw [Option.map_eq_some_iff] at others
      obtain ⟨⟨later, ending⟩, rest, same⟩ := others
      cases same
      rcases steps state symbol written next initial stepped with
        ⟨rfl, kept⟩ | ⟨output, others, rfl, isFirst⟩
      · exact inductionHypothesis kept rest
      · exact Or.inr ⟨output, others ++ later, rfl, isFirst⟩

variable {Next Result : Type}

/-- The outputs of one machine read by another. -/
def andThen (first : Transducer State Symbol Output) (second : Transducer Next Output Result) :
    Transducer (State × Next) Symbol Result where
  step states symbol :=
    (first.step states.1 symbol).bind fun stepped =>
      (second.run states.2 stepped.1).map fun later => (later.1, stepped.2, later.2)

theorem andThen_first {first : Transducer State Symbol Output}
    {second : Transducer Next Output Result} {before : Next → Prop} {isFirst : Result → Prop}
    (steps : ∀ state symbol written next, before state →
      second.step state symbol = some (written, next) →
        (written = [] ∧ before next) ∨ ∃ output others, written = output :: others ∧ isFirst output)
    {states final : State × Next} {symbols : List Symbol} {all : List Result}
    (initial : before states.2)
    (read : (first.andThen second).run states symbols = some (all, final)) :
    (all = [] ∧ before final.2) ∨ ∃ output others, all = output :: others ∧ isFirst output := by
  have lifted : ∀ (states : State × Next) symbol written next, before states.2 →
      (first.andThen second).step states symbol = some (written, next) →
        (written = [] ∧ before next.2) ∨
          ∃ output others, written = output :: others ∧ isFirst output := by
    intro states symbol written next kept stepped
    obtain ⟨⟨tokens, between⟩, _, others⟩ := Option.bind_eq_some_iff.mp stepped
    obtain ⟨⟨results, ending⟩, run, same⟩ := Option.map_eq_some_iff.mp others
    cases same
    exact run_first steps kept run
  exact run_first lifted initial read

end Transducer

end SystemPilot.Library
