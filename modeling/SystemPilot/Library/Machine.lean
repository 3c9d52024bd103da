import Mathlib.Tactic

/-!
# Event machines

A machine is a deterministic step function; everything its environment decides
is part of the event.  The rules here carry an invariant or a per-step property
over whole runs, and compare two runs that differ only in the events one
observer does not own.
-/

set_option autoImplicit false

namespace SystemPilot.Library.Machine

variable {State Event : Type}

/-- The state after a list of events. -/
def run (step : State → Event → State) (state : State) (events : List Event) : State :=
  events.foldl step state

/-- Every step of a run, as the state it starts from and its event. -/
def visited (step : State → Event → State) : State → List Event → List (State × Event)
  | _, [] => []
  | state, event :: rest => (state, event) :: visited step (step state event) rest

/-- A property of each step of a run. -/
def EveryStep (step : State → Event → State) (property : State → Event → Prop)
    (state : State) (events : List Event) : Prop :=
  ∀ pair ∈ visited step state events, property pair.1 pair.2

variable (step : State → Event → State)

@[simp] theorem run_nil (state : State) : run step state [] = state := rfl

@[simp] theorem run_cons (state : State) (event : Event) (rest : List Event) :
    run step state (event :: rest) = run step (step state event) rest := rfl

theorem run_append (state : State) (first second : List Event) :
    run step state (first ++ second) = run step (run step state first) second :=
  List.foldl_append

theorem visited_append (state : State) (first second : List Event) :
    visited step state (first ++ second) =
      visited step state first ++ visited step (run step state first) second := by
  induction first generalizing state with
  | nil => rfl
  | cons event rest inductionHypothesis =>
      simp only [List.cons_append, visited, run_cons, inductionHypothesis]

theorem everyStep_cons (property : State → Event → Prop) (state : State) (event : Event)
    (rest : List Event) :
    EveryStep step property state (event :: rest) ↔
      property state event ∧ EveryStep step property (step state event) rest := by
  simp [EveryStep, visited]

/-- A step of a run is taken from the state a prefix of the run reaches. -/
theorem mem_visited_iff (state : State) (events : List Event) (pair : State × Event) :
    pair ∈ visited step state events ↔
      ∃ before after, events = before ++ pair.2 :: after ∧ pair.1 = run step state before := by
  induction events generalizing state with
  | nil => simp [visited]
  | cons event rest inductionHypothesis =>
      simp only [visited, List.mem_cons, inductionHypothesis]
      constructor
      · rintro (rfl | ⟨before, after, split, reached⟩)
        · exact ⟨[], rest, rfl, rfl⟩
        · exact ⟨event :: before, after, by simp [split], by simpa using reached⟩
      · rintro ⟨before, after, split, reached⟩
        cases before with
        | nil =>
            simp only [List.nil_append, List.cons.injEq] at split
            exact Or.inl (Prod.ext reached split.1.symm)
        | cons first before =>
            simp only [List.cons_append, List.cons.injEq] at split
            obtain ⟨rfl, tail⟩ := split
            exact Or.inr ⟨before, after, tail, by simpa using reached⟩

/-- A property holds in every state a run reaches when it holds at first and
after every step. -/
theorem reached_iff (property : State → Prop) (state : State) (events : List Event) :
    (∀ before after, events = before ++ after → property (run step state before)) ↔
      property state ∧
        EveryStep step (fun state event => property (step state event)) state events := by
  constructor
  · intro reached
    refine ⟨reached [] events rfl, ?_⟩
    intro pair member
    obtain ⟨before, after, split, starts⟩ := (mem_visited_iff step state events pair).mp member
    have next := reached (before ++ [pair.2]) after (by simp [split])
    rw [run_append, ← starts] at next
    exact next
  · rintro ⟨initial, steps⟩ before after rfl
    rcases List.eq_nil_or_concat before with rfl | ⟨earlier, event, rfl⟩
    · exact initial
    · have taken := steps (run step state earlier, event)
        ((mem_visited_iff step state _ _).mpr ⟨earlier, after, by simp, rfl⟩)
      rw [List.concat_eq_append, run_append]
      exact taken

/-! ## Invariants -/

/-- The run lemma: what one admitted step preserves, a run of admitted steps
preserves. -/
theorem run_invariant (invariant : State → Prop) (admitted : State → Event → Prop)
    (preserved : ∀ state event, invariant state → admitted state event →
      invariant (step state event))
    (state : State) (events : List Event) (initial : invariant state)
    (steps : EveryStep step admitted state events) : invariant (run step state events) := by
  induction events generalizing state with
  | nil => exact initial
  | cons event rest inductionHypothesis =>
      rw [everyStep_cons] at steps
      exact inductionHypothesis (step state event) (preserved state event initial steps.1) steps.2

theorem run_invariant_always (invariant : State → Prop)
    (preserved : ∀ state event, invariant state → invariant (step state event))
    (state : State) (events : List Event) (initial : invariant state) :
    invariant (run step state events) :=
  run_invariant step invariant (fun _ _ => True)
    (fun before event holds _ => preserved before event holds) state events initial
    (fun _ _ => trivial)

/-- A property that follows from the invariant holds of every step. -/
theorem everyStep_of_invariant (invariant : State → Prop) (admitted : State → Event → Prop)
    (property : State → Event → Prop)
    (preserved : ∀ state event, invariant state → admitted state event →
      invariant (step state event))
    (established : ∀ state event, invariant state → admitted state event → property state event)
    (state : State) (events : List Event) (initial : invariant state)
    (steps : EveryStep step admitted state events) : EveryStep step property state events := by
  induction events generalizing state with
  | nil => simp [EveryStep, visited]
  | cons event rest inductionHypothesis =>
      rw [everyStep_cons] at steps ⊢
      exact ⟨established state event initial steps.1,
        inductionHypothesis (step state event) (preserved state event initial steps.1) steps.2⟩

/-- Under an invariant of every run two step properties that agree there agree
over whole runs. -/
theorem everyStep_iff_of_invariant (invariant : State → Prop)
    (property condition : State → Event → Prop)
    (preserved : ∀ state event, invariant state → invariant (step state event))
    (agree : ∀ state event, invariant state → (property state event ↔ condition state event))
    (state : State) (events : List Event) (initial : invariant state) :
    EveryStep step property state events ↔ EveryStep step condition state events := by
  induction events generalizing state with
  | nil => simp [EveryStep, visited]
  | cons event rest inductionHypothesis =>
      rw [everyStep_cons, everyStep_cons, agree state event initial,
        inductionHypothesis (step state event) (preserved state event initial)]

/-- The same when the property itself carries the invariant over its step. -/
theorem everyStep_iff_of_established (invariant : State → Prop)
    (property condition : State → Event → Prop)
    (carried : ∀ state event, invariant state → property state event →
      invariant (step state event))
    (agree : ∀ state event, invariant state → (property state event ↔ condition state event))
    (state : State) (events : List Event) (initial : invariant state) :
    EveryStep step property state events ↔ EveryStep step condition state events := by
  induction events generalizing state with
  | nil => simp [EveryStep, visited]
  | cons event rest inductionHypothesis =>
      rw [everyStep_cons, everyStep_cons]
      constructor
      · rintro ⟨first, later⟩
        exact ⟨(agree state event initial).mp first,
          (inductionHypothesis (step state event) (carried state event initial first)).mp later⟩
      · rintro ⟨first, later⟩
        have holds := (agree state event initial).mpr first
        exact ⟨holds,
          (inductionHypothesis (step state event) (carried state event initial holds)).mpr later⟩

/-! ## Unwinding

Two runs whose owned events agree, as far as a signature tells, end in states
with the same view, when the other events leave the view alone and an owned
event acts on the view by its signature only. -/

section Unwinding

variable {View Signature : Type} (view : State → View) (owned : Event → Bool)
variable (signature : Event → Signature)
variable (invariant : State → Prop) (admitted : State → Event → Prop)

theorem view_run_of_no_owned
    (preserved : ∀ state event, invariant state → admitted state event →
      invariant (step state event))
    (foreign : ∀ state event, invariant state → admitted state event →
      owned event = false → view (step state event) = view state)
    (state : State) (events : List Event) (initial : invariant state)
    (steps : EveryStep step admitted state events)
    (noneOwned : ∀ event ∈ events, owned event = false) :
    view (run step state events) = view state := by
  induction events generalizing state with
  | nil => rfl
  | cons event rest inductionHypothesis =>
      rw [everyStep_cons] at steps
      have tail := inductionHypothesis (step state event)
        (preserved state event initial steps.1) steps.2
        (fun other member => noneOwned other (by simp [member]))
      rw [run_cons, tail]
      exact foreign state event initial steps.1 (noneOwned event (by simp))

theorem unwinding
    (preserved : ∀ state event, invariant state → admitted state event →
      invariant (step state event))
    (foreign : ∀ state event, invariant state → admitted state event →
      owned event = false → view (step state event) = view state)
    (local_ : ∀ left right event event', invariant left → invariant right →
      admitted left event → admitted right event' → owned event = true → owned event' = true →
      signature event = signature event' → view left = view right →
      view (step left event) = view (step right event'))
    (left right : State) (leftEvents rightEvents : List Event)
    (leftInitial : invariant left) (rightInitial : invariant right)
    (leftSteps : EveryStep step admitted left leftEvents)
    (rightSteps : EveryStep step admitted right rightEvents)
    (same : view left = view right)
    (agree : (leftEvents.filter owned).map signature = (rightEvents.filter owned).map signature) :
    view (run step left leftEvents) = view (run step right rightEvents) := by
  induction leftEvents generalizing left right rightEvents with
  | nil =>
      have noneOwned : ∀ event ∈ rightEvents, owned event = false := by
        have empty : rightEvents.filter owned = [] := by simpa using agree.symm
        simpa [List.filter_eq_nil_iff] using empty
      rw [run_nil, same, view_run_of_no_owned step view owned invariant admitted preserved foreign
        right rightEvents rightInitial rightSteps noneOwned]
  | cons event rest leftHypothesis =>
      rw [everyStep_cons] at leftSteps
      cases mine : owned event with
      | false =>
          rw [run_cons]
          apply leftHypothesis (step left event) right rightEvents
            (preserved left event leftInitial leftSteps.1) rightInitial leftSteps.2 rightSteps
          · rw [foreign left event leftInitial leftSteps.1 mine, same]
          · simpa [List.filter_cons, mine] using agree
      | true =>
          -- the right run reaches the same owned event after foreign ones
          induction rightEvents generalizing right with
          | nil => simp [mine] at agree
          | cons other others rightHypothesis =>
              rw [everyStep_cons] at rightSteps
              cases theirs : owned other with
              | false =>
                  rw [run_cons step right]
                  apply rightHypothesis (step right other)
                    (preserved right other rightInitial rightSteps.1) rightSteps.2
                  · rw [foreign right other rightInitial rightSteps.1 theirs, same]
                  · simpa [List.filter_cons, mine, theirs] using agree
              | true =>
                  simp only [List.filter_cons, mine, theirs, if_true, List.map_cons,
                    List.cons.injEq] at agree
                  rw [run_cons, run_cons]
                  exact leftHypothesis (step left event) (step right other) others
                    (preserved left event leftInitial leftSteps.1)
                    (preserved right other rightInitial rightSteps.1) leftSteps.2 rightSteps.2
                    (local_ left right event other leftInitial rightInitial leftSteps.1
                      rightSteps.1 mine theirs agree.1 same) agree.2

end Unwinding

end SystemPilot.Library.Machine
