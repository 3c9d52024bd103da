import Mathlib.Tactic
import SystemPilot.Library.Machine

/-!
# Runs explained by a specification

A specification says of each event which states may follow which.  A relation that is
indexed by the events still to come, and that every step hands on to the rest of them,
explains a whole run.
-/

set_option autoImplicit false

namespace SystemPilot.Library.Simulation

variable {Concrete Abstract Event : Type}

/-- The specification leads from a state to another along these events. -/
def Explains (specification : Abstract → Event → Abstract → Prop) :
    Abstract → List Event → Abstract → Prop
  | first, [], last => first = last
  | first, event :: rest, last =>
      ∃ next, specification first event next ∧ Explains specification next rest last

variable {specification : Abstract → Event → Abstract → Prop}

/-- A relation handed on by every step explains the run. -/
theorem run_explained {step : Concrete → Event → Concrete}
    {related : List Event → Concrete → Abstract → Prop}
    (handed : ∀ event rest concrete abstract, related (event :: rest) concrete abstract →
      ∃ next, specification abstract event next ∧ related rest (step concrete event) next)
    (events : List Event) (concrete : Concrete) (abstract : Abstract)
    (start : related events concrete abstract) :
    ∃ last, Explains specification abstract events last ∧
      related [] (Machine.run step concrete events) last := by
  induction events generalizing concrete abstract with
  | nil => exact ⟨abstract, rfl, start⟩
  | cons event rest inductionHypothesis =>
      obtain ⟨next, stepped, related⟩ := handed event rest concrete abstract start
      obtain ⟨last, explained, finished⟩ := inductionHypothesis (step concrete event) next related
      exact ⟨last, ⟨next, stepped, explained⟩, finished⟩

end SystemPilot.Library.Simulation
