import SystemPilot.Library.Machine
import SystemPilot.Collector.Decoding

/-!
# Priority ingress

The two bounded queues between the kernel reader and the correlator, under any
interleaving of calls.  Critical records are counted, ordered and dropped as if
the auxiliary queue did not exist.
-/

set_option autoImplicit false

namespace SystemPilot.Collector

open SystemPilot.Library

/-! ## Rings -/

/-- A `CAPACITY` that `SpscRing::new` does not assert against. -/
structure RingCapacity where
  value : Nat
  powerOfTwo : ∃ exponent, value = 2 ^ exponent
  least : 2 ≤ value

/-- `ArrayQueue` with room for `CAPACITY - 1` elements, first in, first out. -/
structure SpscRing (α : Type) (capacity : RingCapacity) where
  items : List α
  bounded : items.length ≤ capacity.value - 1

namespace SpscRing

variable {α : Type} {capacity : RingCapacity}

def new : SpscRing α capacity :=
  ⟨[], Nat.zero_le _⟩

/-- The ring with the value, or nothing when it is full. -/
def tryPush (ring : SpscRing α capacity) (value : α) : Option (SpscRing α capacity) :=
  if room : ring.items.length < capacity.value - 1 then
    some ⟨ring.items ++ [value], by rw [List.length_append, List.length_singleton]; omega⟩
  else none

def tryPop (ring : SpscRing α capacity) : Option (α × SpscRing α capacity) :=
  match contents : ring.items with
  | [] => none
  | value :: rest =>
      some (value, ⟨rest, by have := ring.bounded; rw [contents, List.length_cons] at this; omega⟩)

theorem tryPush_some {ring : SpscRing α capacity} {value : α} {next : SpscRing α capacity}
    (pushed : ring.tryPush value = some next) :
    ring.items.length < capacity.value - 1 ∧ next.items = ring.items ++ [value] := by
  unfold tryPush at pushed
  split at pushed
  · rename_i room
    injection pushed with same
    exact ⟨room, by rw [← same]⟩
  · contradiction

theorem tryPush_none {ring : SpscRing α capacity} {value : α} (full : ring.tryPush value = none) :
    ring.items.length = capacity.value - 1 := by
  have bounded := ring.bounded
  unfold tryPush at full
  split at full
  · contradiction
  · omega

theorem tryPop_some {ring : SpscRing α capacity} {value : α} {next : SpscRing α capacity}
    (popped : ring.tryPop = some (value, next)) : ring.items = value :: next.items := by
  unfold tryPop at popped
  split at popped
  · contradiction
  · rename_i first rest contents
    injection popped with same
    injection same with same later
    rw [contents, same, ← later]

theorem tryPop_none {ring : SpscRing α capacity} (empty : ring.tryPop = none) :
    ring.items = [] := by
  unfold tryPop at empty
  split at empty
  · assumption
  · contradiction

end SpscRing

/-! ## The ingress -/

inductive EventPriority where
  | critical
  | high
  | normal
  | debug
  deriving DecidableEq, Repr

/-- The two queues. -/
inductive Queue where
  | critical
  | auxiliary
  deriving DecidableEq, Repr

/-- The queue of a priority, as `push` matches on it. -/
def EventPriority.queue : EventPriority → Queue
  | critical => .critical
  | high => .critical
  | normal => .auxiliary
  | debug => .auxiliary

/-- The counters; `fetch_add` wraps. -/
structure CollectorMetrics where
  received : UInt64
  malformed : UInt64
  criticalDropped : UInt64
  auxiliaryDropped : UInt64
  deriving DecidableEq, Repr

structure PriorityIngress (criticalCapacity auxiliaryCapacity : RingCapacity) where
  critical : SpscRing RawEvent criticalCapacity
  auxiliary : SpscRing RawEvent auxiliaryCapacity
  counters : CollectorMetrics

section Ingress

variable {criticalCapacity auxiliaryCapacity : RingCapacity}

namespace PriorityIngress

def new : PriorityIngress criticalCapacity auxiliaryCapacity :=
  ⟨.new, .new, ⟨0, 0, 0, 0⟩⟩

variable (ingress : PriorityIngress criticalCapacity auxiliaryCapacity)

def push (event : RawEvent) (priority : EventPriority) :
    PriorityIngress criticalCapacity auxiliaryCapacity × Bool :=
  let counters := { ingress.counters with received := ingress.counters.received + 1 }
  match priority.queue with
  | .critical =>
      match ingress.critical.tryPush event with
      | some ring => ({ ingress with critical := ring, counters := counters }, true)
      | none =>
          ({ ingress with
              counters := { counters with criticalDropped := counters.criticalDropped + 1 } },
            false)
  | .auxiliary =>
      match ingress.auxiliary.tryPush event with
      | some ring => ({ ingress with auxiliary := ring, counters := counters }, true)
      | none =>
          ({ ingress with
              counters := { counters with auxiliaryDropped := counters.auxiliaryDropped + 1 } },
            false)

def ingestBytes (bytes : List UInt8) (priority : EventPriority) :
    PriorityIngress criticalCapacity auxiliaryCapacity × Bool :=
  match RawEvent.decode bytes with
  | none =>
      ({ ingress with
          counters := { ingress.counters with malformed := ingress.counters.malformed + 1 } },
        false)
  | some event => ingress.push event priority

/-- Critical records first. -/
def tryPop : PriorityIngress criticalCapacity auxiliaryCapacity × Option RawEvent :=
  match ingress.critical.tryPop with
  | some (event, ring) => ({ ingress with critical := ring }, some event)
  | none =>
      match ingress.auxiliary.tryPop with
      | some (event, ring) => ({ ingress with auxiliary := ring }, some event)
      | none => (ingress, none)

/-- What waits in a queue. -/
def queued : Queue → List RawEvent
  | .critical => ingress.critical.items
  | .auxiliary => ingress.auxiliary.items

def dropped : Queue → UInt64
  | .critical => ingress.counters.criticalDropped
  | .auxiliary => ingress.counters.auxiliaryDropped

end PriorityIngress

/-- The room of a queue. -/
def room (criticalCapacity auxiliaryCapacity : RingCapacity) : Queue → Nat
  | .critical => criticalCapacity.value - 1
  | .auxiliary => auxiliaryCapacity.value - 1

/-! ## Calls -/

inductive Call where
  | ingestBytes (bytes : List UInt8) (priority : EventPriority)
  | push (event : RawEvent) (priority : EventPriority)
  | tryPop
  deriving DecidableEq

/-- The record a producer hands over, with its priority. -/
def Call.offered : Call → Option (RawEvent × EventPriority)
  | ingestBytes bytes priority => (RawEvent.decode bytes).map fun event => (event, priority)
  | push event priority => some (event, priority)
  | tryPop => none

/-- Bytes that are no record. -/
def Call.undecodable : Call → Bool
  | ingestBytes bytes _ => (RawEvent.decode bytes).isNone
  | _ => false

/-- A producer's call for the auxiliary queue. -/
def Call.isAuxiliary : Call → Bool
  | ingestBytes _ priority => priority.queue = .auxiliary
  | push _ priority => priority.queue = .auxiliary
  | tryPop => false

/-- What a call came to, as its caller and the queues show it. -/
inductive Outcome where
  | malformed
  | accepted (queue : Queue) (event : RawEvent)
  | rejected (queue : Queue) (event : RawEvent)
  | popped (queue : Queue) (event : RawEvent)
  | empty
  deriving DecidableEq

/-- The outcome of a producer's call, which returned whether the record was taken. -/
def Call.produced (call : Call) (taken : Bool) : Outcome :=
  match call.offered with
  | none => .malformed
  | some (event, priority) =>
      if taken then .accepted priority.queue event else .rejected priority.queue event

namespace PriorityIngress

variable (ingress : PriorityIngress criticalCapacity auxiliaryCapacity)

/-- The outcome of `try_pop`; the record is from the queue that it changed. -/
def poppedOutcome (next : PriorityIngress criticalCapacity auxiliaryCapacity) :
    Option RawEvent → Outcome
  | none => .empty
  | some event =>
      .popped (if next.auxiliary.items = ingress.auxiliary.items then .critical else .auxiliary)
        event

def call : Call → PriorityIngress criticalCapacity auxiliaryCapacity × Outcome
  | .ingestBytes bytes priority =>
      let (next, taken) := ingress.ingestBytes bytes priority
      (next, (Call.ingestBytes bytes priority).produced taken)
  | .push event priority =>
      let (next, taken) := ingress.push event priority
      (next, (Call.push event priority).produced taken)
  | .tryPop =>
      let (next, event) := ingress.tryPop
      (next, ingress.poppedOutcome next event)

end PriorityIngress

/-- What an outcome adds to the counters. -/
def CollectorMetrics.bump (counters : CollectorMetrics) : Outcome → CollectorMetrics
  | .malformed => { counters with malformed := counters.malformed + 1 }
  | .accepted _ _ => { counters with received := counters.received + 1 }
  | .rejected .critical _ =>
      { counters with
        received := counters.received + 1, criticalDropped := counters.criticalDropped + 1 }
  | .rejected .auxiliary _ =>
      { counters with
        received := counters.received + 1, auxiliaryDropped := counters.auxiliaryDropped + 1 }
  | .popped _ _ => counters
  | .empty => counters

/-- What a call does to the queues. -/
def Moves (before after : PriorityIngress criticalCapacity auxiliaryCapacity) : Outcome → Prop
  | .malformed => after.queued = before.queued
  | .accepted queue event =>
      (before.queued queue).length < room criticalCapacity auxiliaryCapacity queue ∧
        after.queued = Function.update before.queued queue (before.queued queue ++ [event])
  | .rejected queue _ =>
      (before.queued queue).length = room criticalCapacity auxiliaryCapacity queue ∧
        after.queued = before.queued
  | .popped queue event =>
      before.queued = Function.update after.queued queue (event :: after.queued queue) ∧
        (queue = .auxiliary → before.queued .critical = [])
  | .empty => after.queued = before.queued ∧ ∀ queue, before.queued queue = []

section Calls

variable (ingress : PriorityIngress criticalCapacity auxiliaryCapacity)

/-- The outcome of `push`, with what it moves and counts. -/
theorem push_spec (event : RawEvent) (priority : EventPriority) :
    let (next, taken) := ingress.push event priority
    let outcome := (Call.push event priority).produced taken
    Moves ingress next outcome ∧ next.counters = ingress.counters.bump outcome := by
  unfold PriorityIngress.push Call.produced Call.offered
  dsimp only
  cases queue : priority.queue with
  | critical =>
      cases pushed : ingress.critical.tryPush event with
      | some ring =>
          obtain ⟨space, items⟩ := SpscRing.tryPush_some pushed
          refine ⟨⟨space, ?_⟩, rfl⟩
          funext other
          cases other with
          | critical => exact items
          | auxiliary => rfl
      | none => exact ⟨⟨SpscRing.tryPush_none pushed, rfl⟩, rfl⟩
  | auxiliary =>
      cases pushed : ingress.auxiliary.tryPush event with
      | some ring =>
          obtain ⟨space, items⟩ := SpscRing.tryPush_some pushed
          refine ⟨⟨space, ?_⟩, rfl⟩
          funext other
          cases other with
          | critical => rfl
          | auxiliary => exact items
      | none => exact ⟨⟨SpscRing.tryPush_none pushed, rfl⟩, rfl⟩

theorem ingestBytes_spec (bytes : List UInt8) (priority : EventPriority) :
    let (next, taken) := ingress.ingestBytes bytes priority
    let outcome := (Call.ingestBytes bytes priority).produced taken
    Moves ingress next outcome ∧ next.counters = ingress.counters.bump outcome := by
  cases decoded : RawEvent.decode bytes with
  | none =>
      have offered : (Call.ingestBytes bytes priority).offered = none := by
        change (RawEvent.decode bytes).map _ = none
        rw [decoded]
        rfl
      unfold PriorityIngress.ingestBytes Call.produced
      rw [offered, decoded]
      exact ⟨rfl, rfl⟩
  | some event =>
      have offered : (Call.ingestBytes bytes priority).offered =
          (Call.push event priority).offered := by
        change (RawEvent.decode bytes).map _ = some (event, priority)
        rw [decoded]
        rfl
      unfold PriorityIngress.ingestBytes Call.produced
      rw [offered, decoded]
      exact push_spec ingress event priority

theorem tryPop_spec :
    let (next, event) := ingress.tryPop
    let outcome := ingress.poppedOutcome next event
    Moves ingress next outcome ∧ next.counters = ingress.counters.bump outcome := by
  unfold PriorityIngress.tryPop
  cases popped : ingress.critical.tryPop with
  | some pair =>
      obtain ⟨event, ring⟩ := pair
      have items := SpscRing.tryPop_some popped
      dsimp only [PriorityIngress.poppedOutcome]
      rw [if_pos rfl]
      refine ⟨⟨?_, fun impossible => absurd impossible (by decide)⟩, rfl⟩
      funext other
      cases other with
      | critical => exact items
      | auxiliary => rfl
  | none =>
      have none := SpscRing.tryPop_none popped
      cases auxiliary : ingress.auxiliary.tryPop with
      | some pair =>
          obtain ⟨event, ring⟩ := pair
          have items := SpscRing.tryPop_some auxiliary
          have changed : ring.items ≠ ingress.auxiliary.items := by
            intro same
            rw [items] at same
            exact absurd same (List.cons_ne_self event ring.items).symm
          dsimp only [PriorityIngress.poppedOutcome]
          rw [if_neg changed]
          refine ⟨⟨?_, fun _ => none⟩, rfl⟩
          funext other
          cases other with
          | critical => rfl
          | auxiliary => exact items
      | none =>
          refine ⟨⟨rfl, ?_⟩, rfl⟩
          intro queue
          cases queue with
          | critical => exact none
          | auxiliary => exact SpscRing.tryPop_none auxiliary

/-- The step lemma: what a call moves and counts is told by its outcome. -/
theorem call_spec (call : Call) :
    Moves ingress (ingress.call call).1 (ingress.call call).2 ∧
      (ingress.call call).1.counters = ingress.counters.bump (ingress.call call).2 := by
  cases call with
  | ingestBytes bytes priority => exact ingestBytes_spec ingress bytes priority
  | push event priority => exact push_spec ingress event priority
  | tryPop => exact tryPop_spec ingress

end Calls

/-! ## Sessions -/

/-- The ingress, and every call so far with its outcome. -/
structure Session (criticalCapacity auxiliaryCapacity : RingCapacity) where
  ingress : PriorityIngress criticalCapacity auxiliaryCapacity
  log : List (Call × Outcome)

namespace Session

def new : Session criticalCapacity auxiliaryCapacity :=
  ⟨.new, []⟩

def step (session : Session criticalCapacity auxiliaryCapacity) (call : Call) :
    Session criticalCapacity auxiliaryCapacity :=
  let (next, outcome) := session.ingress.call call
  ⟨next, session.log ++ [(call, outcome)]⟩

/-- The session after an interleaving of calls. -/
def after (calls : List Call) : Session criticalCapacity auxiliaryCapacity :=
  Machine.run step new calls

end Session

end Ingress

end SystemPilot.Collector
