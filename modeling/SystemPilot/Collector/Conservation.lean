import SystemPilot.Collector.Ingress

/-!
# What the ingress counts, and for whom

Every record offered is popped, queued or counted as dropped, in every
interleaving of calls.  The critical queue seen alone is a machine that neither
the auxiliary pushes nor the pops of auxiliary records touch.
-/

set_option autoImplicit false

namespace SystemPilot.Collector

open SystemPilot.Library

/-! ## The history of a session -/

def acceptedFor (queue : Queue) : Call × Outcome → Option RawEvent
  | (_, .accepted taken event) => if taken = queue then some event else none
  | _ => none

def rejectedFor (queue : Queue) : Call × Outcome → Option RawEvent
  | (_, .rejected full event) => if full = queue then some event else none
  | _ => none

def poppedFrom (queue : Queue) : Call × Outcome → Option RawEvent
  | (_, .popped source event) => if source = queue then some event else none
  | _ => none

/-- The call hands a valid record over. -/
def Call.isOffer (call : Call) : Bool :=
  call.offered.isSome

section Session

variable {criticalCapacity auxiliaryCapacity : RingCapacity}

namespace Session

variable (session : Session criticalCapacity auxiliaryCapacity)

def calls : List Call :=
  session.log.map Prod.fst

/-- The records a queue took, in the order of their arrival. -/
def accepted (queue : Queue) : List RawEvent :=
  session.log.filterMap (acceptedFor queue)

def rejected (queue : Queue) : List RawEvent :=
  session.log.filterMap (rejectedFor queue)

/-- The records that left a queue, in order. -/
def popped (queue : Queue) : List RawEvent :=
  session.log.filterMap (poppedFrom queue)

end Session

/-- The records of a session are accounted for, the counters modulo their width. -/
structure Balanced (session : Session criticalCapacity auxiliaryCapacity) : Prop where
  order : ∀ queue, session.accepted queue =
    session.popped queue ++ session.ingress.queued queue
  offers : session.calls.countP Call.isOffer =
    (session.accepted .critical).length + (session.accepted .auxiliary).length +
      (session.rejected .critical).length + (session.rejected .auxiliary).length
  received : session.ingress.counters.received =
    UInt64.ofNat (session.calls.countP Call.isOffer)
  malformed : session.ingress.counters.malformed =
    UInt64.ofNat (session.calls.countP Call.undecodable)
  dropped : ∀ queue, session.ingress.dropped queue =
    UInt64.ofNat (session.rejected queue).length

/-! ## One call -/

/-- The call hands the record to the queue. -/
def Call.Offers (call : Call) (queue : Queue) (event : RawEvent) : Prop :=
  ∃ priority, call.offered = some (event, priority) ∧ priority.queue = queue

/-- The calls an outcome can be of. -/
def Call.Yields (call : Call) : Outcome → Prop
  | .malformed => call.offered = none ∧ call ≠ .tryPop
  | .accepted queue event => call.Offers queue event
  | .rejected queue event => call.Offers queue event
  | .popped _ _ => call = .tryPop
  | .empty => call = .tryPop

theorem undecodable_eq {call : Call} (producer : call ≠ .tryPop) :
    call.undecodable = !call.isOffer := by
  cases call with
  | ingestBytes bytes priority =>
      change (RawEvent.decode bytes).isNone = !((RawEvent.decode bytes).map _).isSome
      rw [Option.isSome_map, Option.not_isSome]
  | push event priority => rfl
  | tryPop => exact absurd rfl producer

theorem isOffer_of_offers {call : Call} {queue : Queue} {event : RawEvent}
    (offers : call.Offers queue event) : call.isOffer = true ∧ call.undecodable = false := by
  obtain ⟨priority, offered, -⟩ := offers
  have isOffer : call.isOffer = true := by
    unfold Call.isOffer
    rw [offered]
    rfl
  refine ⟨isOffer, ?_⟩
  rw [undecodable_eq, isOffer]
  · rfl
  · rintro rfl
    contradiction

theorem isOffer_of_malformed {call : Call} (yields : call.Yields .malformed) :
    call.isOffer = false ∧ call.undecodable = true := by
  obtain ⟨offered, producer⟩ := yields
  have isOffer : call.isOffer = false := by
    unfold Call.isOffer
    rw [offered]
    rfl
  refine ⟨isOffer, ?_⟩
  rw [undecodable_eq producer, isOffer]
  rfl

theorem isAuxiliary_of_offers {call : Call} {queue : Queue} {event : RawEvent}
    (offers : call.Offers queue event) : call.isAuxiliary = decide (queue = .auxiliary) := by
  obtain ⟨priority, offered, own⟩ := offers
  cases call with
  | ingestBytes bytes given =>
      obtain ⟨event, -, same⟩ := Option.map_eq_some_iff.mp offered
      injection same with _ same
      rw [← own, ← same]
      rfl
  | push event given =>
      injection offered with same
      injection same with _ same
      rw [← own, ← same]
      rfl
  | tryPop => contradiction

theorem yields_produced {call : Call} (producer : call ≠ .tryPop) (taken : Bool) :
    call.Yields (call.produced taken) := by
  unfold Call.produced
  cases offered : call.offered with
  | none => exact ⟨offered, producer⟩
  | some pair =>
      obtain ⟨event, priority⟩ := pair
      cases taken with
      | true => exact ⟨priority, offered, rfl⟩
      | false => exact ⟨priority, offered, rfl⟩

theorem yields_call (ingress : PriorityIngress criticalCapacity auxiliaryCapacity) (call : Call) :
    call.Yields (ingress.call call).2 := by
  cases call with
  | ingestBytes bytes priority => exact yields_produced (by simp) _
  | push event priority => exact yields_produced (by simp) _
  | tryPop =>
      change Call.Yields .tryPop (ingress.poppedOutcome _ ingress.tryPop.2)
      cases ingress.tryPop.2 with
      | none => rfl
      | some event => rfl

section Step

variable {session : Session criticalCapacity auxiliaryCapacity} (call : Call)

theorem calls_step : (session.step call).calls = session.calls ++ [call] := by
  unfold Session.calls Session.step
  rw [List.map_append]
  rfl

theorem filterMap_step {α : Type} (kept : Call × Outcome → Option α) :
    (session.step call).log.filterMap kept =
      session.log.filterMap kept ++ (kept (call, (session.ingress.call call).2)).toList := by
  unfold Session.step
  rw [List.filterMap_append, List.filterMap_cons]
  cases kept (call, (session.ingress.call call).2) <;> rfl

theorem countP_step (counted : Call → Bool) :
    (session.step call).calls.countP counted =
      session.calls.countP counted + if counted call then 1 else 0 := by
  rw [calls_step, List.countP_append, List.countP_singleton]

theorem ofNat_add_one_if (count : Nat) (counted : Bool) :
    UInt64.ofNat (count + if counted then 1 else 0) =
      UInt64.ofNat count + if counted then 1 else 0 := by
  rw [UInt64.ofNat_add]
  cases counted <;> rfl

/-- The step lemma for the records: each queue's arrivals are what left it and
what waits in it. -/
theorem order_step (order : ∀ queue, session.accepted queue =
      session.popped queue ++ session.ingress.queued queue) (queue : Queue) :
    (session.step call).accepted queue =
      (session.step call).popped queue ++ (session.step call).ingress.queued queue := by
  obtain ⟨moves, -⟩ := call_spec session.ingress call
  have before := order queue
  unfold Session.accepted Session.popped at *
  rw [filterMap_step, filterMap_step, before]
  change _ = _ ++ (session.ingress.call call).1.queued queue
  cases outcome : (session.ingress.call call).2 with
  | malformed =>
      rw [outcome] at moves
      rw [show (session.ingress.call call).1.queued = _ from moves]
      simp [acceptedFor, poppedFrom]
  | accepted taken event =>
      rw [outcome] at moves
      rw [moves.2]
      by_cases own : taken = queue
      · rw [← own, Function.update_self]
        simp [acceptedFor, poppedFrom]
      · rw [Function.update_of_ne (Ne.symm own)]
        simp [acceptedFor, poppedFrom, own]
  | rejected full event =>
      rw [outcome] at moves
      rw [moves.2]
      simp [acceptedFor, poppedFrom]
  | popped source event =>
      rw [outcome] at moves
      rw [moves.1]
      by_cases own : source = queue
      · rw [← own, Function.update_self]
        simp [acceptedFor, poppedFrom]
      · rw [Function.update_of_ne (Ne.symm own)]
        simp [acceptedFor, poppedFrom, own]
  | empty =>
      rw [outcome] at moves
      rw [moves.1]
      simp [acceptedFor, poppedFrom]

section Counts

variable {call} {outcome : Outcome} (counters : CollectorMetrics)

theorem bump_received (yields : call.Yields outcome) :
    (counters.bump outcome).received =
      counters.received + if call.isOffer then 1 else 0 := by
  cases outcome with
  | malformed =>
      rw [(isOffer_of_malformed yields).1]
      exact (UInt64.add_zero _).symm
  | accepted queue event =>
      rw [(isOffer_of_offers yields).1]
      rfl
  | rejected queue event =>
      rw [(isOffer_of_offers yields).1]
      cases queue <;> rfl
  | popped queue event =>
      rw [show call = .tryPop from yields]
      exact (UInt64.add_zero _).symm
  | empty =>
      rw [show call = .tryPop from yields]
      exact (UInt64.add_zero _).symm

theorem bump_malformed (yields : call.Yields outcome) :
    (counters.bump outcome).malformed =
      counters.malformed + if call.undecodable then 1 else 0 := by
  cases outcome with
  | malformed =>
      rw [(isOffer_of_malformed yields).2]
      rfl
  | accepted queue event =>
      rw [(isOffer_of_offers yields).2]
      exact (UInt64.add_zero _).symm
  | rejected queue event =>
      rw [(isOffer_of_offers yields).2]
      cases queue <;> exact (UInt64.add_zero _).symm
  | popped queue event =>
      rw [show call = .tryPop from yields]
      exact (UInt64.add_zero _).symm
  | empty =>
      rw [show call = .tryPop from yields]
      exact (UInt64.add_zero _).symm

/-- An offer is taken by one queue or dropped by one. -/
theorem isOffer_eq (yields : call.Yields outcome) :
    (if call.isOffer then 1 else 0) =
      (acceptedFor .critical (call, outcome)).toList.length +
        (acceptedFor .auxiliary (call, outcome)).toList.length +
          (rejectedFor .critical (call, outcome)).toList.length +
            (rejectedFor .auxiliary (call, outcome)).toList.length := by
  cases outcome with
  | malformed =>
      rw [(isOffer_of_malformed yields).1]
      rfl
  | accepted queue event =>
      rw [(isOffer_of_offers yields).1]
      cases queue <;> rfl
  | rejected queue event =>
      rw [(isOffer_of_offers yields).1]
      cases queue <;> rfl
  | popped queue event =>
      rw [show call = .tryPop from yields]
      rfl
  | empty =>
      rw [show call = .tryPop from yields]
      rfl

end Counts

theorem dropped_step (queue : Queue) (dropped : session.ingress.dropped queue =
      UInt64.ofNat (session.rejected queue).length) :
    (session.step call).ingress.dropped queue =
      UInt64.ofNat ((session.step call).rejected queue).length := by
  have counters := (call_spec session.ingress call).2
  unfold Session.rejected at *
  rw [filterMap_step, List.length_append, UInt64.ofNat_add, ← dropped]
  change (session.ingress.call call).1.dropped queue = _
  unfold PriorityIngress.dropped
  rw [counters]
  cases (session.ingress.call call).2 with
  | malformed => cases queue <;> exact (UInt64.add_zero _).symm
  | accepted taken event => cases queue <;> exact (UInt64.add_zero _).symm
  | rejected full event =>
      cases full with
      | critical =>
          cases queue with
          | critical => rfl
          | auxiliary => exact (UInt64.add_zero _).symm
      | auxiliary =>
          cases queue with
          | critical => exact (UInt64.add_zero _).symm
          | auxiliary => rfl
  | popped source event => cases queue <;> exact (UInt64.add_zero _).symm
  | empty => cases queue <;> exact (UInt64.add_zero _).symm

/-- The step lemma. -/
theorem balanced_step (balanced : Balanced session) : Balanced (session.step call) := by
  obtain ⟨order, offers, received, malformed, dropped⟩ := balanced
  have counters := (call_spec session.ingress call).2
  have yields := yields_call session.ingress call
  refine ⟨order_step call order, ?_, ?_, ?_, fun queue => dropped_step call queue (dropped queue)⟩
  · have one := isOffer_eq yields
    unfold Session.accepted Session.rejected at *
    rw [filterMap_step, filterMap_step, filterMap_step, filterMap_step, countP_step, offers]
    rw [List.length_append, List.length_append, List.length_append, List.length_append]
    omega
  · rw [countP_step, ofNat_add_one_if, ← received, ← bump_received _ yields, ← counters]
    rfl
  · rw [countP_step, ofNat_add_one_if, ← malformed, ← bump_malformed _ yields, ← counters]
    rfl

end Step

theorem balanced_new :
    Balanced (Session.new : Session criticalCapacity auxiliaryCapacity) where
  order queue := by cases queue <;> rfl
  offers := rfl
  received := rfl
  malformed := rfl
  dropped queue := by cases queue <;> rfl

/-- The run lemma. -/
theorem balanced_after (calls : List Call) :
    Balanced (Session.after calls : Session criticalCapacity auxiliaryCapacity) :=
  Machine.run_invariant_always Session.step Balanced
    (fun _ call balanced => balanced_step call balanced) _ calls balanced_new

theorem calls_run (session : Session criticalCapacity auxiliaryCapacity) (calls : List Call) :
    (Machine.run Session.step session calls).calls = session.calls ++ calls := by
  induction calls generalizing session with
  | nil => exact (List.append_nil _).symm
  | cons call rest inductionHypothesis =>
      rw [Machine.run_cons, inductionHypothesis, calls_step, List.append_assoc]
      rfl

theorem calls_after (calls : List Call) :
    (Session.after calls : Session criticalCapacity auxiliaryCapacity).calls = calls :=
  calls_run Session.new calls

end Session

/-! ## The critical queue alone -/

/-- The critical queue, what left it and how many records it dropped. -/
structure CriticalView where
  items : List RawEvent
  popped : List RawEvent
  dropped : UInt64

/-- The critical queue under one call, as if there were no other queue. -/
def criticalStep (capacity : RingCapacity) (view : CriticalView) (call : Call) : CriticalView :=
  match call.offered with
  | some (event, _) =>
      if view.items.length < capacity.value - 1 then { view with items := view.items ++ [event] }
      else { view with dropped := view.dropped + 1 }
  | none =>
      if call = .tryPop then
        match view.items with
        | [] => view
        | event :: rest => ⟨rest, view.popped ++ [event], view.dropped⟩
      else view

/-- The call returned an auxiliary record. -/
def Outcome.isAuxiliaryPop : Outcome → Bool
  | .popped .auxiliary _ => true
  | _ => false

section View

variable {criticalCapacity auxiliaryCapacity : RingCapacity}

namespace Session

variable (session : Session criticalCapacity auxiliaryCapacity)

def view : CriticalView :=
  ⟨session.ingress.queued .critical, session.popped .critical, session.ingress.dropped .critical⟩

/-- The calls but for the auxiliary pushes. -/
def scheduled : List Call :=
  session.calls.filter fun call => !call.isAuxiliary

/-- The calls but for the auxiliary pushes and the pops of auxiliary records. -/
def visible : List Call :=
  (session.log.filter fun entry => !entry.1.isAuxiliary && !entry.2.isAuxiliaryPop).map Prod.fst

end Session

variable {session : Session criticalCapacity auxiliaryCapacity} (call : Call)

theorem popped_step (queue : Queue) :
    (session.step call).popped queue = session.popped queue ++
      (poppedFrom queue (call, (session.ingress.call call).2)).toList :=
  filterMap_step call (poppedFrom queue)

/-- The view after a call, from what the call did to its parts. -/
theorem view_step_eq {items : List RawEvent} {dropped : UInt64}
    (queued : (session.ingress.call call).1.queued .critical = items)
    (counted : (session.ingress.call call).1.dropped .critical = dropped) :
    (session.step call).view =
      ⟨items, session.popped .critical ++
        (poppedFrom .critical (call, (session.ingress.call call).2)).toList, dropped⟩ := by
  unfold Session.view
  rw [popped_step, ← queued, ← counted]
  rfl

theorem view_step_same
    (queued : (session.ingress.call call).1.queued .critical =
      session.ingress.queued .critical)
    (counted : (session.ingress.call call).1.dropped .critical =
      session.ingress.dropped .critical)
    (none : poppedFrom .critical (call, (session.ingress.call call).2) = none) :
    (session.step call).view = session.view := by
  rw [view_step_eq call queued counted, none, Option.toList_none, List.append_nil]
  rfl

/-- A pop of an auxiliary record does not act on the critical queue. -/
theorem view_step_auxiliaryPop
    (auxiliary : (session.ingress.call call).2.isAuxiliaryPop = true) :
    (session.step call).view = session.view := by
  obtain ⟨moves, counters⟩ := call_spec session.ingress call
  cases outcome : (session.ingress.call call).2 with
  | popped queue event =>
      cases queue with
      | critical =>
          rw [outcome] at auxiliary
          contradiction
      | auxiliary =>
          rw [outcome] at moves counters
          apply view_step_same
          · exact (congrFun moves.1 .critical).symm
          · exact congrArg CollectorMetrics.criticalDropped counters
          · rw [outcome]
            rfl
  | _ =>
      rw [outcome] at auxiliary
      contradiction

/-- A call that is no auxiliary push acts on the critical queue as if there were
no other queue, and an auxiliary push does not act on it. -/
theorem view_step :
    (session.step call).view =
      if call.isAuxiliary then session.view else criticalStep criticalCapacity session.view call := by
  obtain ⟨moves, counters⟩ := call_spec session.ingress call
  have yields := yields_call session.ingress call
  cases outcome : (session.ingress.call call).2 with
  | malformed =>
      rw [outcome] at moves counters yields
      have counted := congrArg CollectorMetrics.criticalDropped counters
      have same : (session.step call).view = session.view :=
        view_step_same call (congrFun moves .critical) counted (by rw [outcome]; rfl)
      rw [same]
      unfold criticalStep
      rw [yields.1]
      dsimp only
      rw [if_neg yields.2, ite_self]
  | accepted queue event =>
      rw [outcome] at moves counters yields
      obtain ⟨space, queued⟩ := moves
      have counted := congrArg CollectorMetrics.criticalDropped counters
      have none : poppedFrom .critical (call, (session.ingress.call call).2) = none := by
        rw [outcome]
        rfl
      rw [isAuxiliary_of_offers yields]
      cases queue with
      | critical =>
          obtain ⟨priority, offered, -⟩ := yields
          have items := congrFun queued .critical
          have room : session.view.items.length < criticalCapacity.value - 1 := space
          rw [Function.update_self] at items
          rw [view_step_eq call items counted, none, Option.toList_none, List.append_nil,
            if_neg (by decide)]
          unfold criticalStep
          rw [offered]
          dsimp only
          rw [if_pos room]
          rfl
      | auxiliary =>
          rw [if_pos (by decide)]
          exact view_step_same call (congrFun queued .critical) counted none
  | rejected queue event =>
      rw [outcome] at moves counters yields
      obtain ⟨full, queued⟩ := moves
      have counted := congrArg CollectorMetrics.criticalDropped counters
      have none : poppedFrom .critical (call, (session.ingress.call call).2) = none := by
        rw [outcome]
        rfl
      rw [isAuxiliary_of_offers yields]
      cases queue with
      | critical =>
          obtain ⟨priority, offered, -⟩ := yields
          have noRoom : ¬session.view.items.length < criticalCapacity.value - 1 := by
            change ¬(session.ingress.queued .critical).length < _
            rw [full]
            exact lt_irrefl _
          rw [view_step_eq call (congrFun queued .critical) counted, none, Option.toList_none,
            List.append_nil, if_neg (by decide)]
          unfold criticalStep
          rw [offered]
          dsimp only
          rw [if_neg noRoom]
          rfl
      | auxiliary =>
          rw [if_pos (by decide)]
          exact view_step_same call (congrFun queued .critical) counted none
  | popped queue event =>
      rw [outcome] at moves counters yields
      obtain ⟨queued, empty⟩ := moves
      have counted := congrArg CollectorMetrics.criticalDropped counters
      have pop : call = .tryPop := yields
      have items := congrFun queued .critical
      have before : session.view.items = session.ingress.queued .critical := rfl
      rw [if_neg (by rw [pop]; decide)]
      unfold criticalStep
      rw [show call.offered = none by rw [pop]; rfl]
      dsimp only
      rw [if_pos pop]
      cases queue with
      | critical =>
          rw [Function.update_self] at items
          rw [view_step_eq call rfl counted, outcome, before, items]
          rfl
      | auxiliary =>
          rw [view_step_auxiliaryPop call (by rw [outcome]; rfl), before, empty rfl]
  | empty =>
      rw [outcome] at moves counters yields
      have counted := congrArg CollectorMetrics.criticalDropped counters
      have pop : call = .tryPop := yields
      have before : session.view.items = session.ingress.queued .critical := rfl
      rw [if_neg (by rw [pop]; decide), view_step_same call (congrFun moves.1 .critical) counted
        (by rw [outcome]; rfl)]
      unfold criticalStep
      rw [show call.offered = none by rw [pop]; rfl]
      dsimp only
      rw [if_pos pop, before, moves.2 .critical]

/-! ## Two runs -/

/-- The critical queue after a list of calls, as if there were no other queue. -/
def criticalAfter (capacity : RingCapacity) (calls : List Call) : CriticalView :=
  Machine.run (criticalStep capacity) ⟨[], [], 0⟩ calls

/-- What is seen of the critical queue follows from the calls that are no auxiliary
pushes, with or without the pops of auxiliary records. -/
structure Isolated (session : Session criticalCapacity auxiliaryCapacity) : Prop where
  scheduled : session.view = criticalAfter criticalCapacity session.scheduled
  visible : session.view = criticalAfter criticalCapacity session.visible

theorem scheduled_step :
    (session.step call).scheduled =
      session.scheduled ++ if call.isAuxiliary then [] else [call] := by
  unfold Session.scheduled
  rw [calls_step, List.filter_append, List.filter_singleton]
  cases call.isAuxiliary <;> rfl

theorem visible_step :
    (session.step call).visible =
      session.visible ++
        if call.isAuxiliary || (session.ingress.call call).2.isAuxiliaryPop then []
        else [call] := by
  unfold Session.visible Session.step
  dsimp only
  rw [List.filter_append, List.filter_singleton, List.map_append]
  cases call.isAuxiliary <;> cases (session.ingress.call call).2.isAuxiliaryPop <;> rfl

theorem criticalAfter_append (capacity : RingCapacity) (calls : List Call) :
    criticalAfter capacity (calls ++ [call]) =
      criticalStep capacity (criticalAfter capacity calls) call := by
  unfold criticalAfter
  rw [Machine.run_append]
  rfl

/-- The step lemma for the two runs. -/
theorem isolated_step (isolated : Isolated session) : Isolated (session.step call) := by
  obtain ⟨scheduled, visible⟩ := isolated
  constructor
  · rw [view_step, scheduled_step]
    split
    · rw [List.append_nil, scheduled]
    · rw [criticalAfter_append, ← scheduled]
  · rw [visible_step]
    cases own : call.isAuxiliary with
    | true =>
        rw [view_step, own, if_pos rfl, Bool.true_or, if_pos rfl, List.append_nil, visible]
    | false =>
        rw [Bool.false_or]
        split
        · rename_i auxiliaryPop
          rw [view_step_auxiliaryPop call auxiliaryPop, List.append_nil, visible]
        · rw [view_step, own, if_neg Bool.false_ne_true, criticalAfter_append, ← visible]

theorem isolated_after (calls : List Call) :
    Isolated (Session.after calls : Session criticalCapacity auxiliaryCapacity) :=
  Machine.run_invariant_always Session.step Isolated
    (fun _ call isolated => isolated_step call isolated) _ calls ⟨rfl, rfl⟩

end View

/-! ## The ingress -/

section Ingress

variable (criticalCapacity auxiliaryCapacity : RingCapacity)

/-- Every offered record is accounted for; counters wrap, the records do not. -/
structure Conserved (calls : List Call) (session : Session criticalCapacity auxiliaryCapacity) :
    Prop where
  records : calls.countP Call.isOffer =
    (session.popped .critical).length + (session.popped .auxiliary).length +
      (session.ingress.queued .critical).length + (session.ingress.queued .auxiliary).length +
        (session.rejected .critical).length + (session.rejected .auxiliary).length
  counters : session.ingress.counters.received =
    UInt64.ofNat ((session.popped .critical).length + (session.popped .auxiliary).length) +
      UInt64.ofNat ((session.ingress.queued .critical).length +
        (session.ingress.queued .auxiliary).length) +
          session.ingress.counters.criticalDropped + session.ingress.counters.auxiliaryDropped
  received : session.ingress.counters.received = UInt64.ofNat (calls.countP Call.isOffer)
  malformed : session.ingress.counters.malformed = UInt64.ofNat (calls.countP Call.undecodable)
  dropped : ∀ queue, session.ingress.dropped queue =
    UInt64.ofNat (session.rejected queue).length
  order : ∀ queue, session.accepted queue =
    session.popped queue ++ session.ingress.queued queue

/-- The critical records popped, their order and the count of dropped ones. -/
def SameCritical (left right : Session criticalCapacity auxiliaryCapacity) : Prop :=
  left.popped .critical = right.popped .critical ∧
    left.ingress.counters.criticalDropped = right.ingress.counters.criticalDropped

variable {criticalCapacity auxiliaryCapacity}

theorem conserved_after (calls : List Call) :
    Conserved criticalCapacity auxiliaryCapacity calls (Session.after calls) := by
  obtain ⟨order, offers, received, malformed, dropped⟩ :=
    @balanced_after criticalCapacity auxiliaryCapacity calls
  have critical := congrArg List.length (order .critical)
  have auxiliary := congrArg List.length (order .auxiliary)
  rw [List.length_append] at critical auxiliary
  rw [calls_after] at offers received malformed
  refine ⟨by omega, ?_, received, malformed, dropped, order⟩
  have criticalDropped := dropped .critical
  have auxiliaryDropped := dropped .auxiliary
  change _ = _ + _ + PriorityIngress.dropped _ .critical + PriorityIngress.dropped _ .auxiliary
  rw [received, criticalDropped, auxiliaryDropped, ← UInt64.ofNat_add, ← UInt64.ofNat_add,
    ← UInt64.ofNat_add]
  congr 1
  omega

theorem sameCritical_of_view {left right : Session criticalCapacity auxiliaryCapacity}
    (same : left.view = right.view) : SameCritical criticalCapacity auxiliaryCapacity left right :=
  ⟨congrArg CriticalView.popped same, congrArg CriticalView.dropped same⟩

/-- For every interleaving of calls: every offered record is popped, queued or
counted as dropped; `try_pop` takes an auxiliary record only from an ingress
without critical ones; a record is dropped only by its own full queue; and runs
that differ only in auxiliary pushes and in pops of auxiliary records, or only in
auxiliary pushes, pop the same critical records in the same order and drop as
many. -/
theorem ingress_conserves_and_isolates (calls : List Call) :
    Conserved criticalCapacity auxiliaryCapacity calls (Session.after calls) ∧
      (∀ before : Session criticalCapacity auxiliaryCapacity,
        before.ingress.tryPop.1.auxiliary.items ≠ before.ingress.auxiliary.items →
          before.ingress.critical.items = []) ∧
      (∀ (before : Session criticalCapacity auxiliaryCapacity) (call : Call) (queue : Queue)
        (event : RawEvent), (before.ingress.call call).2 = .rejected queue event →
          (before.ingress.queued queue).length = room criticalCapacity auxiliaryCapacity queue) ∧
      ∀ others : List Call,
        let left : Session criticalCapacity auxiliaryCapacity := Session.after calls
        let right : Session criticalCapacity auxiliaryCapacity := Session.after others
        (left.visible = right.visible ∨ left.scheduled = right.scheduled) →
          SameCritical criticalCapacity auxiliaryCapacity left right := by
  refine ⟨conserved_after calls, ?_, ?_, ?_⟩
  · intro before changed
    unfold PriorityIngress.tryPop at changed
    cases popped : before.ingress.critical.tryPop with
    | some pair =>
        rw [popped] at changed
        exact absurd rfl changed
    | none => exact SpscRing.tryPop_none popped
  · intro before call queue event rejected
    have moves := (call_spec before.ingress call).1
    rw [rejected] at moves
    exact moves.1
  · intro others left right same
    have first : Isolated left := isolated_after calls
    have second : Isolated right := isolated_after others
    apply sameCritical_of_view
    rcases same with visible | scheduled
    · rw [first.visible, second.visible, visible]
    · rw [first.scheduled, second.scheduled, scheduled]

end Ingress

end SystemPilot.Collector
