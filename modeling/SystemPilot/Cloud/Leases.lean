import Mathlib.Tactic
import SystemPilot.Library.Machine
import SystemPilot.Cloud.Queues

/-!
# Workers and their leases

Any number of workers on one queue.  A worker leases a row, processes it and
settles it, or crashes; the clock ticks in between.  The functions that settle a
row know the row only, not the lease, so a worker that comes back after its row
was leased again settles what another worker is processing.
-/

set_option autoImplicit false

namespace SystemPilot.Cloud

open SystemPilot.Library

/-- A lease that was granted. -/
structure Grant where
  worker : Nat
  tenantId : Uuid
  id : Nat
  deriving DecidableEq, Repr

def Grant.isOf (tenantId : Uuid) (id : Nat) (grant : Grant) : Bool :=
  grant.tenantId == tenantId && grant.id == id

/-- A queue with its workers: the clock, every lease granted so far, the latest
first, and the lease a worker believes it holds. -/
structure Workers (Subject : Type) where
  rows : List (QueueRow Subject)
  clock : Nat := 0
  grants : List Grant := []
  held : Nat → Option Grant := fun _ => none

inductive WorkerEvent (Subject : Type) where
  | tick (elapsed : Nat)
  | enqueue (row : QueueRow Subject)
  | lease (worker : Nat)
  | complete (worker : Nat)
  | fail (worker : Nat) (failureCode : String)
  | crash (worker : Nat)

section Step

variable {Subject : Type}

/-- The row an insertion proposes with the defaults of its columns. -/
def QueueRow.isNew (row : QueueRow Subject) : Bool :=
  row.status == .pending && row.attemptCount == 0 && row.leasedUntil.isNone

/-- An insertion; the primary key of a row is not taken. -/
def Workers.enqueue (state : Workers Subject) (row : QueueRow Subject) : Workers Subject :=
  if row.isNew && !state.rows.any (QueueRow.isRow row.tenantId row.id) then
    { state with rows := state.rows ++ [row] }
  else state

/-- A worker that has nothing to process asks for a row.  The foreign keys keep
the message or the alert of a row in place, so what is leased is returned. -/
def Workers.lease (state : Workers Subject) (worker : Nat) : Workers Subject :=
  match state.held worker, Queue.lease state.clock state.rows with
  | none, .ok (rows, some row) =>
      let grant : Grant := ⟨worker, row.tenantId, row.id⟩
      { state with
        rows
        grants := grant :: state.grants
        held := Function.update state.held worker (some grant) }
  | _, _ => state

/-- A worker settles the row it processes and has nothing to process again. -/
def Workers.settle (state : Workers Subject) (worker : Nat)
    (change : QueueRow Subject → QueueRow Subject) : Workers Subject :=
  match state.held worker with
  | some grant => { state with
      rows := (Queue.settle change grant.tenantId grant.id state.rows).1
      held := Function.update state.held worker none }
  | none => state

def workersStep (state : Workers Subject) : WorkerEvent Subject → Workers Subject
  | .tick elapsed => { state with clock := state.clock + elapsed }
  | .enqueue row => state.enqueue row
  | .lease worker => state.lease worker
  | .complete worker => state.settle worker (QueueRow.complete state.clock)
  | .fail worker failureCode => state.settle worker (QueueRow.fail state.clock failureCode)
  | .crash worker => { state with held := Function.update state.held worker none }

/-- The latest lease of a row. -/
def Workers.latest (state : Workers Subject) (tenantId : Uuid) (id : Nat) : Option Grant :=
  state.grants.find? (Grant.isOf tenantId id)

/-- The worker holds the latest lease of the row. -/
def Workers.Entitled (state : Workers Subject) (tenantId : Uuid) (id worker : Nat) : Prop :=
  ∃ grant, state.held worker = some grant ∧ state.latest tenantId id = some grant

/-- The worker calls `complete` or `fail`. -/
def Settles (event : WorkerEvent Subject) (worker : Nat) : Prop :=
  event = .complete worker ∨ ∃ failureCode, event = .fail worker failureCode

/-- A worker settles a row only while its lease is the latest of the row, or
when the row is no longer leased. -/
def Timely (state : Workers Subject) (event : WorkerEvent Subject) : Prop :=
  ∀ worker grant, Settles event worker → state.held worker = some grant →
    state.rows.any (Queue.isLeasedRow grant.tenantId grant.id) = true →
    state.latest grant.tenantId grant.id = some grant

/-- The rows of a primary key. -/
def Workers.rowsOf (state : Workers Subject) (tenantId : Uuid) (id : Nat) :
    List (QueueRow Subject) :=
  state.rows.filter (QueueRow.isRow tenantId id)

/-- A leased row changes only when the worker with the latest lease settles it,
or when it is leased again after its lease expired. -/
def Owned (state : Workers Subject) (event : WorkerEvent Subject) : Prop :=
  ∀ tenantId id, state.rows.any (Queue.isLeasedRow tenantId id) = true →
    (workersStep state event).rowsOf tenantId id ≠ state.rowsOf tenantId id →
    (∃ worker, Settles event worker ∧ state.Entitled tenantId id worker) ∨
      ((∃ worker, event = .lease worker) ∧
        ∃ row ∈ state.rows, row.isRow tenantId id = true ∧ row.expired state.clock = true)

end Step

/-! ## What a step changes -/

section Changes

variable {Subject : Type}

/-- What a worker's call does to a row it settles. -/
inductive Settlement (now : Nat) : (QueueRow Subject → QueueRow Subject) → Prop
  | complete : Settlement now (QueueRow.complete now)
  | fail (failureCode : String) : Settlement now (QueueRow.fail now failureCode)

theorem Settlement.key {now : Nat} {change : QueueRow Subject → QueueRow Subject}
    (settlement : Settlement now change) (row : QueueRow Subject) :
    (change row).key = row.key := by
  cases settlement <;> rfl

theorem Settlement.status {now : Nat} {change : QueueRow Subject → QueueRow Subject}
    (settlement : Settlement now change) (row : QueueRow Subject) :
    (change row).status ≠ .leased := by
  cases settlement with
  | complete => simp [QueueRow.complete]
  | fail failureCode =>
      simp only [QueueRow.fail]
      split <;> simp

/-- The changes of one step. -/
inductive WorkersChange (state : Workers Subject) (event : WorkerEvent Subject) :
    Workers Subject → Prop
  | kept (after : Workers Subject) (rows : after.rows = state.rows)
      (grants : after.grants = state.grants)
      (held : ∀ worker grant, after.held worker = some grant → state.held worker = some grant)
      (asked : ∀ worker grant, Settles event worker → state.held worker ≠ some grant) :
      WorkersChange state event after
  | enqueued (row : QueueRow Subject) (asked : event = .enqueue row) (new : row.isNew = true)
      (free : state.rows.any (QueueRow.isRow row.tenantId row.id) = false) :
      WorkersChange state event { state with rows := state.rows ++ [row] }
  | leased (worker : Nat) (row : QueueRow Subject) (asked : event = .lease worker)
      (idle : state.held worker = none)
      (due : Queue.firstDue (QueueRow.isDue state.clock) state.rows = some row)
      (bound : row.attemptCount + 1 ≤ maxAttemptCount) :
      WorkersChange state event { state with
        rows := Table.update (QueueRow.isRow row.tenantId row.id) (QueueRow.lease state.clock)
          state.rows
        grants := ⟨worker, row.tenantId, row.id⟩ :: state.grants
        held := Function.update state.held worker (some ⟨worker, row.tenantId, row.id⟩) }
  | settled (worker : Nat) (grant : Grant) (change : QueueRow Subject → QueueRow Subject)
      (asked : Settles event worker) (holding : state.held worker = some grant)
      (settlement : Settlement state.clock change) :
      WorkersChange state event { state with
        rows := Table.update (Queue.isLeasedRow grant.tenantId grant.id) change state.rows
        held := Function.update state.held worker none }

theorem settle_change (state : Workers Subject) (event : WorkerEvent Subject) (worker : Nat)
    (change : QueueRow Subject → QueueRow Subject) (asked : Settles event worker)
    (only : ∀ other, Settles event other → other = worker)
    (settlement : Settlement state.clock change) :
    WorkersChange state event (state.settle worker change) := by
  unfold Workers.settle
  cases holding : state.held worker with
  | none =>
      refine .kept state rfl rfl (fun _ _ same => same) ?_
      intro other grant settles
      rw [only other settles, holding]
      simp
  | some grant => exact .settled worker grant change asked holding settlement

theorem workersStep_change (state : Workers Subject) (event : WorkerEvent Subject) :
    WorkersChange state event (workersStep state event) := by
  cases event with
  | tick elapsed =>
      refine .kept _ rfl rfl (fun _ _ same => same) ?_
      rintro worker grant (asked | ⟨_, asked⟩) <;> cases asked
  | enqueue row =>
      simp only [workersStep, Workers.enqueue]
      split
      · rename_i accepted
        simp only [Bool.and_eq_true, Bool.not_eq_true'] at accepted
        exact .enqueued row rfl accepted.1 accepted.2
      · refine .kept _ rfl rfl (fun _ _ same => same) ?_
        rintro worker grant (asked | ⟨_, asked⟩) <;> cases asked
  | lease worker =>
      have kept : WorkersChange state (.lease worker) state := by
        refine .kept _ rfl rfl (fun _ _ same => same) ?_
        rintro other grant (asked | ⟨_, asked⟩) <;> cases asked
      simp only [workersStep, Workers.lease]
      cases idle : state.held worker with
      | some grant => exact kept
      | none =>
          rcases Queue.leaseFirst_cases (QueueRow.isDue state.clock) (QueueRow.lease state.clock)
              state.rows with ⟨_, leased⟩ | ⟨row, due, ⟨_, leased⟩ | ⟨bound, leased⟩⟩
          · rw [Queue.lease, leased]
            exact kept
          · rw [Queue.lease, leased]
            exact kept
          · rw [Queue.lease, leased]
            exact .leased worker row rfl idle due bound
  | complete worker =>
      apply settle_change state _ worker _ (Or.inl rfl) _ .complete
      rintro other (asked | ⟨_, asked⟩)
      · cases asked
        rfl
      · cases asked
  | fail worker failureCode =>
      apply settle_change state _ worker _ (Or.inr ⟨failureCode, rfl⟩) _ (.fail failureCode)
      rintro other (asked | ⟨_, asked⟩)
      · cases asked
      · cases asked
        rfl
  | crash worker =>
      refine .kept _ rfl rfl ?_ ?_
      · intro other grant holding
        simp only [workersStep, Function.update_apply] at holding
        split at holding
        · contradiction
        · exact holding
      · rintro other grant (asked | ⟨_, asked⟩) <;> cases asked

/-- The primary keys are unique and a worker holds a lease of its own. -/
structure WorkersInvariant (state : Workers Subject) : Prop where
  keys : Table.KeysUnique QueueRow.key state.rows
  own : ∀ worker grant, state.held worker = some grant → grant.worker = worker

theorem workersStep_invariant (state : Workers Subject) (event : WorkerEvent Subject)
    (invariant : WorkersInvariant state) : WorkersInvariant (workersStep state event) := by
  have change := workersStep_change state event
  generalize workersStep state event = after at change
  cases change with
  | kept after rows grants held asked =>
      exact ⟨rows ▸ invariant.keys, fun worker grant holding =>
        invariant.own worker grant (held worker grant holding)⟩
  | enqueued row asked new free =>
      refine ⟨invariant.keys.append QueueRow.key ?_, invariant.own⟩
      intro old member same
      rw [List.any_eq_false] at free
      exact free old member (Queue.isRow_iff.mpr (Prod.mk.inj same))
  | leased worker row asked idle due bound =>
      refine ⟨invariant.keys.update QueueRow.key fun _ => rfl, ?_⟩
      intro other grant holding
      simp only [Function.update_apply] at holding
      split at holding
      · cases holding
        symm
        assumption
      · exact invariant.own other grant holding
  | settled worker grant change asked holding settlement =>
      refine ⟨invariant.keys.update QueueRow.key settlement.key, ?_⟩
      intro other held holding
      simp only [Function.update_apply] at holding
      split at holding
      · contradiction
      · exact invariant.own other held holding

theorem run_workersInvariant (start : Workers Subject) (events : List (WorkerEvent Subject))
    (invariant : WorkersInvariant start) :
    WorkersInvariant (Machine.run workersStep start events) :=
  Machine.run_invariant_always workersStep WorkersInvariant workersStep_invariant start events
    invariant

end Changes

/-! ## Ownership -/

section Ownership

variable {Subject : Type}

theorem Settles.unique {event : WorkerEvent Subject} {worker other : Nat}
    (left : Settles event worker) (right : Settles event other) : worker = other := by
  rcases left with rfl | ⟨_, rfl⟩ <;> rcases right with same | ⟨_, same⟩ <;> cases same <;> rfl

theorem not_settles_lease {worker other : Nat} :
    ¬Settles (.lease worker : WorkerEvent Subject) other := by
  rintro (same | ⟨_, same⟩) <;> cases same

theorem not_settles_enqueue {row : QueueRow Subject} {worker : Nat} :
    ¬Settles (.enqueue row) worker := by
  rintro (same | ⟨_, same⟩) <;> cases same

theorem rowsOf_update_of_ne {rows : List (QueueRow Subject)} {tenantId other : Uuid}
    {id otherId : Nat} {selects : QueueRow Subject → Bool}
    {change : QueueRow Subject → QueueRow Subject}
    (selected : ∀ row, selects row = true → row.isRow other otherId = true)
    (keeps : ∀ row, (change row).key = row.key) (distinct : (other, otherId) ≠ (tenantId, id)) :
    (Table.update selects change rows).filter (QueueRow.isRow tenantId id) =
      rows.filter (QueueRow.isRow tenantId id) := by
  have foreign : ∀ row : QueueRow Subject, row.key = (other, otherId) →
      row.isRow tenantId id = false := by
    intro row same
    rw [← Bool.not_eq_true, Queue.isRow_iff]
    rintro ⟨rfl, rfl⟩
    exact distinct same.symm
  apply Table.filter_update_of_foreign
  intro row _ matched
  have key : row.key = (other, otherId) := Prod.ext_iff.mpr (Queue.isRow_iff.mp (selected row matched))
  exact ⟨foreign row key, foreign (change row) ((keeps row).trans key)⟩

theorem Timely.owned {state : Workers Subject} {event : WorkerEvent Subject}
    (invariant : WorkersInvariant state) (timely : Timely state event) : Owned state event := by
  intro tenantId id leasedBefore changed
  obtain ⟨old, member, isLeased⟩ := List.any_eq_true.mp leasedBefore
  obtain ⟨⟨rfl, rfl⟩, status⟩ := Queue.isLeasedRow_iff.mp isLeased
  have change := workersStep_change state event
  generalize workersStep state event = after at change changed
  cases change with
  | kept after rows grants held asked =>
      rw [Workers.rowsOf, rows] at changed
      exact absurd rfl changed
  | enqueued row asked new free =>
      -- the new row has another key than a row that is leased
      have other : row.isRow old.tenantId old.id = false := by
        rw [← Bool.not_eq_true, Queue.isRow_iff]
        rintro ⟨tenant, id⟩
        rw [List.any_eq_false] at free
        exact free old member (Queue.isRow_iff.mpr ⟨tenant.symm, id.symm⟩)
      simp [Workers.rowsOf, List.filter_append, other] at changed
  | leased worker row asked idle due bound =>
      by_cases same : (row.tenantId, row.id) = (old.tenantId, old.id)
      · obtain ⟨rowMember, isDue⟩ := Queue.firstDue_some due
        have itself : row = old := invariant.keys.eq_of_mem QueueRow.key rowMember member same
        subst itself
        refine Or.inr ⟨⟨worker, asked⟩, row, member, Queue.isRow_self row, ?_⟩
        simpa [QueueRow.isDue, QueueRow.awaits, status] using isDue
      · exact absurd (rowsOf_update_of_ne (fun _ selected => selected) (by simp) same) changed
  | settled worker grant change asked holding settlement =>
      by_cases same : (grant.tenantId, grant.id) = (old.tenantId, old.id)
      · obtain ⟨tenant, id⟩ := Prod.mk.inj same
        have latest := timely worker grant asked holding (by rw [tenant, id]; exact leasedBefore)
        rw [tenant, id] at latest
        exact Or.inl ⟨worker, asked, grant, holding, latest⟩
      · refine absurd (rowsOf_update_of_ne ?_ settlement.key same) changed
        intro row selected
        exact (Bool.and_eq_true _ _ ▸ selected).1

theorem Owned.timely {state : Workers Subject} {event : WorkerEvent Subject}
    (owned : Owned state event) : Timely state event := by
  intro worker grant settles holding leasedBefore
  have change := workersStep_change state event
  have only := owned grant.tenantId grant.id leasedBefore
  generalize workersStep state event = after at change only
  cases change with
  | kept after rows grants held asked => exact absurd holding (asked worker grant settles)
  | enqueued row asked new free => exact absurd (asked ▸ settles) not_settles_enqueue
  | leased other row asked idle due bound => exact absurd (asked ▸ settles) not_settles_lease
  | settled other held change asked heldHolding settlement =>
      obtain rfl := settles.unique asked
      obtain rfl : held = grant := Option.some.inj (heldHolding.symm.trans holding)
      obtain ⟨old, member, isLeased⟩ := List.any_eq_true.mp leasedBefore
      have changed : (Table.update (Queue.isLeasedRow held.tenantId held.id) change
          state.rows).filter (QueueRow.isRow held.tenantId held.id) ≠
          state.rows.filter (QueueRow.isRow held.tenantId held.id) := by
        intro same
        -- the leased row would still be there
        have kept : old ∈ (Table.update (Queue.isLeasedRow held.tenantId held.id) change
            state.rows).filter (QueueRow.isRow held.tenantId held.id) := by
          rw [same]
          exact List.mem_filter.mpr ⟨member, (Bool.and_eq_true _ _ ▸ isLeased).1⟩
        rcases Table.mem_update.mp (List.mem_filter.mp kept).1 with
          ⟨_, unselected⟩ | ⟨source, _, _, rfl⟩
        · rw [isLeased] at unselected
          contradiction
        · exact settlement.status source (Queue.isLeasedRow_iff.mp isLeased).2
      rcases only changed with ⟨settler, settles', grant, holding', latest⟩ | ⟨⟨_, asked'⟩, _⟩
      · obtain rfl := settles.unique settles'
        rw [holding] at holding'
        cases holding'
        exact latest
      · exact absurd (asked' ▸ settles) not_settles_lease

/-- Over every interleaving of workers and ticks: leased rows change only by the
worker with the latest lease, or by a new lease after expiry, exactly when no
worker settles a row that another one has leased since; and no two workers ever
hold the latest lease of one row. -/
theorem lease_ownership_iff (start : Workers Subject)
    (keys : Table.KeysUnique QueueRow.key start.rows)
    (idle : ∀ worker, start.held worker = none) (events : List (WorkerEvent Subject)) :
    (Machine.EveryStep workersStep Owned start events ↔
      Machine.EveryStep workersStep Timely start events) ∧
      ∀ tenantId id worker other,
        (Machine.run workersStep start events).Entitled tenantId id worker →
        (Machine.run workersStep start events).Entitled tenantId id other → worker = other := by
  have initial : WorkersInvariant start :=
    ⟨keys, fun worker grant holding => by simp [idle worker] at holding⟩
  refine ⟨⟨?_, ?_⟩, ?_⟩
  · exact fun owned pair member => (owned pair member).timely
  · exact Machine.everyStep_of_invariant workersStep WorkersInvariant Timely Owned
      (fun state event invariant _ => workersStep_invariant state event invariant)
      (fun state event invariant timely => timely.owned invariant) start events initial
  · rintro tenantId id worker other ⟨grant, holding, latest⟩ ⟨grant', holding', latest'⟩
    have invariant := run_workersInvariant start events initial
    rw [latest] at latest'
    cases latest'
    rw [← invariant.own worker grant holding, invariant.own other grant holding']

end Ownership

/-! ## A lease that ran out -/

/-- One pending job and no worker yet. -/
def oneJob : Workers JobSubject where
  rows := [⟨1, 7, ⟨"nodea", "nodea-1"⟩, .pending, 0, 0, none, none, 0, none⟩]

theorem oneJob_keys : Table.KeysUnique QueueRow.key oneJob.rows := by
  simp [Table.KeysUnique, oneJob]

theorem lease_ownership_in_time :
    Machine.EveryStep workersStep Owned oneJob [.lease 1, .tick 5000000, .complete 1] :=
  (lease_ownership_iff oneJob oneJob_keys (fun _ => rfl)
    [.lease 1, .tick 5000000, .complete 1]).1.mpr (by
      rw [Machine.everyStep_cons, Machine.everyStep_cons, Machine.everyStep_cons]
      refine ⟨?_, ?_, ?_, by simp [Machine.EveryStep, Machine.visited]⟩
      · intro worker grant settles
        exact absurd settles not_settles_lease
      · rintro worker grant (same | ⟨_, same⟩) <;> cases same
      · rintro worker grant (same | ⟨_, same⟩) holding leased
        · cases same
          cases holding
          rfl
        · cases same)

/-- The first worker completes what the second one has leased since. -/
theorem stale_worker_completes :
    let reached := Machine.run workersStep oneJob [.lease 1, .tick 30000001, .lease 2]
    reached.latest 1 7 = some ⟨2, 1, 7⟩ ∧
      reached.rows.map QueueRow.status = [.leased] ∧
      (workersStep reached (.complete 1)).rows.map QueueRow.status = [.done] ∧
      ¬Machine.EveryStep workersStep Owned oneJob
        [.lease 1, .tick 30000001, .lease 2, .complete 1] := by
  intro reached
  have latest : reached.latest 1 7 = some ⟨2, 1, 7⟩ := by rfl
  have before : reached.rows.map QueueRow.status = [.leased] := by decide
  have after : (workersStep reached (.complete 1)).rows.map QueueRow.status = [.done] := by decide
  refine ⟨latest, before, after, ?_⟩
  intro owned
  have last : Owned reached (.complete 1) := owned (reached, .complete 1) (by
    rw [Machine.mem_visited_iff]
    exact ⟨[.lease 1, .tick 30000001, .lease 2], [], rfl, rfl⟩)
  have leased : reached.rows.any (Queue.isLeasedRow 1 7) = true := by decide
  have changed : (workersStep reached (.complete 1)).rowsOf 1 7 ≠ reached.rowsOf 1 7 := by decide
  rcases last 1 7 leased changed with
    ⟨worker, settles, grant, holding, current⟩ | ⟨⟨_, asked⟩, _⟩
  · have first : 1 = worker := Settles.unique (Or.inl rfl) settles
    subst first
    rw [latest] at current
    cases current
    exact absurd holding (by decide)
  · cases asked

end SystemPilot.Cloud
