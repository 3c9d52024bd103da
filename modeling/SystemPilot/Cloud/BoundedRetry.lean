import Mathlib.Tactic
import SystemPilot.Cloud.Leases

/-!
# Bounded retry

`lease` counts the attempts and `fail` enforces their limit, so a row whose
lease expires again and again is counted past the limit, up to the `CHECK` bound
where every lease call fails.  As long as no expired lease is taken over at the
limit, each row is leased at most ten times and every lease call that finds a
due row is served.
-/

set_option autoImplicit false

namespace SystemPilot.Cloud

open SystemPilot.Library

section Retry

variable {Subject : Type}

/-- How often a row was leased. -/
def Workers.leaseCount (state : Workers Subject) (tenantId : Uuid) (id : Nat) : Nat :=
  state.grants.countP (Grant.isOf tenantId id)

/-- A lease takes an expired lease over only while the row has attempts left. -/
def AttemptsLeft (state : Workers Subject) (event : WorkerEvent Subject) : Prop :=
  ∀ worker row, event = .lease worker → state.held worker = none →
    Queue.firstDue (QueueRow.isDue state.clock) state.rows = some row →
    row.status = .leased → row.attemptCount < retryLimit

/-- A lease call is answered, it is served when a row is due, and no row exceeds
the limit. -/
structure Bounded (state : Workers Subject) (event : WorkerEvent Subject) : Prop where
  answered : ∀ worker, event = .lease worker → state.held worker = none →
    ∃ result, Queue.lease state.clock state.rows = .ok result
  served : ∀ worker, event = .lease worker → state.held worker = none →
    ∀ row ∈ state.rows, row.isDue state.clock = true →
      ∃ first ∈ state.rows, first.isDue state.clock = true ∧
        first.availableAt ≤ row.availableAt ∧
        (workersStep state event).grants = ⟨worker, first.tenantId, first.id⟩ :: state.grants
  attempts : ∀ row ∈ (workersStep state event).rows, row.attemptCount ≤ retryLimit
  leases : ∀ tenantId id, (workersStep state event).leaseCount tenantId id ≤ retryLimit

/-- The attempts of a row stay within the limit and count its leases. -/
structure RetryInvariant (state : Workers Subject) : Prop where
  workers : WorkersInvariant state
  attempts : ∀ row ∈ state.rows, row.attemptCount ≤ retryLimit
  pending : ∀ row ∈ state.rows, row.status = .pending → row.attemptCount < retryLimit
  counted : ∀ row ∈ state.rows, state.leaseCount row.tenantId row.id ≤ row.attemptCount
  known : ∀ grant ∈ state.grants,
    state.rows.any (QueueRow.isRow grant.tenantId grant.id) = true
  total : state.grants.length ≤ (state.rows.map QueueRow.attemptCount).sum

theorem RetryInvariant.start {state : Workers Subject}
    (workers : WorkersInvariant state) (new : ∀ row ∈ state.rows, row.isNew = true)
    (grants : state.grants = []) : RetryInvariant state := by
  have none : ∀ row ∈ state.rows, row.attemptCount = 0 := by
    intro row member
    have facts := new row member
    simp only [QueueRow.isNew, Bool.and_eq_true, beq_iff_eq] at facts
    exact facts.1.2
  refine ⟨workers, ?_, ?_, ?_, ?_, by simp [grants]⟩
  · intro row member
    simp [none row member]
  · intro row member _
    simp [none row member, retryLimit]
  · intro row member
    simp [Workers.leaseCount, grants]
  · simp [grants]

theorem isOf_iff {grant : Grant} {tenantId : Uuid} {id : Nat} :
    grant.isOf tenantId id = true ↔ grant.tenantId = tenantId ∧ grant.id = id := by
  simp [Grant.isOf]

theorem RetryInvariant.leaseCount_eq_zero {state : Workers Subject}
    (invariant : RetryInvariant state) {tenantId : Uuid} {id : Nat}
    (absent : state.rows.any (QueueRow.isRow tenantId id) = false) :
    state.leaseCount tenantId id = 0 := by
  rw [Workers.leaseCount, List.countP_eq_zero]
  intro grant member same
  have known := invariant.known grant member
  rw [(isOf_iff.mp same).1, (isOf_iff.mp same).2, absent] at known
  contradiction

theorem RetryInvariant.leaseCount_le {state : Workers Subject}
    (invariant : RetryInvariant state) (tenantId : Uuid) (id : Nat) :
    state.leaseCount tenantId id ≤ retryLimit := by
  cases present : state.rows.any (QueueRow.isRow tenantId id) with
  | false =>
      rw [invariant.leaseCount_eq_zero present]
      exact Nat.zero_le _
  | true =>
      obtain ⟨row, member, same⟩ := List.any_eq_true.mp present
      obtain ⟨rfl, rfl⟩ := Queue.isRow_iff.mp same
      exact (invariant.counted row member).trans (invariant.attempts row member)

/-- A change that counts an attempt of one of the rows counts it in the sum. -/
theorem sum_update_lt {rows : List (QueueRow Subject)} {selects : QueueRow Subject → Bool}
    (change : QueueRow Subject → QueueRow Subject) {row : QueueRow Subject}
    (grows : ∀ row, (change row).attemptCount = row.attemptCount + 1) (member : row ∈ rows)
    (selected : selects row = true) :
    (rows.map QueueRow.attemptCount).sum + 1 ≤
      ((Table.update selects change rows).map QueueRow.attemptCount).sum := by
  have step : ∀ row : QueueRow Subject, row.attemptCount ≤
      (if selects row then change row else row).attemptCount := by
    intro row
    split
    · rw [grows]
      omega
    · exact le_rfl
  have weak : ∀ rows : List (QueueRow Subject), (rows.map QueueRow.attemptCount).sum ≤
      ((Table.update selects change rows).map QueueRow.attemptCount).sum := by
    intro rows
    rw [Table.update, List.map_map]
    exact List.sum_le_sum fun row _ => step row
  induction rows with
  | nil => contradiction
  | cons head rest inductionHypothesis =>
      have headStep := step head
      have restWeak := weak rest
      simp only [Table.update, List.map_cons, List.sum_cons] at inductionHypothesis restWeak ⊢
      rcases List.mem_cons.mp member with rfl | later
      · rw [if_pos selected, grows]
        omega
      · have tail := inductionHypothesis later
        omega

theorem sum_update_eq {rows : List (QueueRow Subject)} {selects : QueueRow Subject → Bool}
    {change : QueueRow Subject → QueueRow Subject}
    (keeps : ∀ row, (change row).attemptCount = row.attemptCount) :
    ((Table.update selects change rows).map QueueRow.attemptCount).sum =
      (rows.map QueueRow.attemptCount).sum := by
  rw [Table.update, List.map_map]
  congr 1
  apply List.map_congr_left
  intro row _
  simp only [Function.comp_apply]
  split
  · exact keeps row
  · rfl

theorem any_isRow_update {rows : List (QueueRow Subject)} {selects : QueueRow Subject → Bool}
    {change : QueueRow Subject → QueueRow Subject}
    (keeps : ∀ row, (change row).key = row.key) (tenantId : Uuid) (id : Nat) :
    (Table.update selects change rows).any (QueueRow.isRow tenantId id) =
      rows.any (QueueRow.isRow tenantId id) := by
  apply Table.any_update_of_blind
  intro row
  have same := keeps row
  simp only [QueueRow.key, Prod.mk.injEq] at same
  simp [QueueRow.isRow, same.1, same.2]

theorem Settlement.attemptCount {now : Nat} {change : QueueRow Subject → QueueRow Subject}
    (settlement : Settlement now change) (row : QueueRow Subject) :
    (change row).attemptCount = row.attemptCount := by
  cases settlement <;> rfl

theorem Settlement.pending {now : Nat} {change : QueueRow Subject → QueueRow Subject}
    (settlement : Settlement now change) (row : QueueRow Subject)
    (pending : (change row).status = .pending) : (change row).attemptCount < retryLimit := by
  cases settlement with
  | complete => simp [QueueRow.complete] at pending
  | fail failureCode =>
      simp only [QueueRow.fail] at pending ⊢
      split at pending
      · contradiction
      · omega

/-! ### One step -/

section Step

variable {state : Workers Subject} (invariant : RetryInvariant state)
include invariant

theorem RetryInvariant.kept {after : Workers Subject} (workers : WorkersInvariant after)
    (rows : after.rows = state.rows) (grants : after.grants = state.grants) :
    RetryInvariant after := by
  have count : ∀ tenantId id, after.leaseCount tenantId id = state.leaseCount tenantId id := by
    intro tenantId id
    rw [Workers.leaseCount, grants]
    rfl
  refine ⟨workers, by rw [rows]; exact invariant.attempts,
    by rw [rows]; exact invariant.pending, ?_, by rw [rows, grants]; exact invariant.known,
    by rw [rows, grants]; exact invariant.total⟩
  intro row member
  rw [count]
  rw [rows] at member
  exact invariant.counted row member

theorem RetryInvariant.enqueued {row : QueueRow Subject} (new : row.isNew = true)
    (free : state.rows.any (QueueRow.isRow row.tenantId row.id) = false)
    (workers : WorkersInvariant { state with rows := state.rows ++ [row] }) :
    RetryInvariant { state with rows := state.rows ++ [row] } := by
  simp only [QueueRow.isNew, Bool.and_eq_true, beq_iff_eq] at new
  have zero : row.attemptCount = 0 := new.1.2
  refine ⟨workers, ?_, ?_, ?_, ?_, ?_⟩
  · intro other member
    rcases List.mem_append.mp member with old | added
    · exact invariant.attempts other old
    · rw [List.mem_singleton.mp added, zero]
      exact Nat.zero_le _
  · intro other member pending
    rcases List.mem_append.mp member with old | added
    · exact invariant.pending other old pending
    · rw [List.mem_singleton.mp added, zero]
      decide
  · intro other member
    rcases List.mem_append.mp member with old | added
    · exact invariant.counted other old
    · rw [List.mem_singleton.mp added]
      exact (invariant.leaseCount_eq_zero free).le.trans (Nat.zero_le _)
  · intro grant member
    rw [List.any_append, invariant.known grant member]
    rfl
  · simp only [List.map_append, List.sum_append]
    exact invariant.total.trans (Nat.le_add_right _ _)

/-- A lease counts an attempt of a row that has one left. -/
theorem RetryInvariant.leased {worker : Nat} {row : QueueRow Subject}
    {held : Nat → Option Grant}
    (due : Queue.firstDue (QueueRow.isDue state.clock) state.rows = some row)
    (left : row.status = .leased → row.attemptCount < retryLimit)
    (workers : WorkersInvariant { state with
      rows := Table.update (QueueRow.isRow row.tenantId row.id) (QueueRow.lease state.clock)
        state.rows
      grants := ⟨worker, row.tenantId, row.id⟩ :: state.grants
      held }) :
    RetryInvariant { state with
      rows := Table.update (QueueRow.isRow row.tenantId row.id) (QueueRow.lease state.clock)
        state.rows
      grants := ⟨worker, row.tenantId, row.id⟩ :: state.grants
      held } := by
  obtain ⟨member, isDue⟩ := Queue.firstDue_some due
  have attempts : row.attemptCount < retryLimit := by
    simp only [QueueRow.isDue, QueueRow.awaits, Bool.or_eq_true, Bool.and_eq_true,
      beq_iff_eq] at isDue
    rcases isDue with ⟨pending, _⟩ | expired
    · exact invariant.pending row member pending
    · exact left (Queue.expired_iff.mp expired).1
  have source : ∀ old ∈ state.rows, old.isRow row.tenantId row.id = true → old = row :=
    fun old oldMember same => invariant.workers.keys.eq_of_mem QueueRow.key oldMember member
      (Prod.ext_iff.mpr (Queue.isRow_iff.mp same))
  refine ⟨workers, ?_, ?_, ?_, ?_, ?_⟩
  · intro new newMember
    rcases Table.mem_update.mp newMember with ⟨old, _⟩ | ⟨old, oldMember, same, rfl⟩
    · exact invariant.attempts new old
    · rw [source old oldMember same]
      exact attempts
  · intro new newMember pending
    rcases Table.mem_update.mp newMember with ⟨old, _⟩ | ⟨old, oldMember, same, rfl⟩
    · exact invariant.pending new old pending
    · simp [QueueRow.lease] at pending
  · intro new newMember
    rcases Table.mem_update.mp newMember with ⟨old, other⟩ | ⟨old, oldMember, same, rfl⟩
    · have foreign : ¬Grant.isOf new.tenantId new.id ⟨worker, row.tenantId, row.id⟩ = true := by
        rw [isOf_iff]
        rintro ⟨tenant, id⟩
        rw [← Bool.not_eq_true] at other
        exact other (Queue.isRow_iff.mpr ⟨tenant.symm, id.symm⟩)
      rw [Workers.leaseCount, List.countP_cons_of_neg foreign]
      exact invariant.counted new old
    · rw [source old oldMember same]
      show List.countP (Grant.isOf row.tenantId row.id)
        (⟨worker, row.tenantId, row.id⟩ :: state.grants) ≤ row.attemptCount + 1
      have own : Grant.isOf row.tenantId row.id ⟨worker, row.tenantId, row.id⟩ = true :=
        isOf_iff.mpr ⟨rfl, rfl⟩
      rw [List.countP_cons_of_pos own]
      exact Nat.succ_le_succ (invariant.counted row member)
  · intro grant grantMember
    rw [any_isRow_update (by simp)]
    rcases List.mem_cons.mp grantMember with rfl | old
    · exact List.any_eq_true.mpr ⟨row, member, Queue.isRow_self row⟩
    · exact invariant.known grant old
  · have grown := sum_update_lt (QueueRow.lease state.clock) (fun _ => rfl) member
      (Queue.isRow_self row)
    have total := invariant.total
    simp only [List.length_cons]
    omega

theorem RetryInvariant.settled {grant : Grant} {change : QueueRow Subject → QueueRow Subject}
    {held : Nat → Option Grant} (settlement : Settlement state.clock change)
    (workers : WorkersInvariant { state with
      rows := Table.update (Queue.isLeasedRow grant.tenantId grant.id) change state.rows
      held }) :
    RetryInvariant { state with
      rows := Table.update (Queue.isLeasedRow grant.tenantId grant.id) change state.rows
      held } := by
  refine ⟨workers, ?_, ?_, ?_, ?_, ?_⟩
  · intro row member
    rcases Table.mem_update.mp member with ⟨old, _⟩ | ⟨source, old, _, rfl⟩
    · exact invariant.attempts row old
    · rw [settlement.attemptCount]
      exact invariant.attempts source old
  · intro row member pending
    rcases Table.mem_update.mp member with ⟨old, _⟩ | ⟨source, old, _, rfl⟩
    · exact invariant.pending row old pending
    · exact settlement.pending source pending
  · intro row member
    rcases Table.mem_update.mp member with ⟨old, _⟩ | ⟨source, old, _, rfl⟩
    · exact invariant.counted row old
    · have key := settlement.key source
      simp only [QueueRow.key, Prod.mk.injEq] at key
      rw [settlement.attemptCount, key.1, key.2]
      exact invariant.counted source old
  · intro grant member
    rw [any_isRow_update settlement.key]
    exact invariant.known grant member
  · rw [sum_update_eq settlement.attemptCount]
    exact invariant.total

end Step

/-- The step lemma: within the condition the attempts stay within the limit. -/
theorem RetryInvariant.step {state : Workers Subject} {event : WorkerEvent Subject}
    (invariant : RetryInvariant state) (left : AttemptsLeft state event) :
    RetryInvariant (workersStep state event) := by
  have change := workersStep_change state event
  have workers := workersStep_invariant state event invariant.workers
  generalize workersStep state event = after at change workers
  cases change with
  | kept after rows grants held asked => exact invariant.kept workers rows grants
  | enqueued row asked new free => exact invariant.enqueued new free workers
  | leased worker row asked idle due bound =>
      exact invariant.leased due (left worker row asked idle due) workers
  | settled worker grant change asked holding settlement =>
      exact invariant.settled settlement workers

theorem RetryInvariant.bounded {state : Workers Subject} {event : WorkerEvent Subject}
    (invariant : RetryInvariant state) (left : AttemptsLeft state event) :
    Bounded state event := by
  have after := invariant.step left
  have room : ∀ worker row, event = .lease worker → state.held worker = none →
      Queue.firstDue (QueueRow.isDue state.clock) state.rows = some row →
      row.attemptCount < retryLimit := by
    intro worker row asked idle due
    obtain ⟨member, isDue⟩ := Queue.firstDue_some due
    simp only [QueueRow.isDue, QueueRow.awaits, Bool.or_eq_true, Bool.and_eq_true,
      beq_iff_eq] at isDue
    rcases isDue with ⟨pending, _⟩ | expired
    · exact invariant.pending row member pending
    · exact left worker row asked idle due (Queue.expired_iff.mp expired).1
  have call := Queue.leaseFirst_cases (QueueRow.isDue state.clock) (QueueRow.lease state.clock)
    state.rows
  refine ⟨?_, ?_, after.attempts, after.leaseCount_le⟩
  · intro worker asked idle
    rcases call with ⟨_, leased⟩ | ⟨row, due, ⟨exceeds, _⟩ | ⟨_, leased⟩⟩
    · exact ⟨_, leased⟩
    · have attempts := room worker row asked idle due
      simp only [QueueRow.lease, maxAttemptCount, retryLimit] at exceeds attempts
      omega
    · exact ⟨_, leased⟩
  · intro worker asked idle row member isDue
    rcases call with ⟨none, _⟩ | ⟨first, due, ⟨exceeds, _⟩ | ⟨_, leased⟩⟩
    · obtain ⟨first, due⟩ := Queue.firstDue_isSome member isDue
      rw [due] at none
      contradiction
    · have attempts := room worker first asked idle due
      simp only [QueueRow.lease, maxAttemptCount, retryLimit] at exceeds attempts
      omega
    · obtain ⟨firstMember, firstDue⟩ := Queue.firstDue_some due
      refine ⟨first, firstMember, firstDue, Queue.firstDue_first due member isDue, ?_⟩
      subst asked
      simp only [workersStep, Workers.lease, idle]
      rw [Queue.lease, leased]
      rfl

/-- A bounded step took no row at its limit. -/
theorem Bounded.attemptsLeft {state : Workers Subject} {event : WorkerEvent Subject}
    (bounded : Bounded state event) : AttemptsLeft state event := by
  intro worker row asked idle due _
  obtain ⟨member, isDue⟩ := Queue.firstDue_some due
  obtain ⟨result, answered⟩ := bounded.answered worker asked idle
  subst asked
  rcases Queue.leaseFirst_cases (QueueRow.isDue state.clock) (QueueRow.lease state.clock)
      state.rows with ⟨none, _⟩ | ⟨first, due', ⟨_, failed⟩ | ⟨_, leased⟩⟩
  · rw [none] at due
    contradiction
  · rw [Queue.lease, failed] at answered
    contradiction
  · obtain rfl : first = row := Option.some.inj (due'.symm.trans due)
    have counted := bounded.attempts (QueueRow.lease state.clock first) (by
      simp only [workersStep, Workers.lease, idle]
      rw [Queue.lease, leased]
      exact Table.mem_update.mpr (Or.inr ⟨first, member, Queue.isRow_self first, rfl⟩))
    exact counted

/-- Over every run of the workers, crashes included: every lease call is
answered and served, and no row is leased more than ten times, exactly when no
lease takes over a row at its limit; then the leases are ten for each row at
most. -/
theorem bounded_retry_iff (start : Workers Subject)
    (keys : Table.KeysUnique QueueRow.key start.rows)
    (new : ∀ row ∈ start.rows, row.isNew = true) (grants : start.grants = [])
    (idle : ∀ worker, start.held worker = none) (events : List (WorkerEvent Subject)) :
    (Machine.EveryStep workersStep Bounded start events ↔
      Machine.EveryStep workersStep AttemptsLeft start events) ∧
      (Machine.EveryStep workersStep AttemptsLeft start events →
        (Machine.run workersStep start events).grants.length ≤
          retryLimit * (Machine.run workersStep start events).rows.length) := by
  have initial : RetryInvariant start := .start
    ⟨keys, fun worker grant holding => by simp [idle worker] at holding⟩ new grants
  refine ⟨⟨?_, ?_⟩, ?_⟩
  · exact fun bounded pair member => (bounded pair member).attemptsLeft
  · exact Machine.everyStep_of_invariant workersStep RetryInvariant AttemptsLeft Bounded
      (fun state event invariant left => invariant.step left)
      (fun state event invariant left => invariant.bounded left) start events initial
  · intro left
    have invariant := Machine.run_invariant workersStep RetryInvariant AttemptsLeft
      (fun state event invariant left => invariant.step left) start events initial left
    have sum := List.sum_le_card_nsmul
      ((Machine.run workersStep start events).rows.map QueueRow.attemptCount) retryLimit (by
        intro count member
        obtain ⟨row, rowMember, rfl⟩ := List.mem_map.mp member
        exact invariant.attempts row rowMember)
    rw [List.length_map, smul_eq_mul, Nat.mul_comm] at sum
    exact invariant.total.trans sum

end Retry

/-! ## A job that crashes its worker -/

/-- Two pending jobs; the first was available first. -/
def twoJobs : Workers JobSubject where
  rows := [⟨1, 7, ⟨"nodea", "nodea-1"⟩, .pending, 0, 0, none, none, 0, none⟩,
    ⟨1, 8, ⟨"nodea", "nodea-2"⟩, .pending, 0, 1, none, none, 0, none⟩]

/-- A worker that crashes whenever it has leased a job. -/
def crashes (rounds : Nat) : List (WorkerEvent JobSubject) :=
  (List.replicate rounds [.lease 1, .crash 1, .tick 30000001]).flatten

theorem twoJobs_keys : Table.KeysUnique QueueRow.key twoJobs.rows := by
  simp [Table.KeysUnique, twoJobs, QueueRow.key]

theorem bounded_retry_failed :
    Machine.EveryStep workersStep Bounded twoJobs [.tick 1, .lease 1, .fail 1 "timeout"] :=
  (bounded_retry_iff twoJobs twoJobs_keys (by decide) rfl (fun _ => rfl)
    [.tick 1, .lease 1, .fail 1 "timeout"]).1.mpr (by
      rw [Machine.everyStep_cons, Machine.everyStep_cons, Machine.everyStep_cons]
      refine ⟨?_, ?_, ?_, by simp [Machine.EveryStep, Machine.visited]⟩
      · rintro worker row same
        cases same
      · rintro worker row same idle due leased
        cases due
        cases leased
      · rintro worker row same
        cases same)

/-- After eleven crashes a job was leased eleven times; after a hundred every
lease call raises an error, although the other job has been due all along. -/
theorem crashing_job_blocks_the_queue :
    let blocked := Machine.run workersStep twoJobs (crashes 100)
    (Machine.run workersStep twoJobs (crashes 11)).leaseCount 1 7 = 11 ∧
      blocked.rows.map QueueRow.attemptCount = [100, 0] ∧
      (∀ row ∈ blocked.rows, row.isDue blocked.clock = true) ∧
      Queue.lease blocked.clock blocked.rows = .error .checkViolation ∧
      ¬Machine.EveryStep workersStep Bounded twoJobs (crashes 11) := by
  intro blocked
  have eleven : (Machine.run workersStep twoJobs (crashes 11)).leaseCount 1 7 = 11 := by
    decide +kernel
  refine ⟨eleven, by decide +kernel, by decide +kernel, by decide +kernel, ?_⟩
  intro bounded
  have last := bounded
    (Machine.run workersStep twoJobs (crashes 10), .lease 1) (by
      rw [Machine.mem_visited_iff]
      exact ⟨crashes 10, [.crash 1, .tick 30000001], rfl, rfl⟩)
  have leases := last.leases 1 7
  have counted : (workersStep (Machine.run workersStep twoJobs (crashes 10))
      (.lease 1)).leaseCount 1 7 = 11 := by
    decide +kernel
  rw [counted] at leases
  exact absurd leases (by decide)

end SystemPilot.Cloud
