import Mathlib.Tactic
import SystemPilot.Library.Machine
import SystemPilot.Cloud.Leases

/-!
# Results of reasoning jobs

The job and the result tables under any order of calls.  A completion stores its
result first and tests the status of the job afterwards, without undoing the
store; the tables agree as long as completions find their job running.
-/

set_option autoImplicit false

namespace SystemPilot.Cloud

open SystemPilot.Json
open SystemPilot.Library

section Results

variable {Digest : Type}

/-- A call of one of the queue functions, whoever makes it. -/
inductive JobEvent (Digest : Type) where
  | lease (now : Nat) (messages : List (MessageRow Digest))
  | complete (now : Nat) (tenantId : Uuid) (jobId : Nat) (result : Value)
  | fail (now : Nat) (tenantId : Uuid) (jobId : Nat) (failureCode : String)

/-- The tables after a call; an error leaves them as they were. -/
def jobStep (tables : JobTables) : JobEvent Digest → JobTables
  | .lease now messages =>
      match leaseReasoningJob now messages tables.jobs with
      | .ok (jobs, _) => { tables with jobs }
      | .error _ => tables
  | .complete now tenantId jobId result =>
      match completeReasoningJob now tenantId jobId result tables with
      | .ok (after, _) => after
      | .error _ => tables
  | .fail now tenantId jobId failureCode =>
      { tables with jobs := (failReasoningJob now tenantId jobId failureCode tables.jobs).1 }

/-- The job of a primary key is completed. -/
def JobTables.completed (tables : JobTables) (tenantId : Uuid) (jobId : Nat) : Bool :=
  tables.jobs.any fun job => job.isRow tenantId jobId && job.status == .done

/-- The stored result of a job. -/
def JobTables.resultOf (tables : JobTables) (tenantId : Uuid) (jobId : Nat) : Option Value :=
  (tables.results.find? (ResultRow.isResult tenantId jobId)).map ResultRow.result

/-- A result is stored for the completed jobs and for no others. -/
def ResultsMatch (tables : JobTables) : Prop :=
  ∀ tenantId jobId,
    tables.results.any (ResultRow.isResult tenantId jobId) = tables.completed tenantId jobId

/-- The results match, a refused completion changes nothing, and what is
completed keeps its result. -/
structure ResultIntegrity (tables : JobTables) (event : JobEvent Digest) : Prop where
  matched : ResultsMatch (jobStep tables event)
  refused : ∀ now tenantId jobId result after, event = .complete now tenantId jobId result →
    completeReasoningJob now tenantId jobId result tables = .ok (after, false) → after = tables
  kept : ∀ tenantId jobId, tables.completed tenantId jobId = true →
    (jobStep tables event).completed tenantId jobId = true ∧
      (jobStep tables event).resultOf tenantId jobId = tables.resultOf tenantId jobId

/-- A completion with a proper result finds its job running, or the result
stored already. -/
def CompletesRunning (tables : JobTables) (event : JobEvent Digest) : Prop :=
  ∀ now tenantId jobId result, event = .complete now tenantId jobId result →
    result.isObject = true → tables.jobs.any (QueueRow.isRow tenantId jobId) = true →
    tables.jobs.any (Queue.isLeasedRow tenantId jobId) = true ∨
      tables.results.any (fun row => row.isResult tenantId jobId && row.result == result) = true

def ResultRow.key (row : ResultRow) : Uuid × Nat :=
  (row.tenantId, row.jobId)

/-- The primary keys of both tables, and the results of the completed jobs. -/
structure JobInvariant (tables : JobTables) : Prop where
  jobKeys : Table.KeysUnique QueueRow.key tables.jobs
  resultKeys : Table.KeysUnique ResultRow.key tables.results
  matched : ResultsMatch tables

/-- The changes of one call. -/
inductive JobChange (tables : JobTables) (event : JobEvent Digest) : JobTables → Prop
  | kept (asked : ∀ now tenantId jobId result, event = .complete now tenantId jobId result →
      ∃ failure, completeReasoningJob now tenantId jobId result tables = .error failure) :
      JobChange tables event tables
  | leased (now : Nat) (row : JobRow)
      (asked : ∀ now tenantId jobId result, event ≠ .complete now tenantId jobId result)
      (due : Queue.firstDue (QueueRow.isDue now) tables.jobs = some row) :
      JobChange tables event { tables with
        jobs := Table.update (QueueRow.isRow row.tenantId row.id) (QueueRow.lease now)
          tables.jobs }
  | failed (now : Nat) (tenantId : Uuid) (jobId : Nat) (failureCode : String)
      (asked : ∀ now tenantId jobId result, event ≠ .complete now tenantId jobId result) :
      JobChange tables event { tables with
        jobs := Table.update (Queue.isLeasedRow tenantId jobId) (QueueRow.fail now failureCode)
          tables.jobs }
  | completed (now : Nat) (tenantId : Uuid) (jobId : Nat) (result : Value)
      (asked : event = .complete now tenantId jobId result) (object : result.isObject = true)
      (exists_ : tables.jobs.any (QueueRow.isRow tenantId jobId) = true)
      (found : completeReasoningJob now tenantId jobId result tables = .ok (
        ⟨Table.update (Queue.isLeasedRow tenantId jobId) (QueueRow.complete now) tables.jobs,
          Table.upsert (ResultRow.isResult tenantId jobId) (fun row => { row with result })
            ⟨tenantId, jobId, result, now⟩ tables.results⟩,
        tables.jobs.any (Queue.isLeasedRow tenantId jobId))) :
      JobChange tables event
        ⟨Table.update (Queue.isLeasedRow tenantId jobId) (QueueRow.complete now) tables.jobs,
          Table.upsert (ResultRow.isResult tenantId jobId) (fun row => { row with result })
            ⟨tenantId, jobId, result, now⟩ tables.results⟩

theorem jobStep_change (tables : JobTables) (event : JobEvent Digest) :
    JobChange tables event (jobStep tables event) := by
  cases event with
  | lease now messages =>
      have kept : JobChange tables (.lease now messages) tables :=
        .kept fun _ _ _ _ asked => by cases asked
      simp only [jobStep, leaseReasoningJob]
      rcases Queue.leaseFirst_cases (QueueRow.isDue now) (QueueRow.lease now) tables.jobs with
        ⟨_, leased⟩ | ⟨row, due, ⟨_, leased⟩ | ⟨_, leased⟩⟩
      · rw [Queue.lease, leased]
        exact kept
      · rw [Queue.lease, leased]
        exact kept
      · rw [Queue.lease, leased]
        exact .leased now row (fun _ _ _ _ asked => by cases asked) due
  | complete now tenantId jobId result =>
      simp only [jobStep]
      by_cases object : result.isObject = true
      · by_cases exists_ : tables.jobs.any (QueueRow.isRow tenantId jobId) = true
        · have found : completeReasoningJob now tenantId jobId result tables = .ok (
              ⟨Table.update (Queue.isLeasedRow tenantId jobId) (QueueRow.complete now) tables.jobs,
                Table.upsert (ResultRow.isResult tenantId jobId) (fun row => { row with result })
                  ⟨tenantId, jobId, result, now⟩ tables.results⟩,
              tables.jobs.any (Queue.isLeasedRow tenantId jobId)) := by
            simp [completeReasoningJob, object, exists_, Queue.complete, Queue.settle]
          rw [found]
          exact .completed now tenantId jobId result rfl object exists_ found
        · have failed : completeReasoningJob now tenantId jobId result tables =
              .error .foreignKeyViolation := by
            simp [completeReasoningJob, object, exists_]
          rw [failed]
          refine .kept ?_
          rintro _ _ _ _ same
          cases same
          exact ⟨_, failed⟩
      · have failed : completeReasoningJob now tenantId jobId result tables =
            .error (.raised "reasoning result must be an object") := by
          simp [completeReasoningJob, object]
        rw [failed]
        refine .kept ?_
        rintro _ _ _ _ same
        cases same
        exact ⟨_, failed⟩
  | fail now tenantId jobId failureCode =>
      exact .failed now tenantId jobId failureCode fun _ _ _ _ asked => by cases asked

/-! ## The step lemma -/

section Steps

variable {tables : JobTables} {event : JobEvent Digest}

theorem isResult_iff {tenantId : Uuid} {jobId : Nat} {row : ResultRow} :
    row.isResult tenantId jobId = true ↔ row.tenantId = tenantId ∧ row.jobId = jobId := by
  simp [ResultRow.isResult]

/-- A change of rows that are not completed, into rows that are not, leaves the
completed jobs as they are. -/
theorem completed_update {selects : JobRow → Bool} {change : JobRow → JobRow}
    {results results' : List ResultRow} {jobs : List JobRow}
    (live : ∀ row ∈ jobs, selects row = true → row.status ≠ .done ∧ (change row).status ≠ .done)
    (tenantId : Uuid) (jobId : Nat) :
    (JobTables.mk (Table.update selects change jobs) results').completed tenantId jobId =
      (JobTables.mk jobs results).completed tenantId jobId := by
  apply Table.any_update_of_foreign
  intro row member selected
  obtain ⟨before, after⟩ := live row member selected
  simp [before, after]

/-- A change that keeps the results and the completed jobs keeps the integrity. -/
theorem ResultIntegrity.of_completed (matched : ResultsMatch tables) {after : JobTables}
    (stepped : jobStep tables event = after) (results : after.results = tables.results)
    (completed : ∀ tenantId jobId, after.completed tenantId jobId =
      tables.completed tenantId jobId)
    (refused : ∀ now tenantId jobId result other, event = .complete now tenantId jobId result →
      completeReasoningJob now tenantId jobId result tables = .ok (other, false) →
      other = tables) : ResultIntegrity tables event := by
  subst stepped
  refine ⟨?_, refused, ?_⟩
  · intro tenantId jobId
    rw [results, completed]
    exact matched tenantId jobId
  · intro tenantId jobId done
    exact ⟨by rw [completed, done], by rw [JobTables.resultOf, JobTables.resultOf, results]⟩

theorem JobInvariant.not_completed (invariant : JobInvariant tables) {tenantId : Uuid}
    {jobId : Nat} (running : tables.jobs.any (Queue.isLeasedRow tenantId jobId) = true) :
    tables.completed tenantId jobId = false := by
  obtain ⟨job, member, leased⟩ := List.any_eq_true.mp running
  obtain ⟨⟨rfl, rfl⟩, status⟩ := Queue.isLeasedRow_iff.mp leased
  rw [← Bool.not_eq_true]
  intro done
  obtain ⟨other, otherMember, found⟩ := List.any_eq_true.mp done
  simp only [Bool.and_eq_true, beq_iff_eq, Queue.isRow_iff] at found
  have same := invariant.jobKeys.eq_of_mem QueueRow.key otherMember member
    (Prod.ext_iff.mpr found.1)
  rw [same, status] at found
  exact absurd found.2 (by decide)

/-- The result of a running job is stored with its completion. -/
theorem JobInvariant.completes (invariant : JobInvariant tables) (now : Nat) (result : Value)
    {tenantId : Uuid} {jobId : Nat}
    (running : tables.jobs.any (Queue.isLeasedRow tenantId jobId) = true) :
    let after : JobTables :=
      ⟨Table.update (Queue.isLeasedRow tenantId jobId) (QueueRow.complete now) tables.jobs,
        Table.upsert (ResultRow.isResult tenantId jobId) (fun row => { row with result })
          ⟨tenantId, jobId, result, now⟩ tables.results⟩
    ResultsMatch after ∧
      ∀ other otherId, tables.completed other otherId = true →
        after.completed other otherId = true ∧
          after.resultOf other otherId = tables.resultOf other otherId := by
  intro after
  have foreignResult : ∀ other otherId, (tenantId, jobId) ≠ (other, otherId) →
      after.results.find? (ResultRow.isResult other otherId) =
        tables.results.find? (ResultRow.isResult other otherId) := by
    intro other otherId distinct
    apply Table.find?_upsert_of_foreign
    · rw [← Bool.not_eq_true, isResult_iff]
      rintro ⟨rfl, rfl⟩
      exact distinct rfl
    · intro old own
      obtain ⟨rfl, rfl⟩ := isResult_iff.mp own
      have foreign : old.isResult other otherId = false := by
        rw [← Bool.not_eq_true, isResult_iff]
        rintro ⟨rfl, rfl⟩
        exact distinct rfl
      exact ⟨foreign, foreign⟩
  have foreignJob : ∀ other otherId, (tenantId, jobId) ≠ (other, otherId) →
      after.completed other otherId = tables.completed other otherId := by
    intro other otherId distinct
    apply Table.any_update_of_foreign
    intro row _ selected
    obtain ⟨⟨rfl, rfl⟩, _⟩ := Queue.isLeasedRow_iff.mp selected
    have foreign : row.isRow other otherId = false := by
      rw [← Bool.not_eq_true, Queue.isRow_iff]
      rintro ⟨rfl, rfl⟩
      exact distinct rfl
    have foreignAfter : (row.complete now).isRow other otherId = false := foreign
    simp [foreign, foreignAfter]
  constructor
  · intro other otherId
    by_cases own : (tenantId, jobId) = (other, otherId)
    · cases own
      have stored : after.results.any (ResultRow.isResult tenantId jobId) = true :=
        Table.any_upsert_self (isResult_iff.mpr ⟨rfl, rfl⟩) fun _ same => same
      have done : after.completed tenantId jobId = true := by
        obtain ⟨job, member, leased⟩ := List.any_eq_true.mp running
        refine List.any_eq_true.mpr ⟨job.complete now,
          Table.mem_update.mpr (Or.inr ⟨job, member, leased, rfl⟩), ?_⟩
        have row : (job.complete now).isRow tenantId jobId = true :=
          Queue.isRow_iff.mpr (Queue.isLeasedRow_iff.mp leased).1
        rw [row]
        rfl
      rw [stored, done]
    · rw [foreignJob other otherId own, ← invariant.matched other otherId, Bool.eq_iff_iff,
        List.any_eq_true, List.any_eq_true, ← List.find?_isSome, ← List.find?_isSome,
        foreignResult other otherId own]
  · intro other otherId done
    have distinct : (tenantId, jobId) ≠ (other, otherId) := by
      rintro same
      cases same
      rw [invariant.not_completed running] at done
      contradiction
    rw [foreignJob other otherId distinct, JobTables.resultOf, foreignResult other otherId distinct]
    exact ⟨done, rfl⟩

/-- The result that is stored already is stored again without a change. -/
theorem JobInvariant.upsert_same (invariant : JobInvariant tables) (now : Nat) {tenantId : Uuid}
    {jobId : Nat} {result : Value}
    (stored : tables.results.any (fun row => row.isResult tenantId jobId && row.result == result) =
      true) :
    Table.upsert (ResultRow.isResult tenantId jobId) (fun row => { row with result })
      ⟨tenantId, jobId, result, now⟩ tables.results = tables.results := by
  obtain ⟨row, member, found⟩ := List.any_eq_true.mp stored
  simp only [Bool.and_eq_true, beq_iff_eq] at found
  obtain ⟨own, rfl⟩ := found
  rw [Table.upsert, if_pos (List.any_eq_true.mpr ⟨row, member, own⟩)]
  apply Table.update_eq_self
  intro other otherMember otherOwn
  have same := invariant.resultKeys.eq_of_mem ResultRow.key otherMember member (by
    rw [ResultRow.key, ResultRow.key, (isResult_iff.mp own).1, (isResult_iff.mp own).2,
      (isResult_iff.mp otherOwn).1, (isResult_iff.mp otherOwn).2])
  rw [same]

theorem JobInvariant.integrity (invariant : JobInvariant tables)
    (running : CompletesRunning tables event) : ResultIntegrity tables event := by
  have change := jobStep_change tables event
  generalize stepped : jobStep tables event = after at change
  cases change with
  | kept asked =>
      refine .of_completed invariant.matched stepped rfl (fun _ _ => rfl) ?_
      intro now tenantId jobId result other same answered
      obtain ⟨failure, failed⟩ := asked now tenantId jobId result same
      rw [failed] at answered
      contradiction
  | leased now row asked due =>
      obtain ⟨member, isDue⟩ := Queue.firstDue_some due
      refine .of_completed invariant.matched stepped rfl (completed_update ?_) ?_
      · intro old oldMember same
        have itself := invariant.jobKeys.eq_of_mem QueueRow.key oldMember member
          (Prod.ext_iff.mpr (Queue.isRow_iff.mp same))
        refine ⟨?_, by simp [QueueRow.lease]⟩
        rw [itself]
        intro done
        simp [QueueRow.isDue, QueueRow.awaits, QueueRow.expired, done] at isDue
      · exact fun now tenantId jobId result _ same _ => absurd same (asked now tenantId jobId result)
  | failed now tenantId jobId failureCode asked =>
      refine .of_completed invariant.matched stepped rfl (completed_update ?_) ?_
      · intro row _ selected
        rw [(Queue.isLeasedRow_iff.mp selected).2]
        refine ⟨by decide, ?_⟩
        simp only [QueueRow.fail]
        split <;> decide
      · exact fun now tenantId jobId result _ same _ => absurd same (asked now tenantId jobId result)
  | completed now tenantId jobId result asked object exists_ found =>
      cases leased : tables.jobs.any (Queue.isLeasedRow tenantId jobId) with
      | true =>
          obtain ⟨matched, kept⟩ := invariant.completes now result leased
          refine ⟨by rw [stepped]; exact matched, ?_, by rw [stepped]; exact kept⟩
          rintro _ _ _ _ other same answered
          rw [asked] at same
          cases same
          rw [found, leased] at answered
          cases answered
      | false =>
          -- nothing is running, so the result must be the stored one
          have stored := (running now tenantId jobId result asked object exists_).resolve_left
            (by simp [leased])
          have jobs : Table.update (Queue.isLeasedRow tenantId jobId) (QueueRow.complete now)
              tables.jobs = tables.jobs := by
            apply Table.update_eq_self
            intro row member selected
            exact absurd selected (List.any_eq_false.mp leased row member)
          have results := invariant.upsert_same now stored
          rw [jobs, results] at found stepped
          refine .of_completed invariant.matched stepped rfl (fun _ _ => rfl) ?_
          rintro _ _ _ _ other same answered
          rw [asked] at same
          cases same
          exact (Prod.mk.inj (Except.ok.inj (found.symm.trans answered))).1.symm

/-- The step lemma: integrity keeps the invariant. -/
theorem JobInvariant.step (invariant : JobInvariant tables)
    (integrity : ResultIntegrity tables event) : JobInvariant (jobStep tables event) := by
  have change := jobStep_change tables event
  have matched := integrity.matched
  generalize jobStep tables event = after at change matched
  cases change with
  | kept asked => exact invariant
  | leased now row asked due =>
      exact ⟨invariant.jobKeys.update QueueRow.key (by simp), invariant.resultKeys, matched⟩
  | failed now tenantId jobId failureCode asked =>
      exact ⟨invariant.jobKeys.update QueueRow.key (by simp), invariant.resultKeys, matched⟩
  | completed now tenantId jobId result asked object exists_ found =>
      refine ⟨invariant.jobKeys.update QueueRow.key (by simp), ?_, matched⟩
      unfold Table.upsert
      split
      · exact invariant.resultKeys.update ResultRow.key fun _ => rfl
      · rename_i free
        apply invariant.resultKeys.append ResultRow.key
        intro old member same
        exact free (List.any_eq_true.mpr ⟨old, member, isResult_iff.mpr (Prod.mk.inj same)⟩)

/-- A completion that leaves the tables intact found its job running, or its
result stored. -/
theorem ResultIntegrity.completesRunning (integrity : ResultIntegrity tables event) :
    CompletesRunning tables event := by
  intro now tenantId jobId result asked object exists_
  cases leased : tables.jobs.any (Queue.isLeasedRow tenantId jobId) with
  | true => exact Or.inl rfl
  | false =>
      right
      have same := integrity.refused now tenantId jobId result _ asked (by
        simp only [completeReasoningJob, object, exists_, Queue.complete, Queue.settle, leased]
        rfl)
      have results : Table.upsert (ResultRow.isResult tenantId jobId)
          (fun row => { row with result }) ⟨tenantId, jobId, result, now⟩ tables.results =
          tables.results := congrArg JobTables.results same
      rw [← results, List.any_eq_true]
      have stored : (Table.upsert (ResultRow.isResult tenantId jobId)
          (fun row => { row with result }) ⟨tenantId, jobId, result, now⟩ tables.results).find?
          (ResultRow.isResult tenantId jobId) = _ :=
        Table.find?_upsert_self (isResult_iff.mpr ⟨rfl, rfl⟩) fun _ own => own
      refine ⟨_, List.mem_of_find?_eq_some stored, ?_⟩
      rw [List.find?_some stored]
      cases tables.results.find? (ResultRow.isResult tenantId jobId) <;> simp

end Steps

/-- Over every run of the queue functions in any order: a result is stored
exactly for the completed jobs, a refused completion changes nothing and a
stored result stays, exactly when every completion with a proper result finds its
job running or that result stored already. -/
theorem result_integrity_iff (start : JobTables) (invariant : JobInvariant start)
    (events : List (JobEvent Digest)) :
    Machine.EveryStep jobStep ResultIntegrity start events ↔
      Machine.EveryStep jobStep CompletesRunning start events := by
  constructor
  · exact fun integrity pair member => (integrity pair member).completesRunning
  · exact Machine.everyStep_of_invariant jobStep JobInvariant CompletesRunning ResultIntegrity
      (fun tables event holds running => holds.step (holds.integrity running))
      (fun tables event holds running => holds.integrity running) start events invariant

end Results

/-! ## A late completion -/

/-- One pending job. -/
def pendingJob : JobTables where
  jobs := oneJob.rows

theorem pendingJob_invariant : JobInvariant pendingJob where
  jobKeys := oneJob_keys
  resultKeys := List.nodup_nil
  matched := by
    intro tenantId jobId
    simp [pendingJob, oneJob, JobTables.completed]

theorem result_integrity_completed :
    Machine.EveryStep jobStep ResultIntegrity pendingJob
      [.lease 0 ([] : List (MessageRow Nat)), .complete 1 1 7 (.object [])] :=
  (result_integrity_iff pendingJob pendingJob_invariant
    [.lease 0 ([] : List (MessageRow Nat)), .complete 1 1 7 (.object [])]).mpr (by
      rw [Machine.everyStep_cons, Machine.everyStep_cons]
      refine ⟨?_, ?_, by simp [Machine.EveryStep, Machine.visited]⟩
      · rintro now tenantId jobId result same
        cases same
      · rintro now tenantId jobId result same _ _
        cases same
        exact Or.inl (by decide))

/-- A worker completes a job that failed meanwhile: the call returns false, and
a result is stored for a job that is pending. -/
theorem late_completion_stores_result :
    let failed := Machine.run jobStep pendingJob
      [.lease 0 ([] : List (MessageRow Nat)), .fail 1 1 7 "provider_timeout"]
    let after := jobStep failed (.complete 2 1 7 (.object []) : JobEvent Nat)
    completeReasoningJob 2 1 7 (.object []) failed = .ok (after, false) ∧
      after.jobs.map QueueRow.status = [.pending] ∧
      after.resultOf 1 7 = some (.object []) ∧
      ¬ResultIntegrity failed (.complete 2 1 7 (.object []) : JobEvent Nat) := by
  intro failed after
  have answered : completeReasoningJob 2 1 7 (.object []) failed = .ok (after, false) := by decide
  have stored : after.resultOf 1 7 = some (.object []) := by decide
  refine ⟨answered, by decide, stored, ?_⟩
  intro integrity
  have unchanged := integrity.refused 2 1 7 (.object []) after rfl answered
  rw [unchanged] at stored
  exact absurd stored (by decide)

end SystemPilot.Cloud
