import SystemPilot.Forensics.Correlator
import SystemPilot.Library.Machine

/-!
# The insertion queue

What bounds the correlator and what it evicts.  A death removes its timeline but
leaves the entry in `insertion_order`, so the queue outgrows the timelines, and an
identity that comes again has an entry from before its timeline.
-/

set_option autoImplicit false

namespace SystemPilot.Forensics

open SystemPilot.Library

/-- The correlator beside the identities of its timelines in the order in which
these were created. -/
structure Watched where
  correlator : Correlator
  seniority : List ProcessIdentity

/-- A timeline of before and after the step stays, any other is new. -/
def Watched.step (watched : Watched) (event : KernelEvent) : Watched :=
  let next := watched.correlator.step event
  ⟨next, watched.seniority.filter (· ∈ next.timelines) ++
    event.identity.toList.filter fun identity =>
      identity ∉ watched.correlator.timelines ∧ identity ∈ next.timelines⟩

/-- The bounds of the state; that of the queue depends on `max_processes` alone. -/
structure Correlator.Bounded (bound : Nat → Nat) (correlator : Correlator) : Prop where
  timelines : correlator.timelines.keys.length ≤ correlator.config.maxProcesses
  events : ∀ identity timeline, correlator.timelines.lookup identity = some timeline →
    timeline.events.length ≤ correlator.config.maxEventsPerProcess
  queued : ∀ identity ∈ correlator.timelines, identity ∈ correlator.insertionOrder
  queue : correlator.insertionOrder.length ≤ bound correlator.config.maxProcesses

/-- What an event evicts is the timeline that was created first. -/
def Watched.EvictsOldest (watched : Watched) (event : KernelEvent) : Prop :=
  ∀ identity, event.identity = some identity →
    ∀ evicted ∈ watched.correlator.timelines,
      evicted ∉ (watched.correlator.ensureCapacity identity).timelines →
        watched.seniority.head? = some evicted

structure Watched.BoundedOldestFirst (bound : Nat → Nat) (watched : Watched)
    (event : KernelEvent) : Prop where
  bounded : (watched.step event).correlator.Bounded bound
  oldest : watched.EvictsOldest event

/-- The first identity in the queue with a timeline came again: another one has
no entry behind some entry of it. -/
def Correlator.Overtaken (correlator : Correlator) : Prop :=
  ∃ identity, correlator.insertionOrder.find? (· ∈ correlator.timelines) = some identity ∧
    ∃ other ∈ correlator.timelines, other ≠ identity ∧
      ∃ after, identity :: after <:+ correlator.insertionOrder ∧ other ∉ after

/-- A timeline is created with a place in the queue, which entries that were left
behind may have taken, or, where none may be added, one is evicted that did not
come again. -/
structure Watched.LeftOrderly (bound : Nat → Nat) (watched : Watched) (event : KernelEvent) :
    Prop where
  place : ∀ identity, event.identity = some identity →
    identity ∉ watched.correlator.timelines →
      watched.correlator.timelines.keys.length < watched.correlator.config.maxProcesses →
        watched.correlator.insertionOrder.length < bound watched.correlator.config.maxProcesses
  front : ∀ identity, event.identity = some identity →
    identity ∉ watched.correlator.timelines →
      watched.correlator.config.maxProcesses ≤ watched.correlator.timelines.keys.length →
        ¬watched.correlator.Overtaken

/-! ## Last entries -/

section LastEntries

variable {α : Type} [DecidableEq α]

theorem dedup_filter (keep : α → Bool) (list : List α) :
    (list.filter keep).dedup = list.dedup.filter keep := by
  induction list with
  | nil => rfl
  | cons first rest inductionHypothesis =>
      by_cases again : first ∈ rest
      · rw [List.dedup_cons_of_mem again, ← inductionHypothesis, List.filter_cons]
        split
        · rename_i kept
          exact List.dedup_cons_of_mem (List.mem_filter.mpr ⟨again, kept⟩)
        · rfl
      · rw [List.dedup_cons_of_notMem again, List.filter_cons, List.filter_cons,
          ← inductionHypothesis]
        split
        · exact List.dedup_cons_of_notMem fun member => again (List.mem_filter.mp member).1
        · rfl

theorem dedup_concat (list : List α) (last : α) :
    (list ++ [last]).dedup = (list.filter (· ≠ last)).dedup ++ [last] := by
  induction list with
  | nil => rfl
  | cons first rest inductionHypothesis =>
      rw [List.cons_append, List.filter_cons]
      by_cases same : first = last
      · rw [if_neg (by simpa using same), ← inductionHypothesis, List.dedup_cons_of_mem]
        exact List.mem_append_right _ (List.mem_singleton.mpr same)
      · rw [if_pos (by simpa using same)]
        by_cases again : first ∈ rest
        · rw [List.dedup_cons_of_mem (List.mem_append_left _ again), inductionHypothesis,
            List.dedup_cons_of_mem (List.mem_filter.mpr ⟨again, by simpa using same⟩)]
        · have new : first ∉ rest ++ [last] := by
            rw [List.mem_append, List.mem_singleton]
            exact not_or.mpr ⟨again, same⟩
          rw [List.dedup_cons_of_notMem new, inductionHypothesis,
            List.dedup_cons_of_notMem fun member => again (List.mem_filter.mp member).1]
          rfl

/-- Without its duplicates a list starts with the element whose last entry comes
first. -/
theorem head_dedup_iff (list : List α) (oldest : α) :
    list.dedup.head? = some oldest ↔
      oldest ∈ list ∧ ∀ other ∈ list, other ≠ oldest →
        ∀ after, oldest :: after <:+ list → other ∈ after := by
  induction list with
  | nil => simp
  | cons first rest inductionHypothesis =>
      by_cases again : first ∈ rest
      · rw [List.dedup_cons_of_mem again, inductionHypothesis]
        have members : ∀ element, element ∈ first :: rest ↔ element ∈ rest := by
          intro element
          rw [List.mem_cons]
          constructor
          · rintro (rfl | member)
            · exact again
            · exact member
          · exact Or.inr
        simp only [members]
        refine and_congr_right fun own => ?_
        constructor
        · intro behind other member distinct after suffix
          rcases List.suffix_cons_iff.mp suffix with whole | later
          · injection whole with _ same
            rw [same]
            exact member
          · exact behind other member distinct after later
        · intro behind other member distinct after suffix
          exact behind other member distinct after (suffix.trans (List.suffix_cons _ _))
      · rw [List.dedup_cons_of_notMem again, List.head?_cons, Option.some_inj]
        constructor
        · rintro rfl
          refine ⟨List.mem_cons_self, ?_⟩
          intro other member distinct after suffix
          rcases List.suffix_cons_iff.mp suffix with whole | later
          · injection whole with _ same
            rw [same]
            exact List.mem_of_ne_of_mem distinct member
          · exact absurd (later.subset List.mem_cons_self) again
        · rintro ⟨own, behind⟩
          by_contra distinct
          have later := List.mem_of_ne_of_mem (Ne.symm distinct) own
          obtain ⟨before, after, split⟩ := List.append_of_mem later
          have suffix : oldest :: after <:+ rest := ⟨before, split.symm⟩
          have member := behind first List.mem_cons_self distinct after
            (suffix.trans (List.suffix_cons _ _))
          exact again (suffix.subset (List.mem_cons_of_mem _ member))

end LastEntries

/-! ## Making room -/

section Room

variable {correlator : Correlator} {identity : ProcessIdentity}

/-- The loop of `ensure_capacity` ends at the first queued identity that has a
timeline. -/
theorem evictOldest_of_queued {timelines : Timelines} {order : List ProcessIdentity}
    (queued : ∃ identity ∈ order, identity ∈ timelines) :
    ∃ left evicted rest, order = left ++ evicted :: rest ∧
      (∀ other ∈ left, other ∉ timelines) ∧ evicted ∈ timelines ∧
        evictOldest timelines order = (timelines.erase evicted, rest) := by
  induction order with
  | nil =>
      obtain ⟨identity, member, -⟩ := queued
      contradiction
  | cons first rest inductionHypothesis =>
      unfold evictOldest
      by_cases lives : first ∈ timelines
      · exact ⟨[], first, rest, rfl, fun other member => absurd member List.not_mem_nil, lives,
          if_pos lives⟩
      · obtain ⟨known, member, alive⟩ := queued
        have later : known ∈ rest := by
          refine List.mem_of_ne_of_mem ?_ member
          rintro rfl
          exact lives alive
        obtain ⟨left, evicted, others, split, gone, present, result⟩ :=
          inductionHypothesis ⟨known, later, alive⟩
        refine ⟨first :: left, evicted, others, by rw [split]; rfl, ?_, present, ?_⟩
        · intro other among
          rcases List.mem_cons.mp among with rfl | among
          · exact lives
          · exact gone other among
        · rw [if_neg lives]
          exact result

/-- With room, or a timeline of its own, nothing is popped; otherwise the first
queued identity with a timeline is evicted. -/
theorem ensureCapacity_full (queued : ∀ other ∈ correlator.timelines,
      other ∈ correlator.insertionOrder)
    (positive : 0 < correlator.config.maxProcesses) (absent : identity ∉ correlator.timelines)
    (full : correlator.config.maxProcesses ≤ correlator.timelines.keys.length) :
    ∃ left evicted rest, correlator.insertionOrder = left ++ evicted :: rest ∧
      (∀ other ∈ left, other ∉ correlator.timelines) ∧ evicted ∈ correlator.timelines ∧
        correlator.ensureCapacity identity =
          { correlator with
            timelines := correlator.timelines.erase evicted, insertionOrder := rest } := by
  obtain ⟨known, alive⟩ := List.exists_mem_of_length_pos (positive.trans_le full)
  obtain ⟨left, evicted, rest, split, gone, present, result⟩ :=
    evictOldest_of_queued ⟨known, queued known alive, alive⟩
  refine ⟨left, evicted, rest, split, gone, present, ?_⟩
  unfold Correlator.ensureCapacity
  rw [if_neg (not_or.mpr ⟨absent, not_lt.mpr full⟩), result]

/-- What `ensure_capacity` leaves for an identity without a timeline. -/
structure Roomy (correlator room : Correlator) : Prop where
  kept : ∀ other ∈ room.timelines, other ∈ correlator.timelines
  order : room.insertionOrder.filter (· ∈ room.timelines) =
    correlator.insertionOrder.filter (· ∈ room.timelines)
  room : room.timelines.keys.length < correlator.config.maxProcesses

theorem ensureCapacity_roomy (queued : ∀ other ∈ correlator.timelines,
      other ∈ correlator.insertionOrder)
    (positive : 0 < correlator.config.maxProcesses)
    (fits : correlator.timelines.keys.length ≤ correlator.config.maxProcesses)
    (absent : identity ∉ correlator.timelines) :
    Roomy correlator (correlator.ensureCapacity identity) := by
  by_cases full : correlator.config.maxProcesses ≤ correlator.timelines.keys.length
  · obtain ⟨left, evicted, rest, split, gone, present, result⟩ :=
      ensureCapacity_full queued positive absent full
    rw [result]
    refine ⟨fun other member => (AList.mem_erase.mp member).2, ?_, ?_⟩
    · dsimp only
      have dropped : (left ++ [evicted]).filter (· ∈ correlator.timelines.erase evicted) = [] := by
        refine List.filter_eq_nil_iff.mpr ?_
        intro other member kept
        have alive := of_decide_eq_true kept
        obtain ⟨distinct, lives⟩ := AList.mem_erase.mp alive
        rcases List.mem_append.mp member with passed | last
        · exact gone other passed lives
        · exact distinct (List.mem_singleton.mp last)
      have whole : correlator.insertionOrder = left ++ [evicted] ++ rest := by
        rw [split, List.append_assoc]
        rfl
      rw [whole, List.filter_append, dropped, List.nil_append]
    · dsimp only
      rw [AList.keys_erase, List.length_erase_of_mem present]
      have positive' := List.length_pos_of_mem present
      omega
  · rw [ensureCapacity_of_room correlator (Or.inr (not_le.mp full))]
    exact ⟨fun other member => member, rfl, not_le.mp full⟩

theorem mem_ensureCapacity_self :
    identity ∈ (correlator.ensureCapacity identity).timelines ↔
      identity ∈ correlator.timelines := by
  rw [← AList.lookup_isSome, ← AList.lookup_isSome, ensureCapacity_lookup_self]

end Room

/-! ## One ingestion -/

section Ingestion

variable (correlator : Correlator) {identity : ProcessIdentity} {event : KernelEvent}

theorem step_order (own : event.identity = some identity) :
    (correlator.step event).insertionOrder =
      if identity ∈ correlator.timelines then (correlator.ensureCapacity identity).insertionOrder
      else (correlator.ensureCapacity identity).insertionOrder ++ [identity] := by
  rw [Correlator.step, ingest_of_identity correlator own]
  unfold Correlator.record Correlator.orderWith
  dsimp only
  simp only [mem_ensureCapacity_self]
  split <;> rfl

theorem step_mem (own : event.identity = some identity) (other : ProcessIdentity) :
    other ∈ (correlator.step event).timelines ↔
      (other = identity ∧ event.isDeath = false) ∨
        (other ≠ identity ∧ other ∈ (correlator.ensureCapacity identity).timelines) := by
  rw [← AList.lookup_isSome]
  by_cases same : other = identity
  · subst same
    rw [step_lookup_self correlator own]
    cases death : event.isDeath with
    | true => simp
    | false => simp
  · rw [step_lookup_other correlator own same, AList.lookup_isSome]
    simp [same]

/-- A timeline that is created joins those that there was room beside. -/
theorem step_mem_of_absent (own : event.identity = some identity)
    (absent : identity ∉ correlator.timelines) (other : ProcessIdentity) :
    other ∈ (correlator.step event).timelines ↔
      (other = identity ∧ event.isDeath = false) ∨
        other ∈ (correlator.ensureCapacity identity).timelines := by
  rw [step_mem correlator own]
  refine or_congr_right ⟨And.right, fun member => ⟨?_, member⟩⟩
  rintro rfl
  exact absent (mem_ensureCapacity_self.mp member)

theorem step_count (own : event.identity = some identity) :
    (correlator.step event).timelines.keys.length ≤
      (((correlator.ensureCapacity identity).timelines.keys).erase identity).length + 1 := by
  rw [Correlator.step, ingest_of_identity correlator own]
  unfold Correlator.record
  dsimp only
  split
  · rw [AList.keys_insert, List.length_cons]
  · rw [AList.keys_erase, AList.keys_insert, List.erase_cons_head]
    exact Nat.le_succ _

end Ingestion

/-! ## The invariant -/

/-- The state is bounded, and the timelines were created in the order of their last
entries. -/
structure Watched.Orderly (bound : Nat → Nat) (watched : Watched) : Prop where
  bounded : watched.correlator.Bounded bound
  processes : 0 < watched.correlator.config.maxProcesses
  capacity : 0 < watched.correlator.config.maxEventsPerProcess
  seniority : watched.seniority =
    (watched.correlator.insertionOrder.filter (· ∈ watched.correlator.timelines)).dedup

section Orderly

variable {bound : Nat → Nat} {watched : Watched}

/-- Filtering by less than the live identities is filtering the queue. -/
theorem Watched.Orderly.seniority_filter (orderly : watched.Orderly bound)
    {keep among : ProcessIdentity → Bool}
    (same : ∀ other, (keep other && decide (other ∈ watched.correlator.timelines)) = among other) :
    watched.seniority.filter keep =
      (watched.correlator.insertionOrder.filter among).dedup := by
  rw [orderly.seniority, ← dedup_filter, List.filter_filter]
  exact congrArg List.dedup (List.filter_congr fun other _ => same other)

theorem Watched.Orderly.roomy (orderly : watched.Orderly bound) {identity : ProcessIdentity}
    (absent : identity ∉ watched.correlator.timelines) :
    Roomy watched.correlator (watched.correlator.ensureCapacity identity) :=
  ensureCapacity_roomy orderly.bounded.queued orderly.processes orderly.bounded.timelines absent

/-- An event of a live identity creates nothing. -/
theorem Watched.Orderly.seniority_present (orderly : watched.Orderly bound) {event : KernelEvent}
    {identity : ProcessIdentity} (own : event.identity = some identity)
    (lives : identity ∈ watched.correlator.timelines) :
    (watched.step event).seniority =
      ((watched.step event).correlator.insertionOrder.filter
        (· ∈ (watched.step event).correlator.timelines)).dedup := by
  have room := ensureCapacity_of_room watched.correlator (Or.inl lives)
  have created : [identity].filter (fun identity =>
      identity ∉ watched.correlator.timelines ∧
        identity ∈ (watched.correlator.step event).timelines) = [] :=
    List.filter_eq_nil_iff.mpr (by simp [lives])
  unfold Watched.step
  dsimp only
  rw [own, step_order _ own, if_pos lives, room]
  change _ ++ [identity].filter _ = _
  rw [created, List.append_nil]
  refine orderly.seniority_filter fun other => ?_
  rw [Bool.and_eq_left_iff_imp]
  intro kept
  have member := (step_mem _ own other).mp (of_decide_eq_true kept)
  rw [room] at member
  rcases member with ⟨rfl, -⟩ | ⟨-, member⟩
  · exact decide_eq_true lives
  · exact decide_eq_true member

/-- What survives of the timelines when another is created. -/
theorem Watched.Orderly.survivors (orderly : watched.Orderly bound) {event : KernelEvent}
    {identity : ProcessIdentity} (own : event.identity = some identity)
    (absent : identity ∉ watched.correlator.timelines) :
    watched.seniority.filter (· ∈ (watched.correlator.step event).timelines) =
      ((watched.correlator.ensureCapacity identity).insertionOrder.filter
        (· ∈ (watched.correlator.ensureCapacity identity).timelines)).dedup := by
  have roomy := orderly.roomy absent
  rw [roomy.order]
  refine orderly.seniority_filter fun other => ?_
  rw [Bool.eq_iff_iff, Bool.and_eq_true, decide_eq_true_iff, decide_eq_true_iff,
    decide_eq_true_iff, step_mem_of_absent _ own absent]
  constructor
  · rintro ⟨⟨rfl, -⟩ | member, alive⟩
    · exact absurd alive absent
    · exact member
  · intro member
    exact ⟨Or.inr member, roomy.kept other member⟩

/-- A new identity comes last, unless it is gone at once. -/
theorem Watched.Orderly.seniority_created (orderly : watched.Orderly bound) {event : KernelEvent}
    {identity : ProcessIdentity} (own : event.identity = some identity)
    (absent : identity ∉ watched.correlator.timelines) :
    (watched.step event).seniority =
      ((watched.step event).correlator.insertionOrder.filter
        (· ∈ (watched.step event).correlator.timelines)).dedup := by
  have notThere : identity ∉ (watched.correlator.ensureCapacity identity).timelines :=
    fun member => absent (mem_ensureCapacity_self.mp member)
  unfold Watched.step
  dsimp only
  rw [own, step_order _ own, if_neg absent]
  change _ ++ [identity].filter _ = _
  rw [orderly.survivors own absent, List.filter_append, List.filter_singleton,
    List.filter_singleton]
  cases death : event.isDeath with
  | true =>
      have gone : identity ∉ (watched.correlator.step event).timelines := by
        rw [step_mem_of_absent _ own absent, death]
        rintro (⟨-, alive⟩ | member)
        · contradiction
        · exact notThere member
      rw [decide_eq_false gone, decide_eq_false fun created => gone created.2]
      simp only [cond_false, List.append_nil]
      refine congrArg List.dedup (List.filter_congr fun other _ => ?_)
      rw [decide_eq_decide, step_mem_of_absent _ own absent, death]
      constructor
      · exact Or.inr
      · rintro (⟨-, alive⟩ | member)
        · contradiction
        · exact member
  | false =>
      have new : identity ∈ (watched.correlator.step event).timelines := by
        rw [step_mem_of_absent _ own absent]
        exact Or.inl ⟨rfl, death⟩
      rw [decide_eq_true new, decide_eq_true ⟨absent, new⟩]
      simp only [cond_true]
      rw [dedup_concat, List.filter_filter]
      refine congrArg (· ++ [identity]) (congrArg List.dedup (List.filter_congr ?_))
      intro other _
      rw [Bool.eq_iff_iff, Bool.and_eq_true, decide_eq_true_iff, decide_eq_true_iff,
        decide_eq_true_iff, step_mem_of_absent _ own absent]
      constructor
      · intro member
        refine ⟨?_, Or.inr member⟩
        rintro rfl
        exact notThere member
      · rintro ⟨distinct, ⟨same, -⟩ | member⟩
        · exact absurd same distinct
        · exact member

/-- The step lemma of the order of creation. -/
theorem Watched.Orderly.seniority_step (orderly : watched.Orderly bound) (event : KernelEvent) :
    (watched.step event).seniority =
      ((watched.step event).correlator.insertionOrder.filter
        (· ∈ (watched.step event).correlator.timelines)).dedup := by
  cases own : event.identity with
  | none =>
      unfold Watched.step
      dsimp only
      rw [own, step_of_no_identity _ own]
      dsimp only [Option.toList, List.filter_nil]
      rw [List.append_nil, orderly.seniority_filter fun other => Bool.and_self _]
  | some identity =>
      by_cases lives : identity ∈ watched.correlator.timelines
      · exact orderly.seniority_present own lives
      · exact orderly.seniority_created own lives

/-- What a step bounds in every run. -/
theorem Watched.Orderly.timelines_step (orderly : watched.Orderly bound) (event : KernelEvent) :
    (watched.correlator.step event).timelines.keys.length ≤
      watched.correlator.config.maxProcesses := by
  cases own : event.identity with
  | none =>
      rw [step_of_no_identity _ own]
      exact orderly.bounded.timelines
  | some identity =>
      have count := step_count watched.correlator own
      by_cases lives : identity ∈ watched.correlator.timelines
      · have positive := List.length_pos_of_mem lives
        rw [ensureCapacity_of_room _ (Or.inl lives), List.length_erase_of_mem lives] at count
        have fits := orderly.bounded.timelines
        omega
      · have roomy := (orderly.roomy lives).room
        rw [List.erase_of_not_mem fun member => lives (mem_ensureCapacity_self.mp member)] at count
        omega

theorem Watched.Orderly.events_step (orderly : watched.Orderly bound) (event : KernelEvent)
    (identity : ProcessIdentity) (timeline : Timeline)
    (found : (watched.correlator.step event).timelines.lookup identity = some timeline) :
    timeline.events.length ≤ watched.correlator.config.maxEventsPerProcess := by
  rcases step_lookup_cases watched.correlator event identity with
    dropped | ⟨-, same⟩ | ⟨-, pushed⟩
  · rw [dropped] at found
    contradiction
  · rw [same] at found
    exact orderly.bounded.events identity timeline found
  · rw [pushed] at found
    injection found with same
    rw [← same]
    have before : (watched.correlator.timeline identity).events.length ≤
        watched.correlator.config.maxEventsPerProcess := by
      unfold Correlator.timeline
      cases held : watched.correlator.timelines.lookup identity with
      | none => exact Nat.zero_le _
      | some timeline => exact orderly.bounded.events identity timeline held
    have capacity := orderly.capacity
    unfold Correlator.pushed Timeline.push Timeline.kept
    dsimp only
    rw [List.length_append, List.length_singleton]
    split
    · rw [List.length_tail]
      omega
    · omega

theorem Watched.Orderly.queued_step (orderly : watched.Orderly bound) (event : KernelEvent)
    (other : ProcessIdentity) (lives : other ∈ (watched.correlator.step event).timelines) :
    other ∈ (watched.correlator.step event).insertionOrder := by
  cases own : event.identity with
  | none =>
      rw [step_of_no_identity _ own] at lives ⊢
      exact orderly.bounded.queued other lives
  | some identity =>
      rw [step_mem _ own] at lives
      rw [step_order _ own]
      by_cases present : identity ∈ watched.correlator.timelines
      · rw [if_pos present]
        rw [ensureCapacity_of_room _ (Or.inl present)] at lives ⊢
        rcases lives with ⟨rfl, -⟩ | ⟨-, member⟩
        · exact orderly.bounded.queued other present
        · exact orderly.bounded.queued other member
      · rw [if_neg present, List.mem_append, List.mem_singleton]
        rcases lives with ⟨rfl, -⟩ | ⟨-, member⟩
        · exact Or.inr rfl
        · have roomy := orderly.roomy present
          have queued : other ∈ watched.correlator.insertionOrder.filter
              (· ∈ (watched.correlator.ensureCapacity identity).timelines) :=
            List.mem_filter.mpr
              ⟨orderly.bounded.queued other (roomy.kept other member), decide_eq_true member⟩
          rw [← roomy.order] at queued
          exact Or.inl (List.mem_filter.mp queued).1

/-- The queue keeps its bound exactly when a new entry has its place. -/
theorem Watched.Orderly.queue_step_iff (orderly : watched.Orderly bound) (event : KernelEvent) :
    (watched.correlator.step event).insertionOrder.length ≤
        bound watched.correlator.config.maxProcesses ↔
      ∀ identity, event.identity = some identity →
        identity ∉ watched.correlator.timelines →
          watched.correlator.timelines.keys.length < watched.correlator.config.maxProcesses →
            watched.correlator.insertionOrder.length <
              bound watched.correlator.config.maxProcesses := by
  have before := orderly.bounded.queue
  cases own : event.identity with
  | none =>
      rw [step_of_no_identity _ own]
      constructor
      · intro _ identity impossible
        contradiction
      · intro _
        exact before
  | some identity =>
      have onlyOwn : ∀ {property : ProcessIdentity → Prop},
          (∀ other, some identity = some other → property other) ↔ property identity := by
        intro property
        constructor
        · intro every
          exact every identity rfl
        · intro holds other same
          rw [← Option.some.inj same]
          exact holds
      rw [onlyOwn, step_order _ own]
      by_cases lives : identity ∈ watched.correlator.timelines
      · rw [if_pos lives, ensureCapacity_of_room _ (Or.inl lives)]
        constructor
        · intro _ absent
          exact absurd lives absent
        · intro _
          exact before
      · rw [if_neg lives, List.length_append, List.length_singleton]
        by_cases full : watched.correlator.config.maxProcesses ≤
            watched.correlator.timelines.keys.length
        · obtain ⟨left, evicted, rest, split, -, -, result⟩ :=
            ensureCapacity_full orderly.bounded.queued orderly.processes lives full
          rw [split, List.length_append, List.length_cons] at before
          rw [result]
          constructor
          · intro _ _ room
            exact absurd full (not_le.mpr room)
          · intro _
            dsimp only
            omega
        · rw [ensureCapacity_of_room _ (Or.inr (not_le.mp full))]
          constructor
          · intro fits _ _
            exact fits
          · intro place
            exact place lives (not_le.mp full)

/-- The front of the queue is the oldest identity exactly when it was not overtaken. -/
theorem Watched.Orderly.front_oldest_iff (orderly : watched.Orderly bound)
    {evicted : ProcessIdentity}
    (front : watched.correlator.insertionOrder.find? (· ∈ watched.correlator.timelines) =
      some evicted) :
    watched.seniority.head? = some evicted ↔ ¬watched.correlator.Overtaken := by
  have alive := List.find?_some front
  have queued := List.mem_of_find?_eq_some front
  rw [orderly.seniority, head_dedup_iff]
  constructor
  · rintro ⟨-, behind⟩ ⟨identity, own, other, lives, distinct, after, suffix, ahead⟩
    rw [front] at own
    injection own with same
    rw [← same] at distinct suffix
    have among : other ∈ watched.correlator.insertionOrder.filter
        (· ∈ watched.correlator.timelines) :=
      List.mem_filter.mpr ⟨orderly.bounded.queued other lives, decide_eq_true lives⟩
    have filtered := suffix.filter (· ∈ watched.correlator.timelines)
    rw [List.filter_cons, if_pos alive] at filtered
    exact ahead (List.mem_filter.mp (behind other among distinct _ filtered)).1
  · intro first
    refine ⟨List.mem_filter.mpr ⟨queued, alive⟩, ?_⟩
    intro other among distinct after suffix
    obtain ⟨-, lives⟩ := List.mem_filter.mp among
    obtain ⟨whole, ofQueue, kept⟩ := List.suffix_filter_iff.mp suffix
    obtain ⟨passed, rest, split, -, -, same⟩ := List.filter_eq_cons_iff.mp kept.symm
    have later : evicted :: rest <:+ whole := ⟨passed, split.symm⟩
    by_contra ahead
    refine first ⟨evicted, front, other, of_decide_eq_true lives, distinct, rest, ?_, ?_⟩
    · exact later.trans ofQueue
    · intro member
      rw [← same] at ahead
      exact ahead (List.mem_filter.mpr ⟨member, lives⟩)

theorem Watched.Orderly.evictsOldest_iff (orderly : watched.Orderly bound)
    (event : KernelEvent) :
    watched.EvictsOldest event ↔
      ∀ identity, event.identity = some identity →
        identity ∉ watched.correlator.timelines →
          watched.correlator.config.maxProcesses ≤ watched.correlator.timelines.keys.length →
            ¬watched.correlator.Overtaken := by
  unfold Watched.EvictsOldest
  refine forall_congr' fun identity => imp_congr_right fun own => ?_
  by_cases full : identity ∉ watched.correlator.timelines ∧
      watched.correlator.config.maxProcesses ≤ watched.correlator.timelines.keys.length
  · obtain ⟨left, evicted, rest, split, gone, present, result⟩ :=
      ensureCapacity_full orderly.bounded.queued orderly.processes full.1 full.2
    have front : watched.correlator.insertionOrder.find?
        (· ∈ watched.correlator.timelines) = some evicted := by
      refine List.find?_eq_some_iff_append.mpr ⟨decide_eq_true present, left, rest, split, ?_⟩
      intro other member
      rw [decide_eq_false (gone other member)]
      rfl
    rw [result, ← orderly.front_oldest_iff front]
    constructor
    · intro oldest _ _
      exact oldest evicted present fun member => (AList.mem_erase.mp member).1 rfl
    · intro oldest other lives removed
      have same : other = evicted := by
        by_contra distinct
        exact removed (AList.mem_erase.mpr ⟨distinct, lives⟩)
      rw [same]
      exact oldest full.1 full.2
  · have room : identity ∈ watched.correlator.timelines ∨
        watched.correlator.timelines.keys.length < watched.correlator.config.maxProcesses := by
      rcases not_and_or.mp full with lives | few
      · exact Or.inl (not_not.mp lives)
      · exact Or.inr (not_le.mp few)
    rw [ensureCapacity_of_room _ room]
    constructor
    · intro _ absent most
      exact absurd ⟨absent, most⟩ full
    · intro _ evicted lives removed
      exact absurd lives removed

/-- The step lemma: a step keeps the bounds and evicts the oldest exactly when the
entries that were left behind do not stand in its way. -/
theorem Watched.Orderly.boundedOldestFirst_iff (orderly : watched.Orderly bound)
    (event : KernelEvent) :
    watched.BoundedOldestFirst bound event ↔ watched.LeftOrderly bound event := by
  constructor
  · intro first
    have queue := first.bounded.queue
    change (watched.correlator.step event).insertionOrder.length ≤
      bound (watched.correlator.step event).config.maxProcesses at queue
    rw [step_config] at queue
    exact ⟨(orderly.queue_step_iff event).mp queue,
      (orderly.evictsOldest_iff event).mp first.oldest⟩
  · intro left
    refine ⟨⟨?_, ?_, orderly.queued_step event, ?_⟩,
      (orderly.evictsOldest_iff event).mpr left.front⟩
    · change _ ≤ (watched.correlator.step event).config.maxProcesses
      rw [step_config]
      exact orderly.timelines_step event
    · change ∀ identity timeline, _ → _ ≤
        (watched.correlator.step event).config.maxEventsPerProcess
      rw [step_config]
      exact orderly.events_step event
    · change _ ≤ bound (watched.correlator.step event).config.maxProcesses
      rw [step_config]
      exact (orderly.queue_step_iff event).mpr left.place

theorem Watched.Orderly.step (orderly : watched.Orderly bound) {event : KernelEvent}
    (first : watched.BoundedOldestFirst bound event) : (watched.step event).Orderly bound where
  bounded := first.bounded
  processes := by
    change 0 < (watched.correlator.step event).config.maxProcesses
    rw [step_config]
    exact orderly.processes
  capacity := by
    change 0 < (watched.correlator.step event).config.maxEventsPerProcess
    rw [step_config]
    exact orderly.capacity
  seniority := orderly.seniority_step event

end Orderly

theorem orderly_new {config : CorrelatorConfig} {correlator : Correlator}
    (opened : Correlator.new config = some correlator) (bound : Nat → Nat) :
    Watched.Orderly bound ⟨correlator, []⟩ := by
  unfold Correlator.new at opened
  split at opened
  · rename_i positive
    injection opened with same
    rw [← same]
    refine ⟨⟨Nat.zero_le _, ?_, ?_, Nat.zero_le _⟩, positive.1, positive.2, rfl⟩
    · intro identity timeline found
      contradiction
    · intro identity member
      exact absurd member (AList.notMem_empty identity)
  · contradiction

/-- Over every run: the queue keeps any bound by `max_processes` and what is evicted
is the oldest exactly when no entry of a timeline that is gone takes the place of a
new one or stands at the front for an identity that came again. -/
theorem bounded_oldest_first_iff (bound : Nat → Nat) (config : CorrelatorConfig)
    (correlator : Correlator) (opened : Correlator.new config = some correlator)
    (events : List KernelEvent) :
    (correlator.Bounded bound ∧
      Machine.EveryStep Watched.step (Watched.BoundedOldestFirst bound) ⟨correlator, []⟩ events) ↔
        Machine.EveryStep Watched.step (Watched.LeftOrderly bound) ⟨correlator, []⟩ events := by
  have start := orderly_new opened bound
  rw [and_iff_right start.bounded]
  exact Machine.everyStep_iff_of_established Watched.step (Watched.Orderly bound)
    (Watched.BoundedOldestFirst bound) (Watched.LeftOrderly bound)
    (fun _ _ orderly first => orderly.step first)
    (fun _ event orderly => orderly.boundedOldestFirst_iff event) ⟨correlator, []⟩ events start

theorem bounded_oldest_first_iff_death :
    (Correlator.Bounded (· + 1) ⟨⟨2, 2⟩, ∅, [], 0⟩ ∧
      Machine.EveryStep Watched.step (Watched.BoundedOldestFirst (· + 1))
        ⟨⟨⟨2, 2⟩, ∅, [], 0⟩, []⟩
        [.oomVictim 1 ⟨1, 1⟩ 0 .memcg, .processExit 2 ⟨1, 1⟩ 1 0 0 9 true,
          .oomVictim 3 ⟨2, 3⟩ 0 .memcg]) :=
  (bounded_oldest_first_iff (· + 1) ⟨2, 2⟩ ⟨⟨2, 2⟩, ∅, [], 0⟩ rfl
    [.oomVictim 1 ⟨1, 1⟩ 0 .memcg, .processExit 2 ⟨1, 1⟩ 1 0 0 9 true,
      .oomVictim 3 ⟨2, 3⟩ 0 .memcg]).mpr (by
      rw [Machine.everyStep_cons, Machine.everyStep_cons, Machine.everyStep_cons]
      refine ⟨⟨?_, ?_⟩, ⟨?_, ?_⟩, ⟨?_, ?_⟩, by simp [Machine.EveryStep, Machine.visited]⟩
      · exact fun _ _ _ _ => by decide
      · exact fun _ _ _ full => absurd full (by decide)
      · exact fun _ _ _ _ => by decide
      · exact fun _ _ _ full => absurd full (by decide)
      · exact fun _ _ _ _ => by decide
      · exact fun _ _ _ full => absurd full (by decide))

/-! ## Entries that stay -/

/-- Deaths alone fill the queue, whose timelines are all gone. -/
theorem deaths_fill_the_queue (correlator : Correlator)
    (processes : 0 < correlator.config.maxProcesses) (gone : correlator.timelines.keys = [])
    (events : List KernelEvent) (deaths : ∀ event ∈ events, event.isDeath = true) :
    (Machine.run Correlator.step correlator events).insertionOrder.length =
      correlator.insertionOrder.length + events.length := by
  induction events generalizing correlator with
  | nil => rfl
  | cons event rest inductionHypothesis =>
      have death := deaths event List.mem_cons_self
      obtain ⟨identity, own⟩ := event.identity_of_isDeath death
      have absent : ∀ other, other ∉ correlator.timelines := by
        intro other member
        have key : other ∈ correlator.timelines.keys := member
        rw [gone] at key
        contradiction
      have room : correlator.ensureCapacity identity = correlator :=
        ensureCapacity_of_room correlator (Or.inr (by rw [gone]; exact processes))
      have none : (correlator.step event).timelines.keys = [] := by
        refine List.eq_nil_iff_forall_not_mem.mpr fun other member => ?_
        rcases (step_mem_of_absent correlator own (absent identity) other).mp member with
          ⟨-, alive⟩ | kept
        · rw [death] at alive
          contradiction
        · rw [room] at kept
          exact absent other kept
      have order := step_order correlator own
      rw [if_neg (absent identity), room] at order
      rw [Machine.run_cons, inductionHypothesis (correlator.step event) (by
          rw [step_config]
          exact processes) none fun other member => deaths other (List.mem_cons_of_mem _ member),
        order, List.length_append, List.length_singleton, List.length_cons]
      omega

/-- A process dies and one of its threads exits behind that: its old entry evicts its
new timeline in place of the other one, which is older.  And no bound holds for a
queue that only deaths are added to. -/
theorem dead_entries_evict_and_leak :
    (¬∃ bound : Nat → Nat,
      Machine.EveryStep Watched.step (Watched.BoundedOldestFirst bound)
        ⟨⟨⟨2, 2⟩, ∅, [], 0⟩, []⟩
        [.oomVictim 1 ⟨1, 1⟩ 0 .memcg, .processExit 2 ⟨1, 1⟩ 1 0 0 9 true,
          .oomVictim 3 ⟨2, 3⟩ 0 .memcg, .processExit 4 ⟨1, 1⟩ 9 0 0 9 false,
          .oomVictim 5 ⟨3, 5⟩ 0 .memcg]) ∧
    ¬∃ bound : Nat → Nat, ∀ count,
      (Machine.run Correlator.step ⟨⟨1, 1⟩, ∅, [], 0⟩
        (List.replicate count (.processExit 2 ⟨1, 1⟩ 1 0 0 9 true))).insertionOrder.length ≤
          bound 1 := by
  constructor
  · rintro ⟨bound, every⟩
    let before : List KernelEvent :=
      [.oomVictim 1 ⟨1, 1⟩ 0 .memcg, .processExit 2 ⟨1, 1⟩ 1 0 0 9 true,
        .oomVictim 3 ⟨2, 3⟩ 0 .memcg, .processExit 4 ⟨1, 1⟩ 9 0 0 9 false]
    let reached := Machine.run Watched.step ⟨⟨⟨2, 2⟩, ∅, [], 0⟩, []⟩ before
    have last := every (reached, .oomVictim 5 ⟨3, 5⟩ 0 .memcg)
      ((Machine.mem_visited_iff _ _ _ _).mpr ⟨before, [], rfl, rfl⟩)
    have oldest := last.oldest ⟨3, 5⟩ rfl ⟨1, 1⟩ (by decide) (by decide)
    revert oldest
    decide
  · rintro ⟨bound, small⟩
    have filled := deaths_fill_the_queue ⟨⟨1, 1⟩, ∅, [], 0⟩ Nat.one_pos rfl
      (List.replicate (bound 1 + 1) (.processExit 2 ⟨1, 1⟩ 1 0 0 9 true)) (by
        intro event member
        rw [List.eq_of_mem_replicate member]
        rfl)
    have fits := small (bound 1 + 1)
    rw [filled, List.length_replicate] at fits
    change 0 + _ ≤ _ at fits
    omega

end SystemPilot.Forensics
