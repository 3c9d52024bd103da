import SystemPilot.Forensics.Unbounded

/-!
# The correlator within its capacity

As long as no timeline has to be evicted, the correlator holds for each identity
the last events of the unbounded one.  Its reports are then a function of the
events of one identity and of the losses among them, whatever other processes,
earlier users of the same pid among them, do in between.
-/

set_option autoImplicit false

namespace SystemPilot.Forensics

open SystemPilot.Library

/-! ## Capacity -/

/-- The identities with an open timeline. -/
def openIdentities (history : List KernelEvent) : Finset ProcessIdentity :=
  (history.filterMap KernelEvent.identity).toFinset.filter fun identity =>
    ownEvents identity history ≠ []

/-- While an event is ingested its own identity has a timeline too, opened for
it if need be. -/
def openDuring (history : List KernelEvent) (event : KernelEvent) : Finset ProcessIdentity :=
  openIdentities history ∪ event.identity.toFinset

/-- The number of open timelines never exceeds `max_processes`. -/
def WithinCapacity (config : CorrelatorConfig) (events : List KernelEvent) : Prop :=
  ∀ before event after, events = before ++ event :: after →
    (openDuring before event).card ≤ config.maxProcesses

theorem mem_openIdentities_iff {identity : ProcessIdentity} {history : List KernelEvent} :
    identity ∈ openIdentities history ↔ ownEvents identity history ≠ [] := by
  unfold openIdentities
  rw [Finset.mem_filter, List.mem_toFinset, and_iff_right_iff_imp]
  intro some
  obtain ⟨event, member⟩ := List.exists_mem_of_ne_nil _ some
  rw [ownEvents, List.mem_filter] at member
  have ingested := (List.rtakeWhile_suffix _ _).subset member.1
  exact List.mem_filterMap.mpr ⟨event, ingested, by simpa [belongsTo] using member.2⟩

theorem WithinCapacity.initial {config : CorrelatorConfig} {events : List KernelEvent}
    {event : KernelEvent} (capacity : WithinCapacity config (events ++ [event])) :
    WithinCapacity config events := by
  intro before middle after split
  exact capacity before middle (after ++ [event]) (by rw [split]; simp)

theorem WithinCapacity.last {config : CorrelatorConfig} {events : List KernelEvent}
    {event : KernelEvent} (capacity : WithinCapacity config (events ++ [event])) :
    (openDuring events event).card ≤ config.maxProcesses :=
  capacity events event [] rfl

/-- A history is within capacity as long as it is short. -/
theorem withinCapacity_of_length_le {config : CorrelatorConfig} {events : List KernelEvent}
    (short : events.length ≤ config.maxProcesses) : WithinCapacity config events := by
  intro before event after split
  have lengths : events.length = before.length + (after.length + 1) := by
    rw [split, List.length_append, List.length_cons]
  have opened : (openIdentities before).card ≤ before.length :=
    (Finset.card_filter_le _ _).trans
      ((List.toFinset_card_le _).trans (List.length_filterMap_le _ _))
  have own : event.identity.toFinset.card ≤ 1 := by
    cases event.identity <;> simp
  have together := Finset.card_union_le (openIdentities before) event.identity.toFinset
  unfold openDuring
  omega

/-! ## The ring -/

/-- The last events of a timeline. -/
def Timeline.truncate (maxEvents : Nat) (timeline : Timeline) : Timeline :=
  { timeline with events := timeline.events.rtake maxEvents }

/-- Pushing to a ring of the last events gives the last events. -/
theorem push_truncate {maxEvents : Nat} (nonzero : 0 < maxEvents) (timeline : Timeline)
    (event : KernelEvent) :
    (timeline.truncate maxEvents).push maxEvents event =
      Timeline.truncate maxEvents { timeline with events := timeline.events ++ [event] } := by
  obtain ⟨count, rfl⟩ := Nat.exists_eq_succ_of_ne_zero nonzero.ne'
  have kept : (timeline.truncate (count + 1)).kept (count + 1) = timeline.events.rtake count := by
    unfold Timeline.kept Timeline.truncate List.rtake
    rw [List.length_drop, List.tail_drop]
    split
    · rename_i full
      congr 1
      omega
    · rename_i notFull
      have same : timeline.events.length - (count + 1) = timeline.events.length - count := by omega
      exact congrArg (fun dropped => timeline.events.drop dropped) same
  unfold Timeline.push
  rw [kept]
  unfold Timeline.truncate
  rw [Nat.succ_eq_add_one, List.rtake_concat_succ]

/-- The bounded store holds the last events of the unbounded one's timelines. -/
structure Simulates (config : CorrelatorConfig) (correlator : Correlator)
    (unbounded : UnboundedCorrelator) : Prop where
  sameConfig : correlator.config = config
  epoch : correlator.telemetryLossEpoch = unbounded.telemetryLossEpoch
  timelines : ∀ identity, correlator.timelines.lookup identity =
    (unbounded.timelines.lookup identity).map (Timeline.truncate config.maxEventsPerProcess)

section Simulation

variable {config : CorrelatorConfig} {correlator : Correlator} {unbounded : UnboundedCorrelator}
variable {history : List KernelEvent}

theorem simulates_new (opened : Correlator.new config = some correlator) :
    Simulates config correlator .empty := by
  unfold Correlator.new at opened
  split at opened
  · cases opened
    exact ⟨rfl, rfl, fun _ => rfl⟩
  · cases opened

theorem bounds_of_new (opened : Correlator.new config = some correlator) :
    0 < config.maxProcesses ∧ 0 < config.maxEventsPerProcess := by
  unfold Correlator.new at opened
  split at opened
  · assumption
  · cases opened

theorem Simulates.timeline (simulates : Simulates config correlator unbounded)
    (identity : ProcessIdentity) :
    correlator.timeline identity =
      (unbounded.timeline identity).truncate config.maxEventsPerProcess := by
  unfold Correlator.timeline UnboundedCorrelator.timeline
  rw [simulates.timelines, simulates.epoch]
  cases unbounded.timelines.lookup identity with
  | none => simp [Timeline.truncate]
  | some timeline => rfl

theorem Simulates.room (simulates : Simulates config correlator unbounded)
    (means : Means history unbounded) {event : KernelEvent} {identity : ProcessIdentity}
    (own : event.identity = some identity)
    (capacity : (openDuring history event).card ≤ config.maxProcesses) :
    identity ∈ correlator.timelines ∨
      correlator.timelines.keys.length < correlator.config.maxProcesses := by
  by_cases present : identity ∈ correlator.timelines
  · exact Or.inl present
  · refine Or.inr ?_
    have nodup : (identity :: correlator.timelines.keys).Nodup :=
      List.nodup_cons.mpr ⟨mt AList.mem_keys.mpr present, correlator.timelines.keys_nodup⟩
    have opens : (identity :: correlator.timelines.keys).toFinset ⊆ openDuring history event := by
      intro other member
      unfold openDuring
      rw [Finset.mem_union]
      rcases List.mem_cons.mp (List.mem_toFinset.mp member) with rfl | listed
      · exact Or.inr (by simp [own])
      · refine Or.inl (mem_openIdentities_iff.mpr ?_)
        have held := AList.lookup_isSome.mpr (AList.mem_keys.mpr listed)
        rw [simulates.timelines, Option.isSome_map] at held
        obtain ⟨timeline, found⟩ := Option.isSome_iff_exists.mp held
        exact (means.events other timeline found).1
    have counted := Finset.card_le_card opens
    rw [List.toFinset_card_of_nodup nodup, List.length_cons] at counted
    rw [simulates.sameConfig]
    omega

/-- The step lemma of the simulation. -/
theorem simulates_step (simulates : Simulates config correlator unbounded)
    (means : Means history unbounded) (nonzero : 0 < config.maxEventsPerProcess)
    {event : KernelEvent} (capacity : (openDuring history event).card ≤ config.maxProcesses) :
    Simulates config (correlator.step event) (unbounded.step event) where
  sameConfig := by rw [step_config, simulates.sameConfig]
  epoch := by rw [step_epoch, unbounded.step_epoch, simulates.epoch]
  timelines := by
    intro identity
    by_cases own : event.identity = some identity
    · rw [step_lookup_self correlator own, unbounded.step_lookup_self own]
      split
      · rfl
      · unfold Correlator.pushed
        rw [simulates.timeline, simulates.sameConfig, push_truncate nonzero]
        rfl
    · rw [unbounded.step_lookup_other own, ← simulates.timelines]
      cases about : event.identity with
      | none => rw [step_of_no_identity correlator about]
      | some owner =>
          have distinct : identity ≠ owner := fun same => own (by rw [about, same])
          rw [step_lookup_other correlator about distinct,
            ensureCapacity_of_room correlator (simulates.room means about capacity)]

theorem simulates_run (opened : Correlator.new config = some correlator)
    (events : List KernelEvent) (capacity : WithinCapacity config events) :
    Simulates config (Machine.run Correlator.step correlator events)
      (Machine.run UnboundedCorrelator.step .empty events) := by
  induction events using List.reverseRecOn with
  | nil => exact simulates_new opened
  | append_singleton events event inductionHypothesis =>
      rw [Machine.run_append, Machine.run_append]
      exact simulates_step (inductionHypothesis capacity.initial) (means_run events)
        (bounds_of_new opened).2 capacity.last

end Simulation

/-! ## Reports -/

/-- The report of a leader's exit, from the events of its identity alone. -/
def referenceReport (config : CorrelatorConfig) (identity : ProcessIdentity)
    (history : List KernelEvent) (event : KernelEvent) : Option DeathReport :=
  if exitsOf identity event then
    classify identity ((ownEvents identity history ++ [event]).rtake config.maxEventsPerProcess)
      (decide (lossesSince identity history ≠ 0))
  else none

/-- The reports of an identity over a run. -/
def reportsOf (correlator : Correlator) (identity : ProcessIdentity)
    (events : List KernelEvent) : List DeathReport :=
  (Machine.visited Correlator.step correlator events).filterMap fun pair =>
    match (pair.1.ingest pair.2).2 with
    | .death report => if report.identity = identity then some report else none
    | _ => none

/-- The events that matter for an identity: its own and the losses. -/
def concerns (identity : ProcessIdentity) (event : KernelEvent) : Bool :=
  belongsTo identity event || event.isLoss

section Reports

variable {config : CorrelatorConfig} {correlator : Correlator}

theorem exitsOf_iff {identity : ProcessIdentity} {event : KernelEvent} :
    exitsOf identity event = true ↔ event.isDeath = true ∧ event.identity = some identity := by
  simp [exitsOf]

/-- A leader's exit is reported as the reference says. -/
theorem outcome_eq_reference (opened : Correlator.new config = some correlator)
    {history : List KernelEvent} {event : KernelEvent} {identity : ProcessIdentity}
    (capacity : WithinCapacity config history)
    (losses : history.countP KernelEvent.isLoss < 2 ^ 64)
    (exits : exitsOf identity event = true) :
    ∃ report, referenceReport config identity history event = some report ∧
      ((Machine.run Correlator.step correlator history).ingest event).2 = .death report ∧
      report.identity = identity ∧
      report.evidenceIncomplete = decide (lossesSince identity history ≠ 0) := by
  have simulates := simulates_run opened history capacity
  have means := means_run history
  obtain ⟨death, own⟩ := exitsOf_iff.mp exits
  obtain ⟨exit, found⟩ := leaderExit_of_isDeath death own
  have ring := push_truncate (bounds_of_new opened).2
    ((Machine.run UnboundedCorrelator.step .empty history).timeline identity) event
  have pushed : (Machine.run Correlator.step correlator history).kept identity ++ [event] =
      (ownEvents identity history ++ [event]).rtake config.maxEventsPerProcess := by
    unfold Correlator.kept
    rw [simulates.timeline, simulates.sameConfig, ← means.timeline_events]
    exact congrArg Timeline.events ring
  have lost : (Machine.run Correlator.step correlator history).lostSince identity =
      decide (lossesSince identity history ≠ 0) := by
    rw [← means.lostSince_eq identity losses]
    unfold Correlator.lostSince UnboundedCorrelator.lostSince
    rw [simulates.timeline, simulates.epoch]
    rfl
  refine ⟨exitReport identity exit ((Machine.run Correlator.step correlator history).kept identity)
    ((Machine.run Correlator.step correlator history).lostSince identity), ?_,
    outcome_of_leaderExit _ found, rfl, lost⟩
  rw [referenceReport, if_pos exits, ← pushed, ← lost, classify_concat_exit found]

/-- Only what concerns an identity bears on its events and its losses. -/
theorem ownEvents_filter_concerns (identity : ProcessIdentity) (history : List KernelEvent) :
    ownEvents identity (history.filter (concerns identity)) = ownEvents identity history ∧
      lossesSince identity (history.filter (concerns identity)) = lossesSince identity history := by
  induction history using List.reverseRecOn with
  | nil => exact ⟨rfl, rfl⟩
  | append_singleton history event inductionHypothesis =>
      obtain ⟨sameEvents, sameLosses⟩ := inductionHypothesis
      rw [List.filter_append]
      by_cases own : event.identity = some identity
      · have kept : List.filter (concerns identity) [event] = [event] := by
          simp [concerns, belongsTo, own]
        rw [kept]
        cases death : event.isDeath with
        | true =>
            have exits := exitsOf_iff.mpr ⟨death, own⟩
            simp only [ownEvents_concat_exit _ exits, lossesSince_concat_exit _ exits, and_self]
        | false =>
            refine ⟨by rw [ownEvents_concat_own _ death own, ownEvents_concat_own _ death own,
              sameEvents], ?_⟩
            by_cases first : ownEvents identity history = []
            · rw [lossesSince_concat_first _ first death own,
                lossesSince_concat_first _ (sameEvents.trans first) death own]
            · have stays : exitsOf identity event = false := by simp [exitsOf, death]
              rw [lossesSince_concat_open _ first stays,
                lossesSince_concat_open _ (fun empty => first (sameEvents.symm.trans empty)) stays,
                sameLosses]
      · have stays : exitsOf identity event = false := by simp [exitsOf, own]
        cases loss : event.isLoss with
        | true =>
            have kept : List.filter (concerns identity) [event] = [event] := by
              simp [concerns, loss]
            rw [kept]
            refine ⟨by rw [ownEvents_concat_foreign _ own, ownEvents_concat_foreign _ own,
              sameEvents], ?_⟩
            rw [lossesSince_concat_foreign _ own, lossesSince_concat_foreign _ own, sameEvents,
              sameLosses]
        | false =>
            have dropped : List.filter (concerns identity) [event] = [] := by
              simp [concerns, belongsTo, own, loss]
            rw [dropped, List.append_nil]
            refine ⟨by rw [ownEvents_concat_foreign _ own, sameEvents], ?_⟩
            rw [lossesSince_concat_foreign _ own, sameLosses, loss]
            simp

theorem exitsOf_of_not_concerns {identity : ProcessIdentity} {event : KernelEvent}
    (foreign : concerns identity event = false) : exitsOf identity event = false := by
  unfold concerns belongsTo at foreign
  unfold exitsOf
  rw [Bool.or_eq_false_iff] at foreign
  rw [foreign.1, Bool.and_false]

theorem referenceReport_filter_concerns (identity : ProcessIdentity) (history : List KernelEvent)
    (event : KernelEvent) :
    referenceReport config identity (history.filter (concerns identity)) event =
      referenceReport config identity history event := by
  unfold referenceReport
  rw [(ownEvents_filter_concerns identity history).1, (ownEvents_filter_concerns identity history).2]

/-- The reports the reference makes over a list of events. -/
def referenceReports (config : CorrelatorConfig) (identity : ProcessIdentity) :
    List KernelEvent → List KernelEvent → List DeathReport
  | _, [] => []
  | history, event :: rest =>
      (referenceReport config identity history event).toList ++
        referenceReports config identity (history ++ [event]) rest

theorem referenceReports_concat (identity : ProcessIdentity) (history events : List KernelEvent)
    (event : KernelEvent) :
    referenceReports config identity history (events ++ [event]) =
      referenceReports config identity history events ++
        (referenceReport config identity (history ++ events) event).toList := by
  induction events generalizing history with
  | nil => simp [referenceReports]
  | cons first rest inductionHypothesis =>
      simp only [List.cons_append, referenceReports, inductionHypothesis, List.append_assoc,
        List.nil_append]

/-- Events of other identities are invisible to the reference. -/
theorem referenceReports_filter_concerns (identity : ProcessIdentity)
    (events : List KernelEvent) :
    referenceReports config identity [] (events.filter (concerns identity)) =
      referenceReports config identity [] events := by
  induction events using List.reverseRecOn with
  | nil => rfl
  | append_singleton events event inductionHypothesis =>
      rw [List.filter_append, referenceReports_concat]
      cases matters : concerns identity event with
      | true =>
          rw [List.filter_cons_of_pos matters, List.filter_nil, referenceReports_concat,
            inductionHypothesis, List.nil_append, List.nil_append,
            referenceReport_filter_concerns]
      | false =>
          rw [List.filter_cons_of_neg (by simp [matters]), List.filter_nil, List.append_nil,
            inductionHypothesis, referenceReport, exitsOf_of_not_concerns matters]
          simp

/-- The correlator's reports of an identity are those of the reference. -/
theorem reportsOf_eq_reference (opened : Correlator.new config = some correlator)
    (identity : ProcessIdentity) (events : List KernelEvent)
    (capacity : WithinCapacity config events)
    (losses : events.countP KernelEvent.isLoss < 2 ^ 64) :
    reportsOf correlator identity events = referenceReports config identity [] events := by
  induction events using List.reverseRecOn with
  | nil => rfl
  | append_singleton events event inductionHypothesis =>
      have fewer : events.countP KernelEvent.isLoss < 2 ^ 64 := by
        rw [List.countP_append] at losses
        omega
      rw [referenceReports_concat, ← inductionHypothesis capacity.initial fewer]
      unfold reportsOf
      rw [Machine.visited_append, List.filterMap_append]
      congr 1
      rw [List.nil_append]
      by_cases death : event.isDeath = true
      · obtain ⟨owner, own⟩ := event.identity_of_isDeath death
        obtain ⟨report, referenced, outcome, about, -⟩ := outcome_eq_reference opened
          capacity.initial fewer (exitsOf_iff.mpr ⟨death, own⟩)
        by_cases same : owner = identity
        · subst same
          simp [Machine.visited, outcome, about, referenced]
        · have foreign : exitsOf identity event = false := by simp [exitsOf, own, same]
          simp [Machine.visited, outcome, about, same, referenceReport, foreign]
      · have alive : event.isDeath = false := by simpa using death
        have lives : exitsOf identity event = false := by simp [exitsOf, alive]
        simp [Machine.visited, outcome_of_alive _ alive, referenceReport, lives]

end Reports

/-- Within its capacity the correlator reports every leader's exit exactly once,
as the classifier judges the last events of that exact identity since its
previous exit; nothing else is reported, and what other identities do changes no
report. -/
theorem correlator_matches_reference (config : CorrelatorConfig) (correlator : Correlator)
    (events : List KernelEvent) (opened : Correlator.new config = some correlator)
    (capacity : WithinCapacity config events)
    (losses : events.countP KernelEvent.isLoss < 2 ^ 64) :
    (∀ before event after, events = before ++ event :: after →
      (∀ identity, event.isDeath = true → event.identity = some identity →
        ∃ report,
          classify identity
              ((ownEvents identity before ++ [event]).rtake config.maxEventsPerProcess)
              (decide (lossesSince identity before ≠ 0)) = some report ∧
            ((Machine.run Correlator.step correlator before).ingest event).2 = .death report ∧
            report.identity = identity ∧
            (report.evidenceIncomplete = true ↔ lossesSince identity before ≠ 0)) ∧
      (event.isDeath = false →
        ((Machine.run Correlator.step correlator before).ingest event).2 = .accepted)) ∧
    ∀ identity others, WithinCapacity config others →
      others.countP KernelEvent.isLoss < 2 ^ 64 →
      others.filter (concerns identity) = events.filter (concerns identity) →
        reportsOf correlator identity others = reportsOf correlator identity events := by
  constructor
  · intro before event after split
    refine ⟨?_, outcome_of_alive _⟩
    intro identity death own
    have exits := exitsOf_iff.mpr ⟨death, own⟩
    have earlier : WithinCapacity config before := by
      intro first middle rest splitBefore
      exact capacity first middle (rest ++ event :: after) (by rw [split, splitBefore]; simp)
    have fewer : before.countP KernelEvent.isLoss < 2 ^ 64 := by
      rw [split, List.countP_append] at losses
      omega
    obtain ⟨report, referenced, outcome, about, incomplete⟩ :=
      outcome_eq_reference opened earlier fewer exits
    rw [referenceReport, if_pos exits] at referenced
    exact ⟨report, referenced, outcome, about, by rw [incomplete, decide_eq_true_iff]⟩
  · intro identity others otherCapacity otherLosses agree
    rw [reportsOf_eq_reference opened identity others otherCapacity otherLosses,
      reportsOf_eq_reference opened identity events capacity losses,
      ← referenceReports_filter_concerns, agree, referenceReports_filter_concerns]

/-- The pid 1200 is used twice; the OOM kill of its first user is no evidence
for the second. -/
theorem correlator_matches_reference_reused_pid :
    (∃ report,
      classify ⟨1200, 2⟩ [.processExit 101 ⟨1200, 2⟩ 1200 1 88 9 true] false = some report ∧
        ((Machine.run Correlator.step ⟨⟨8, 8⟩, ∅, [], 0⟩
          [.oomVictim 100 ⟨1200, 1⟩ 88 .memcg]).ingest
            (.processExit 101 ⟨1200, 2⟩ 1200 1 88 9 true)).2 = .death report) ∧
      reportsOf ⟨⟨8, 8⟩, ∅, [], 0⟩ ⟨1200, 2⟩ [.processExit 101 ⟨1200, 2⟩ 1200 1 88 9 true] =
        reportsOf ⟨⟨8, 8⟩, ∅, [], 0⟩ ⟨1200, 2⟩
          [.oomVictim 100 ⟨1200, 1⟩ 88 .memcg, .processExit 101 ⟨1200, 2⟩ 1200 1 88 9 true] := by
  have applied := correlator_matches_reference ⟨8, 8⟩ ⟨⟨8, 8⟩, ∅, [], 0⟩
    [.oomVictim 100 ⟨1200, 1⟩ 88 .memcg, .processExit 101 ⟨1200, 2⟩ 1200 1 88 9 true] rfl
    (withinCapacity_of_length_le (by decide)) (by decide)
  obtain ⟨report, classified, outcome, -⟩ :=
    (applied.1 [.oomVictim 100 ⟨1200, 1⟩ 88 .memcg]
      (.processExit 101 ⟨1200, 2⟩ 1200 1 88 9 true) [] rfl).1 ⟨1200, 2⟩ rfl rfl
  exact ⟨⟨report, classified, outcome⟩,
    applied.2 ⟨1200, 2⟩ [.processExit 101 ⟨1200, 2⟩ 1200 1 88 9 true]
      (withinCapacity_of_length_le (by decide)) (by decide) (by decide)⟩

end SystemPilot.Forensics
