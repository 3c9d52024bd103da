import SystemPilot.Forensics.Unbounded

/-!
# Complete reports

A report that is not marked incomplete should be the one an unbounded correlator
makes.  Eviction and the ring remove events of a timeline from the front, so the
two reports differ exactly when what was removed held the only matching signal,
the only OOM kill, or the opening of the timeline before a loss.
-/

set_option autoImplicit false

namespace SystemPilot.Forensics

open SystemPilot.Library

/-- The correlator beside the unbounded one, fed with the same events. -/
structure Paired where
  bounded : Correlator
  unbounded : UnboundedCorrelator

def Paired.step (pair : Paired) (event : KernelEvent) : Paired :=
  ⟨pair.bounded.step event, pair.unbounded.step event⟩

/-- Each bounded timeline is the end of the unbounded one. -/
structure Paired.Tracks (pair : Paired) : Prop where
  epoch : pair.bounded.telemetryLossEpoch = pair.unbounded.telemetryLossEpoch
  timelines : ∀ identity timeline, pair.bounded.timelines.lookup identity = some timeline →
    ∃ whole, pair.unbounded.timelines.lookup identity = some whole ∧
      timeline.events <:+ whole.events

section Tracks

variable {pair : Paired}

theorem tracks_new {config : CorrelatorConfig} {correlator : Correlator}
    (opened : Correlator.new config = some correlator) : Paired.Tracks ⟨correlator, .empty⟩ := by
  unfold Correlator.new at opened
  split at opened
  · cases opened
    exact ⟨rfl, fun identity timeline found => by cases found⟩
  · cases opened

theorem Timeline.kept_suffix (maxEvents : Nat) (timeline : Timeline) :
    timeline.kept maxEvents <:+ timeline.events := by
  unfold Timeline.kept
  split
  · exact List.tail_suffix _
  · exact List.suffix_rfl

/-- What the ring keeps is the end of what was ingested. -/
theorem Paired.Tracks.kept_suffix (tracks : pair.Tracks) (identity : ProcessIdentity) :
    pair.bounded.kept identity <:+ (pair.unbounded.timeline identity).events := by
  unfold Correlator.kept
  refine (Timeline.kept_suffix _ _).trans ?_
  unfold Correlator.timeline
  cases found : pair.bounded.timelines.lookup identity with
  | none => exact List.nil_suffix
  | some timeline =>
      obtain ⟨whole, held, suffix⟩ := tracks.timelines identity timeline found
      unfold UnboundedCorrelator.timeline
      rw [held]
      exact suffix

theorem tracks_step (event : KernelEvent) (tracks : pair.Tracks) : (pair.step event).Tracks where
  epoch := by
    change (pair.bounded.step event).telemetryLossEpoch =
      (pair.unbounded.step event).telemetryLossEpoch
    rw [step_epoch, pair.unbounded.step_epoch, tracks.epoch]
  timelines := by
    intro identity timeline found
    change (pair.bounded.step event).timelines.lookup identity = some timeline at found
    change ∃ whole, (pair.unbounded.step event).timelines.lookup identity = some whole ∧ _
    rcases step_lookup_cases pair.bounded event identity with
      dropped | ⟨foreign, same⟩ | ⟨own, pushed⟩
    · rw [dropped] at found
      cases found
    · rw [same] at found
      rw [pair.unbounded.step_lookup_other foreign]
      exact tracks.timelines identity timeline found
    · rw [step_lookup_self pair.bounded own] at found
      rw [pair.unbounded.step_lookup_self own]
      split at found
      · cases found
      · rename_i lives
        cases found
        rw [if_neg lives]
        refine ⟨_, rfl, ?_⟩
        exact List.suffix_append_self_iff.mpr (tracks.kept_suffix identity)

end Tracks

/-! ## Evidence that was removed -/

section Removal

variable {β : Type}

/-- If anything among all the events is found, something among the kept ones is. -/
def Surviving (search : KernelEvent → Option β) (kept all : List KernelEvent) : Prop :=
  (∃ event ∈ all, (search event).isSome = true) → ∃ event ∈ kept, (search event).isSome = true

/-- The backward search ends the same exactly when evidence survives. -/
theorem findSome?_eq_iff_surviving {search : KernelEvent → Option β}
    {kept all : List KernelEvent} (suffix : kept <:+ all) :
    kept.reverse.findSome? search = all.reverse.findSome? search ↔
      Surviving search kept all := by
  obtain ⟨removed, rfl⟩ := suffix
  rw [List.reverse_append, List.findSome?_append]
  cases found : kept.reverse.findSome? search with
  | some evidence =>
      obtain ⟨event, member, matched⟩ := List.exists_of_findSome?_eq_some found
      refine ⟨fun _ _ => ⟨event, List.mem_reverse.mp member, by rw [matched]; rfl⟩, fun _ => rfl⟩
  | none =>
      rw [List.findSome?_eq_none_iff] at found
      rw [Option.none_or, eq_comm, List.findSome?_eq_none_iff]
      constructor
      · rintro lost ⟨event, member, matched⟩
        rcases List.mem_append.mp member with early | late
        · rw [lost event (List.mem_reverse.mpr early)] at matched
          contradiction
        · exact ⟨event, late, matched⟩
      · intro survives event member
        rw [← Option.not_isSome_iff_eq_none]
        intro matched
        obtain ⟨other, kept, matched'⟩ := survives
          ⟨event, List.mem_append_left _ (List.mem_reverse.mp member), matched⟩
        rw [found other (List.mem_reverse.mpr kept)] at matched'
        contradiction

end Removal

/-- The report of a complete exit is the unbounded one, and a report that
differs from it is marked. -/
structure CompleteIsComplete (pair : Paired) (event : KernelEvent) : Prop where
  identical : ∀ report, (pair.bounded.ingest event).2 = .death report →
    report.evidenceIncomplete = false → (pair.unbounded.ingest event).2 = .death report
  marked : ∀ report whole, (pair.bounded.ingest event).2 = .death report →
    (pair.unbounded.ingest event).2 = .death whole →
    report.cause ≠ whole.cause ∨ report.confidence ≠ whole.confidence ∨
      report.evidence ≠ whole.evidence → report.evidenceIncomplete = true

/-- At a leader's exit no loss was counted since the identity's first event
unless one was counted since its bounded timeline was opened, and in the other
case a matching signal or an OOM kill in its window is still there. -/
def NothingDecisiveRemoved (pair : Paired) (event : KernelEvent) : Prop :=
  ∀ identity exit, leaderExit identity event = some exit →
    pair.bounded.lostSince identity = false →
      pair.unbounded.lostSince identity = false ∧
      (∀ expected,
        (ExitDisposition.fromExitCode exit.exitCode).terminalSignal = some expected →
        Surviving (matchingSignal identity exit.timestampNs expected)
          (pair.bounded.kept identity) (pair.unbounded.timeline identity).events) ∧
      Surviving (matchingOom identity exit.timestampNs)
        (pair.bounded.kept identity) (pair.unbounded.timeline identity).events

theorem exitReport_inj {identity : ProcessIdentity} {exit : LeaderExit}
    {kept all : List KernelEvent} {lost lost' : Bool} (suffix : kept <:+ all) :
    exitReport identity exit kept lost = exitReport identity exit all lost' ↔
      lost = lost' ∧
      (∀ expected,
        (ExitDisposition.fromExitCode exit.exitCode).terminalSignal = some expected →
        Surviving (matchingSignal identity exit.timestampNs expected) kept all) ∧
      Surviving (matchingOom identity exit.timestampNs) kept all := by
  have signals : generatedSignal identity exit.timestampNs
        (ExitDisposition.fromExitCode exit.exitCode) kept =
      generatedSignal identity exit.timestampNs (ExitDisposition.fromExitCode exit.exitCode) all ↔
      ∀ expected, (ExitDisposition.fromExitCode exit.exitCode).terminalSignal = some expected →
        Surviving (matchingSignal identity exit.timestampNs expected) kept all := by
    unfold generatedSignal
    cases (ExitDisposition.fromExitCode exit.exitCode).terminalSignal with
    | none => simp
    | some expected => simp [findSome?_eq_iff_surviving suffix]
  have ooms : lastOom identity exit.timestampNs kept = lastOom identity exit.timestampNs all ↔
      Surviving (matchingOom identity exit.timestampNs) kept all :=
    findSome?_eq_iff_surviving suffix
  unfold exitReport
  rw [deathReport_inj, signals, ooms]
  tauto

/-- The step lemma: a complete report is the unbounded one exactly when nothing
decisive was removed. -/
theorem completeIsComplete_iff {pair : Paired} (tracks : pair.Tracks) (event : KernelEvent) :
    CompleteIsComplete pair event ↔ NothingDecisiveRemoved pair event := by
  constructor
  · intro complete identity exit found lives
    have bounded := outcome_of_leaderExit pair.bounded found
    have unbounded := pair.unbounded.outcome_of_leaderExit found
    have same := complete.identical _ bounded lives
    rw [unbounded, IngestOutcome.death.injEq, eq_comm,
      exitReport_inj (tracks.kept_suffix identity)] at same
    exact ⟨same.1.symm.trans lives, same.2⟩
  · intro nothing
    have identical : ∀ report, (pair.bounded.ingest event).2 = .death report →
        report.evidenceIncomplete = false →
        (pair.unbounded.ingest event).2 = .death report := by
      intro report outcome lives
      by_cases death : event.isDeath = true
      · obtain ⟨identity, own⟩ := event.identity_of_isDeath death
        obtain ⟨exit, found⟩ := leaderExit_of_isDeath death own
        rw [outcome_of_leaderExit pair.bounded found] at outcome
        cases outcome
        rw [pair.unbounded.outcome_of_leaderExit found, IngestOutcome.death.injEq, eq_comm,
          exitReport_inj (tracks.kept_suffix identity)]
        obtain ⟨fresh, survives⟩ := nothing identity exit found lives
        exact ⟨Eq.trans lives fresh.symm, survives⟩
      · rw [outcome_of_alive _ (by simpa using death)] at outcome
        cases outcome
    refine ⟨identical, ?_⟩
    intro report whole outcome outcome' differ
    cases lives : report.evidenceIncomplete with
    | true => rfl
    | false =>
        rw [identical report outcome lives] at outcome'
        cases outcome'
        simp at differ

/-- Over every run: the complete reports are those of an unbounded correlator
exactly when no exit finds decisive evidence removed from a timeline that counts
no loss. -/
theorem complete_reports_iff (config : CorrelatorConfig) (correlator : Correlator)
    (opened : Correlator.new config = some correlator) (events : List KernelEvent) :
    Machine.EveryStep Paired.step CompleteIsComplete ⟨correlator, .empty⟩ events ↔
      Machine.EveryStep Paired.step NothingDecisiveRemoved ⟨correlator, .empty⟩ events :=
  Machine.everyStep_iff_of_invariant Paired.step Paired.Tracks CompleteIsComplete
    NothingDecisiveRemoved (fun _ event tracks => tracks_step event tracks)
    (fun _ event tracks => completeIsComplete_iff tracks event) ⟨correlator, .empty⟩ events
    (tracks_new opened)

theorem complete_reports_iff_memcg :
    Machine.EveryStep Paired.step CompleteIsComplete ⟨⟨{}, ∅, [], 0⟩, .empty⟩
      [.oomVictim 100 ⟨1200, 11⟩ 88 .memcg, .processExit 101 ⟨1200, 11⟩ 1200 1 88 9 true] :=
  (complete_reports_iff {} ⟨{}, ∅, [], 0⟩ rfl
    [.oomVictim 100 ⟨1200, 11⟩ 88 .memcg, .processExit 101 ⟨1200, 11⟩ 1200 1 88 9 true]).mpr (by
      rw [Machine.everyStep_cons, Machine.everyStep_cons]
      refine ⟨?_, ?_, by simp [Machine.EveryStep, Machine.visited]⟩
      · intro identity exit found
        cases found
      · intro identity exit found lives
        obtain ⟨-, own⟩ := isDeath_of_leaderExit found
        cases own
        exact ⟨by decide, fun _ _ => id, id⟩)

/-- A process of sixteen threads is killed for want of memory: the exits of its
other threads push the OOM kill out of the ring before the leader exits. -/
theorem thread_exits_remove_the_oom :
    let threads : List KernelEvent :=
      .oomVictim 100 ⟨1200, 11⟩ 88 .memcg ::
        List.replicate 15 (.processExit 101 ⟨1200, 11⟩ 1201 1 88 9 false)
    let exit : KernelEvent := .processExit 102 ⟨1200, 11⟩ 1200 1 88 9 true
    let reached := Machine.run Paired.step ⟨⟨{}, ∅, [], 0⟩, .empty⟩ threads
    (∃ report, (reached.bounded.ingest exit).2 = .death report ∧
      report.evidenceIncomplete = false ∧ report.cause = .fatalSignal 9 .unknown) ∧
    (∃ report, (reached.unbounded.ingest exit).2 = .death report ∧
      report.cause = .cgroupOom 88) ∧
    ¬Machine.EveryStep Paired.step CompleteIsComplete ⟨⟨{}, ∅, [], 0⟩, .empty⟩
      (threads ++ [exit]) := by
  intro threads exit reached
  have found : leaderExit ⟨1200, 11⟩ exit = some ⟨102, 88, 9⟩ := rfl
  have bounded := outcome_of_leaderExit reached.bounded found
  have unbounded := reached.unbounded.outcome_of_leaderExit found
  refine ⟨⟨_, bounded, by decide, by decide⟩, ⟨_, unbounded, by decide⟩, ?_⟩
  intro every
  have last : CompleteIsComplete reached exit := every (reached, exit) (by
    rw [Machine.mem_visited_iff]
    exact ⟨threads, [], rfl, rfl⟩)
  have same := last.identical _ bounded (by decide)
  rw [unbounded, IngestOutcome.death.injEq] at same
  have causes := congrArg DeathReport.cause same
  revert causes
  decide

end SystemPilot.Forensics
