import SystemPilot.Forensics.Correlator
import SystemPilot.Library.Machine

/-!
# No false attribution

Every timeline holds ingested events of its own identity only.  What a report
says of a death is therefore backed by an event that was ingested for that
identity within the causal window.
-/

set_option autoImplicit false

namespace SystemPilot.Forensics

open SystemPilot.Library

/-- An event no later than the exit and at most five seconds before it. -/
def InWindow (exitNs eventNs : Nat) : Prop :=
  eventNs ≤ exitNs ∧ exitNs - eventNs ≤ 5000000000

/-- An OOM kill of this identity was ingested. -/
def OomIngested (history : List KernelEvent) (identity : ProcessIdentity) (exitNs : Nat)
    (kind : OomKind) (cgroupId : Nat) : Prop :=
  ∃ eventNs, .oomVictim eventNs identity cgroupId kind ∈ history ∧ InWindow exitNs eventNs

/-- A signal to this identity was ingested. -/
def SignalIngested (history : List KernelEvent) (identity : ProcessIdentity) (exitNs : Nat)
    (signal : Int) (origin : SignalOrigin) (siCode : Int) : Prop :=
  ∃ eventNs senderPid senderUid senderIsKernel cgroupId,
    .signalGenerated eventNs identity signal siCode senderPid senderUid senderIsKernel cgroupId ∈
        history ∧
      SignalOrigin.fromParts senderPid senderUid senderIsKernel = origin ∧
      InWindow exitNs eventNs

/-- What backs one entry of a report's evidence. -/
def Backed (history : List KernelEvent) (event : KernelEvent) (report : DeathReport) :
    Evidence → Prop
  | .exit disposition => ∃ exit, leaderExit report.identity event = some exit ∧
      ExitDisposition.fromExitCode exit.exitCode = disposition
  | .signal signal origin siCode =>
      SignalIngested history report.identity report.timestampNs signal origin siCode
  | .oomVictim kind cgroupId =>
      OomIngested history report.identity report.timestampNs kind cgroupId
  | .telemetryLoss _ => True

/-- What a report of the exit `event`, made after `history`, may say. -/
structure Attributed (history : List KernelEvent) (event : KernelEvent) (report : DeathReport) :
    Prop where
  exit : ∃ exit, leaderExit report.identity event = some exit ∧
    report.timestampNs = exit.timestampNs ∧ report.cgroupId = exit.cgroupId ∧
    report.disposition = ExitDisposition.fromExitCode exit.exitCode
  cgroupOom : ∀ cgroupId, report.cause = .cgroupOom cgroupId →
    report.disposition.terminalSignal = some 9 ∧ cgroupId = report.cgroupId ∧
      OomIngested history report.identity report.timestampNs .memcg cgroupId
  globalOom : report.cause = .globalOom → report.disposition.terminalSignal = some 9 ∧
    ∃ cgroupId, OomIngested history report.identity report.timestampNs .global cgroupId
  fatalSignal : ∀ signal origin, report.cause = .fatalSignal signal origin → origin ≠ .unknown →
    report.disposition.terminalSignal = some (signal : Int) ∧ ∃ siCode,
      SignalIngested history report.identity report.timestampNs signal origin siCode
  confirmed : report.confidence = .confirmed → report.evidenceIncomplete = false ∧
    ((∃ cgroupId, report.cause = .cgroupOom cgroupId) ∨
      ∃ status, report.disposition = .exited status ∧ report.cause = .normalExit status)
  evidence : ∀ entry ∈ report.evidence, Backed history event report entry

/-! ## Evidence found is evidence ingested -/

section Found

variable {history events : List KernelEvent} {identity : ProcessIdentity} {exitNs : Nat}

theorem inWindow_of_isCausal {eventNs : Nat} (causal : isCausal exitNs eventNs = true) :
    InWindow exitNs eventNs := by
  unfold isCausal at causal
  rw [Bool.and_eq_true, decide_eq_true_iff, decide_eq_true_iff] at causal
  exact causal

theorem signalIngested_of_generated {disposition : ExitDisposition} {signal : GeneratedSignal}
    (held : ∀ event ∈ events, event ∈ history)
    (found : generatedSignal identity exitNs disposition events = some signal) :
    disposition.terminalSignal = some signal.signal ∧
      SignalIngested history identity exitNs signal.signal signal.origin signal.siCode := by
  unfold generatedSignal at found
  rw [Option.bind_eq_some_iff] at found
  obtain ⟨expected, terminal, matched⟩ := found
  obtain ⟨event, member, matched⟩ := List.exists_of_findSome?_eq_some matched
  have ingested := held event (List.mem_reverse.mp member)
  cases event with
  | signalGenerated eventNs target number siCode senderPid senderUid senderIsKernel cgroupId =>
      simp only [matchingSignal] at matched
      split at matched
      · rename_i agrees
        cases matched
        rw [Bool.and_eq_true, Bool.and_eq_true, beq_iff_eq, beq_iff_eq] at agrees
        obtain ⟨⟨rfl, rfl⟩, causal⟩ := agrees
        exact ⟨terminal, eventNs, senderPid, senderUid, senderIsKernel, cgroupId, ingested, rfl,
          inWindow_of_isCausal causal⟩
      · cases matched
  | processExit => cases matched
  | oomVictim => cases matched
  | telemetryLoss => cases matched

theorem oomIngested_of_last {kill : OomKill} (held : ∀ event ∈ events, event ∈ history)
    (found : lastOom identity exitNs events = some kill) :
    OomIngested history identity exitNs kill.kind kill.cgroupId := by
  unfold lastOom at found
  obtain ⟨event, member, matched⟩ := List.exists_of_findSome?_eq_some found
  have ingested := held event (List.mem_reverse.mp member)
  cases event with
  | oomVictim eventNs victim cgroupId kind =>
      simp only [matchingOom] at matched
      split at matched
      · rename_i agrees
        cases matched
        rw [Bool.and_eq_true, beq_iff_eq] at agrees
        obtain ⟨rfl, causal⟩ := agrees
        exact ⟨eventNs, ingested, inWindow_of_isCausal causal⟩
      · cases matched
  | processExit => cases matched
  | signalGenerated => cases matched
  | telemetryLoss => cases matched

end Found

/-! ## The verdict -/

/-- Every way the classifier comes to a cause. -/
theorem verdict_cases (cgroupId : Nat) (disposition : ExitDisposition)
    (signal : Option GeneratedSignal) (oom : Option OomKill) :
    (∃ status, disposition = .exited status ∧
      verdict cgroupId disposition signal oom = (.normalExit status, .confirmed)) ∨
    (∃ core, disposition = .signalled 9 core ∧ oom = some ⟨.memcg, cgroupId⟩ ∧
      verdict cgroupId disposition signal oom = (.cgroupOom cgroupId, .confirmed)) ∨
    (∃ core other, disposition = .signalled 9 core ∧ oom = some ⟨.global, other⟩ ∧
      verdict cgroupId disposition signal oom = (.globalOom, .high)) ∨
    verdict cgroupId disposition signal oom = (.unknown, .medium) ∨
    ∃ terminal core, disposition = .signalled terminal core ∧
      verdict cgroupId disposition signal oom = fatalSignal terminal signal := by
  unfold verdict
  split
  · exact Or.inl ⟨_, rfl, rfl⟩
  · split
    · rename_i same
      subst same
      exact Or.inr (Or.inl ⟨_, rfl, rfl, rfl⟩)
    · exact Or.inr (Or.inr (Or.inr (Or.inr ⟨_, _, rfl, rfl⟩)))
  · exact Or.inr (Or.inr (Or.inl ⟨_, _, rfl, rfl, rfl⟩))
  · exact Or.inr (Or.inr (Or.inr (Or.inl rfl)))
  · exact Or.inr (Or.inr (Or.inr (Or.inr ⟨_, _, rfl, rfl⟩)))

theorem fatalSignal_confidence (terminal : Nat) (signal : Option GeneratedSignal) :
    (fatalSignal terminal signal).2 ≠ .confirmed := by
  unfold fatalSignal
  dsimp only
  split <;> decide

theorem fatalSignal_origin {terminal number : Nat} {signal : Option GeneratedSignal}
    {origin : SignalOrigin} (cause : (fatalSignal terminal signal).1 = .fatalSignal number origin)
    (known : origin ≠ .unknown) :
    number = terminal ∧ ∃ found, signal = some found ∧ found.origin = origin := by
  unfold fatalSignal at cause
  dsimp only at cause
  cases cause
  cases signal with
  | none => exact absurd rfl known
  | some found => exact ⟨rfl, found, rfl, rfl⟩

/-! ## Reports -/

section Report

variable {history events : List KernelEvent} {event : KernelEvent} {identity : ProcessIdentity}
variable {exit : LeaderExit} {lost : Bool}

/-- The cause and the confidence before the cap. -/
def exitVerdict (identity : ProcessIdentity) (exit : LeaderExit) (events : List KernelEvent) :
    Cause × Confidence :=
  verdict exit.cgroupId (ExitDisposition.fromExitCode exit.exitCode)
    (generatedSignal identity exit.timestampNs (ExitDisposition.fromExitCode exit.exitCode) events)
    (lastOom identity exit.timestampNs events)

theorem exitReport_cause :
    (exitReport identity exit events lost).cause = (exitVerdict identity exit events).1 :=
  rfl

theorem exitReport_confidence :
    (exitReport identity exit events lost).confidence =
      if lost then (exitVerdict identity exit events).2.min .medium
      else (exitVerdict identity exit events).2 :=
  rfl

theorem exitReport_confirmed
    (confirmed : (exitReport identity exit events lost).confidence = .confirmed) :
    lost = false ∧ (exitVerdict identity exit events).2 = .confirmed := by
  rw [exitReport_confidence] at confirmed
  cases lost with
  | true =>
      have capped := Confidence.rank_min_medium (exitVerdict identity exit events).2
      rw [if_pos rfl] at confirmed
      rw [confirmed] at capped
      exact absurd capped (by decide)
  | false => exact ⟨rfl, confirmed⟩

theorem backed_of_mem_evidence (held : ∀ event ∈ events, event ∈ history)
    (found : leaderExit identity event = some exit) {entry : Evidence}
    (member : entry ∈ (exitReport identity exit events lost).evidence) :
    Backed history event (exitReport identity exit events lost) entry := by
  change entry ∈ evidenceOf _ _ _ _ at member
  unfold evidenceOf at member
  rw [List.mem_append, List.mem_append, List.mem_append, List.mem_singleton, Option.mem_toList,
    Option.mem_toList, Option.map_eq_some_iff, Option.map_eq_some_iff] at member
  rcases member with ((rfl | ⟨signal, generated, rfl⟩) | ⟨kill, killed, rfl⟩) | marker
  · exact ⟨exit, found, rfl⟩
  · exact (signalIngested_of_generated held generated).2
  · exact oomIngested_of_last held killed
  · split at marker
    · rw [List.mem_singleton] at marker
      subst marker
      trivial
    · cases marker

/-- A report made from ingested events attributes nothing falsely. -/
theorem attributed_exitReport (held : ∀ event ∈ events, event ∈ history)
    (found : leaderExit identity event = some exit) :
    Attributed history event (exitReport identity exit events lost) := by
  have cases := verdict_cases exit.cgroupId (ExitDisposition.fromExitCode exit.exitCode)
    (generatedSignal identity exit.timestampNs (ExitDisposition.fromExitCode exit.exitCode) events)
    (lastOom identity exit.timestampNs events)
  change (∃ status, _ ∧ exitVerdict identity exit events = _) ∨
    (∃ core, _ ∧ _ ∧ exitVerdict identity exit events = _) ∨
    (∃ core other, _ ∧ _ ∧ exitVerdict identity exit events = _) ∨
    exitVerdict identity exit events = _ ∨
    (∃ terminal core, _ ∧ exitVerdict identity exit events = _) at cases
  constructor
  · exact ⟨exit, found, rfl, rfl, rfl⟩
  · intro cgroupId cause
    rcases cases with ⟨_, _, same⟩ | ⟨_, disposition, oom, same⟩ | ⟨_, _, _, _, same⟩ | same |
      ⟨_, _, _, same⟩ <;> rw [exitReport_cause, same] at cause <;> cases cause
    refine ⟨?_, rfl, oomIngested_of_last held oom⟩
    change (ExitDisposition.fromExitCode exit.exitCode).terminalSignal = some 9
    rw [disposition]
    rfl
  · intro cause
    rcases cases with ⟨_, _, same⟩ | ⟨_, _, _, same⟩ | ⟨_, other, disposition, oom, same⟩ | same |
      ⟨_, _, _, same⟩ <;> rw [exitReport_cause, same] at cause <;> cases cause
    refine ⟨?_, other, oomIngested_of_last held oom⟩
    change (ExitDisposition.fromExitCode exit.exitCode).terminalSignal = some 9
    rw [disposition]
    rfl
  · intro signal origin cause known
    rw [exitReport_cause] at cause
    rcases cases with ⟨_, _, same⟩ | ⟨_, _, _, same⟩ | ⟨_, _, _, _, same⟩ | same |
      ⟨terminal, core, disposition, same⟩ <;> rw [same] at cause
    case inr.inr.inr.inr =>
      obtain ⟨rfl, generated, search, rfl⟩ := fatalSignal_origin cause known
      obtain ⟨expected, ingested⟩ := signalIngested_of_generated held search
      have number : (signal : Int) = generated.signal := by
        rw [disposition] at expected
        exact Option.some.inj expected
      rw [← number] at ingested expected
      exact ⟨expected, generated.siCode, ingested⟩
    all_goals cases cause
  · intro confirmed
    obtain ⟨complete, certain⟩ := exitReport_confirmed confirmed
    refine ⟨complete, ?_⟩
    rw [exitReport_cause]
    rcases cases with ⟨status, disposition, same⟩ | ⟨_, _, _, same⟩ | ⟨_, _, _, _, same⟩ | same |
      ⟨_, _, _, same⟩
    · exact Or.inr ⟨status, disposition, by rw [same]⟩
    · exact Or.inl ⟨exit.cgroupId, by rw [same]⟩
    · rw [same] at certain
      cases certain
    · rw [same] at certain
      cases certain
    · rw [same] at certain
      exact absurd certain (fatalSignal_confidence _ _)
  · exact fun entry member => backed_of_mem_evidence held found member

end Report

/-! ## Timelines hold ingested events -/

/-- Every event a timeline holds was ingested. -/
def HoldsIngested (history : List KernelEvent) (correlator : Correlator) : Prop :=
  ∀ identity timeline, correlator.timelines.lookup identity = some timeline →
    ∀ event ∈ timeline.events, event ∈ history

section Held

variable {history : List KernelEvent} {correlator : Correlator}

theorem HoldsIngested.kept (holds : HoldsIngested history correlator)
    (identity : ProcessIdentity) : ∀ event ∈ correlator.kept identity, event ∈ history := by
  intro event member
  have held : event ∈ (correlator.timeline identity).events := by
    unfold Correlator.kept Timeline.kept at member
    split at member
    · exact List.mem_of_mem_tail member
    · exact member
  unfold Correlator.timeline at held
  cases found : correlator.timelines.lookup identity with
  | none =>
      rw [found] at held
      cases held
  | some timeline =>
      rw [found] at held
      exact holds identity timeline found event held

theorem holdsIngested_step (holds : HoldsIngested history correlator) (event : KernelEvent) :
    HoldsIngested (history ++ [event]) (correlator.step event) := by
  intro identity timeline found other member
  rw [List.mem_append, List.mem_singleton]
  rcases step_lookup_cases correlator event identity with
    dropped | ⟨-, same⟩ | ⟨-, pushed⟩
  · rw [dropped] at found
    cases found
  · rw [same] at found
    exact Or.inl (holds identity timeline found other member)
  · rw [pushed] at found
    cases found
    change other ∈ correlator.kept identity ++ [event] at member
    rw [List.mem_append, List.mem_singleton] at member
    exact member.imp_left (holds.kept identity other)

theorem holdsIngested_run {config : CorrelatorConfig}
    (opened : Correlator.new config = some correlator) (events : List KernelEvent) :
    HoldsIngested events (Machine.run Correlator.step correlator events) := by
  induction events using List.reverseRecOn with
  | nil =>
      unfold Correlator.new at opened
      split at opened
      · cases opened
        intro identity timeline found
        cases found
      · cases opened
  | append_singleton events event inductionHypothesis =>
      rw [Machine.run_append]
      exact holdsIngested_step inductionHypothesis event

end Held

/-- Over every event sequence: a report attributes the death to nothing but
events that were ingested for the identical process within the causal window. -/
theorem no_false_attribution (config : CorrelatorConfig) (correlator : Correlator)
    (opened : Correlator.new config = some correlator) (history : List KernelEvent)
    (event : KernelEvent) (report : DeathReport)
    (reported : ((Machine.run Correlator.step correlator history).ingest event).2 =
      .death report) :
    Attributed history event report := by
  by_cases death : event.isDeath = true
  · obtain ⟨identity, own⟩ := event.identity_of_isDeath death
    obtain ⟨exit, found⟩ := leaderExit_of_isDeath death own
    rw [outcome_of_leaderExit _ found] at reported
    cases reported
    exact attributed_exitReport ((holdsIngested_run opened history).kept identity) found
  · rw [outcome_of_alive _ (by simpa using death)] at reported
    cases reported

theorem no_false_attribution_memcg :
    ∃ report : DeathReport, report.cause = .cgroupOom 88 ∧
      Attributed [.oomVictim 100 ⟨1200, 11⟩ 88 .memcg]
        (.processExit 101 ⟨1200, 11⟩ 1200 1 88 9 true) report := by
  have found : leaderExit ⟨1200, 11⟩ (.processExit 101 ⟨1200, 11⟩ 1200 1 88 9 true) =
      some ⟨101, 88, 9⟩ := rfl
  exact ⟨_, by decide, no_false_attribution ⟨8, 8⟩ ⟨⟨8, 8⟩, ∅, [], 0⟩ rfl
    [.oomVictim 100 ⟨1200, 11⟩ 88 .memcg] (.processExit 101 ⟨1200, 11⟩ 1200 1 88 9 true) _
    (outcome_of_leaderExit _ found)⟩

end SystemPilot.Forensics
