import SystemPilot.Library.Replacement
import SystemPilot.Spool.Effects

/-!
# The spool after an interrupted write

`next_sequence` and `append` with `atomic_write` stopped at any of its steps.  A
temporary file carries the process id in its name and is created only where there
is none, so one that stays behind is in the way of every later process with the
same id.
-/

set_option autoImplicit false

namespace SystemPilot.Spool

open SystemPilot.Library
open SystemPilot.Library.Replacement
open SystemPilot.Telemetry

/-! ## Writes that stop -/

def writeFailure : Step → AppError
  | .create => .io "could not create temporary spool record"
  | .write => .io "could not persist spool record"
  | .rename => .io "could not commit spool record"

def writeOutcome {α : Type} (result : Result) (value : α) : Outcome α :=
  match result with
  | .done => .ok value
  | .failed step => .error (writeFailure step)
  | .ended => .crash

/-- The stop behind a fault of a write, the whole content being written before it. -/
def WriteFault.stop {Content : Type} (content : Content) : WriteFault → Stop Content
  | .openFails => .create
  | .writeFails cleanup => .write content cleanup
  | .renameFails => .rename
  | .crash => .endInside content

theorem atomicWrite_eq_replace {Content : Type} (processId clock : Nat) (fault : Option WriteFault)
    (directory : Directory Content) (name : String) (content : Content) :
    atomicWrite processId clock fault directory name content =
      let file : StoredFile Content := ⟨content, clock⟩
      let replaced := replace (temporaryName processId name) name file
        (fault.map (WriteFault.stop file)) directory
      (replaced.1, writeOutcome replaced.2 ()) := by
  unfold atomicWrite replace
  by_cases present : temporaryName processId name ∈ directory
  · rw [if_pos present]
    cases fault with
    | none => simp [present, writeOutcome, writeFailure]
    | some fault =>
        cases fault <;> simp [WriteFault.stop, present, writeOutcome, writeFailure]
  · rw [if_neg present]
    cases fault with
    | none => simp [present, writeOutcome]
    | some fault =>
        cases fault with
        | openFails => simp [WriteFault.stop, writeOutcome, writeFailure]
        | writeFails cleanup =>
            cases cleanup <;> simp [WriteFault.stop, present, writeOutcome, writeFailure]
        | renameFails => simp [WriteFault.stop, present, writeOutcome, writeFailure]
        | crash => simp [WriteFault.stop, present, writeOutcome]

/-- A call of the spool that writes, and where its write stops. -/
inductive Call (Bytes : Type) where
  | nextSequence (stop : Option (Stop (StoredFile String)))
  | append (envelope : TelemetryEnvelope) (stop : Option (Stop (StoredFile Bytes)))

namespace Call

variable {Bytes : Type}

/-- The same call, run to its end. -/
def uninterrupted : Call Bytes → Call Bytes
  | .nextSequence _ => .nextSequence none
  | .append envelope _ => .append envelope none

def Uninterrupted : Call Bytes → Prop
  | .nextSequence stop => stop = none
  | .append _ stop => stop = none

/-- A temporary file stays behind when the call stops where it does. -/
def Leaves : Call Bytes → Prop
  | .nextSequence stop => ∃ point, stop = some point ∧ point.Leaves = true
  | .append _ stop => ∃ point, stop = some point ∧ point.Leaves = true

def commits : Call Bytes → Bool
  | .nextSequence stop => Stop.commits stop
  | .append _ stop => Stop.commits stop

end Call

section Calls

variable {Bytes : Type} (codec : Codec Bytes) (spool : DiskSpool)

def nextSequenceUntil (stop : Option (Stop (StoredFile String))) (clock : Nat)
    (files : SpoolFiles Bytes) : SpoolFiles Bytes × Outcome Nat :=
  match readSequence files.root with
  | .error failure => (files, .error failure)
  | .ok current =>
      if 2 ^ 64 ≤ current + 1 then
        (files, .error (.protocol "telemetry sequence exhausted"))
      else
        let next := current + 1
        let replaced := replace (temporaryName spool.processId sequenceName) sequenceName
          ⟨Nat.repr next, clock⟩ stop files.root
        ({ files with root := replaced.1 }, writeOutcome replaced.2 next)

def appendUntil (stop : Option (Stop (StoredFile Bytes))) (clock : Nat) (files : SpoolFiles Bytes)
    (envelope : TelemetryEnvelope) : SpoolFiles Bytes × Outcome Unit :=
  match encodeJson codec envelope with
  | .error failure => (files, .error failure)
  | .ok bytes =>
      match stats codec spool {} clock files with
      | .error failure => (files, .error failure)
      | .ok current =>
          if spool.maxBytes < saturatingAdd current.bytes (codec.len bytes) then
            (files, .error (.protocol ("telemetry spool is full (" ++
              toString spool.maxBytes ++ " byte limit)")))
          else
            let path := recordName envelope.sequence
            if path ∈ files.records then
              (files, .error (.protocol ("telemetry sequence " ++
                toString envelope.sequence ++ " already exists in spool")))
            else
              let replaced := replace (temporaryName spool.processId path) path ⟨bytes, clock⟩ stop
                files.records
              ({ files with records := replaced.1 }, writeOutcome replaced.2 ())

def Outcome.map {α β : Type} (transform : α → β) : Outcome α → Outcome β
  | .ok value => .ok (transform value)
  | .error failure => .error failure
  | .crash => .crash

def perform (clock : Nat) (files : SpoolFiles Bytes) :
    Call Bytes → SpoolFiles Bytes × Outcome (Option Nat)
  | .nextSequence stop =>
      let ended := nextSequenceUntil spool stop clock files
      (ended.1, ended.2.map some)
  | .append envelope stop =>
      let ended := appendUntil codec spool stop clock files envelope
      (ended.1, ended.2.map fun _ => none)

/-- A run without a stop is the call of the fault-free file system. -/
theorem nextSequence_eq_until (fault : Option WriteFault) (clock : Nat) (files : SpoolFiles Bytes) :
    ∃ stop, (fault = none → stop = none) ∧
      nextSequence spool { write := fault } clock files =
        nextSequenceUntil spool stop clock files := by
  cases counter : readSequence files.root with
  | error failure => exact ⟨none, fun _ => rfl, by simp [nextSequence, nextSequenceUntil, counter]⟩
  | ok current =>
      refine ⟨fault.map (WriteFault.stop ⟨Nat.repr (current + 1), clock⟩), by rintro rfl; rfl, ?_⟩
      simp only [nextSequence, nextSequenceUntil, counter, Bool.false_eq_true, if_false,
        atomicWrite_eq_replace]
      split
      · rfl
      · rcases replace (temporaryName spool.processId sequenceName) sequenceName
          (⟨Nat.repr (current + 1), clock⟩ : StoredFile String) _ files.root with
          ⟨root, _ | step | _⟩ <;> rfl

theorem append_eq_until (fault : Option WriteFault) (clock : Nat) (files : SpoolFiles Bytes)
    (envelope : TelemetryEnvelope) :
    append codec spool { write := fault } clock files envelope =
      appendUntil codec spool
        (fault.map (WriteFault.stop ⟨codec.toVec envelope, clock⟩)) clock files envelope := by
  unfold append appendUntil
  cases encoded : encodeJson codec envelope with
  | error failure => rfl
  | ok bytes =>
      obtain ⟨_, rfl⟩ := (encodeJson_ok_iff codec envelope bytes).mp encoded
      have same : stats codec spool { write := fault } clock files =
          stats codec spool {} clock files := rfl
      simp only [same, atomicWrite_eq_replace]
      all_goals rfl

/-! ## What an interrupted write leaves -/

/-- The checks before `atomic_write` pass. -/
def Call.Reaches (clock : Nat) (files : SpoolFiles Bytes) : Call Bytes → Prop
  | .nextSequence _ => ∃ current, readSequence files.root = .ok current ∧ current + 1 < 2 ^ 64
  | .append envelope _ =>
      envelope.Valid ∧
        (∃ total, stats codec spool {} clock files = .ok total ∧
          saturatingAdd total.bytes (codec.len (codec.toVec envelope)) ≤ spool.maxBytes) ∧
        recordName envelope.sequence ∉ files.records

/-- No earlier write left a temporary file, whichever process made it. -/
def SpoolFiles.Clean (files : SpoolFiles Bytes) : Prop :=
  (∀ processId, temporaryName processId sequenceName ∉ files.root) ∧
    ∀ processId sequence, temporaryName processId (recordName sequence) ∉ files.records

/-- The files a call leaves that was made as a whole or not at all. -/
def settledFiles (clock : Nat) (files : SpoolFiles Bytes) (call : Call Bytes) : SpoolFiles Bytes :=
  if call.commits then (perform codec spool clock files call.uninterrupted).1 else files

/-- Whatever process comes next finds the files of a call that was made as a
whole or not at all, and no step of its own write fails. -/
structure Recovers (clock : Nat) (files : SpoolFiles Bytes) (call : Call Bytes) : Prop where
  same : ∀ (later : DiskSpool) (laterClock : Nat) (next : Call Bytes), next.Uninterrupted →
    perform codec later laterClock (perform codec spool clock files call).1 next =
      perform codec later laterClock (settledFiles codec spool clock files call) next
  unhindered : ∀ (later : DiskSpool) (laterClock : Nat) (next : Call Bytes), next.Uninterrupted →
    ∀ message, (perform codec later laterClock (perform codec spool clock files call).1 next).2 ≠
      .error (.io message)

theorem readSequence_failure {root : Directory String} {failure : AppError}
    (failed : readSequence root = .error failure) (message : String) : failure ≠ .io message := by
  unfold readSequence at failed
  split at failed
  · cases failed
  · split at failed
    · cases failed
    · cases failed
      simp

theorem statsLoop_failure (clock : Nat) (records : Directory Bytes) (paths : List String)
    (present : ∀ path ∈ paths, ∃ file, records[path]? = some file) {counted : SpoolStats}
    {failure : AppError} (failed : statsLoop codec spool clock records paths counted = .error failure)
    (message : String) : failure ≠ .io message := by
  induction paths generalizing counted with
  | nil => cases failed
  | cons path rest inductionHypothesis =>
      obtain ⟨file, found⟩ := present path (by simp)
      rw [statsLoop, found] at failed
      dsimp only at failed
      split at failed
      · cases failed
        simp
      · exact inductionHypothesis (fun other member => present other (by simp [member])) failed

theorem stats_failure {clock : Nat} {files : SpoolFiles Bytes} {failure : AppError}
    (failed : stats codec spool {} clock files = .error failure) (message : String) :
    failure ≠ .io message := by
  have present : ∀ path ∈ recordPaths files.records, ∃ file, files.records[path]? = some file :=
    fun path member => ((mem_recordPaths files.records path).mp member).2
  cases counted : statsLoop codec spool clock files.records (recordPaths files.records) ⟨0, 0, 0⟩ with
  | error cause =>
      have same : stats codec spool {} clock files = .error cause := by
        rw [stats, counted]
        rfl
      rw [same] at failed
      cases failed
      exact statsLoop_failure codec spool clock files.records _ present counted message
  | ok total =>
      rw [stats, counted] at failed
      cases failed

theorem encodeJson_failure {envelope : TelemetryEnvelope} {failure : AppError}
    (failed : encodeJson codec envelope = .error failure) (message : String) :
    failure ≠ .io message := by
  have cause : envelope.validate = .error failure := by
    unfold encodeJson at failed
    cases checked : envelope.validate with
    | ok done =>
        rw [checked] at failed
        cases failed
    | error other =>
        rw [checked] at failed
        simpa [bind, Except.bind] using failed
  unfold TelemetryEnvelope.validate at cause
  split at cause
  · cases cause
    simp
  · split at cause
    · cases cause
      simp
    · split at cause
      · cases cause
        simp
      · cases cause

/-- Directories keep their records when a temporary file appears. -/
theorem stats_temporary (clock : Nat) (files : SpoolFiles Bytes) {name : String}
    (named : isRecordName name = false) (file : StoredFile Bytes) :
    stats codec spool {} clock { files with records := files.records.insert name file } =
      stats codec spool {} clock files := by
  have paths : recordPaths (files.records.insert name file) = recordPaths files.records := by
    have filtered := SortedMap.filter_insert isRecordName files.records name file
    rw [if_neg (by simp [named])] at filtered
    have keys := congrArg Std.ExtTreeMap.keys filtered
    rwa [Std.ExtTreeMap.keys_filter_key, Std.ExtTreeMap.keys_filter_key] at keys
  have loops : ∀ (selected : List String) (counted : SpoolStats),
      (∀ path ∈ selected, isRecordName path = true) →
      statsLoop codec spool clock (files.records.insert name file) selected counted =
        statsLoop codec spool clock files.records selected counted := by
    intro selected
    induction selected with
    | nil => exact fun _ _ => rfl
    | cons path rest inductionHypothesis =>
        intro counted kinds
        have distinct : name ≠ path := by
          rintro rfl
          have kind := kinds name (by simp)
          rw [named] at kind
          cases kind
        rw [statsLoop, statsLoop, SortedMap.getElem?_insert_of_ne _ _ distinct]
        simp only [inductionHypothesis _ fun other member => kinds other (by simp [member])]
  rw [stats, stats, paths, loops _ _ fun path member =>
    ((mem_recordPaths files.records path).mp member).1]

section Performed

variable {codec spool} {clock : Nat} {files : SpoolFiles Bytes}

theorem nextSequenceUntil_reaches (stop : Option (Stop (StoredFile String))) {current : Nat}
    (counter : readSequence files.root = .ok current) (bound : current + 1 < 2 ^ 64) :
    nextSequenceUntil spool stop clock files =
      let replaced := replace (temporaryName spool.processId sequenceName) sequenceName
        ⟨Nat.repr (current + 1), clock⟩ stop files.root
      ({ files with root := replaced.1 }, writeOutcome replaced.2 (current + 1)) := by
  rw [nextSequenceUntil, counter]
  exact if_neg (Nat.not_le.mpr bound)

theorem appendUntil_reaches (stop : Option (Stop (StoredFile Bytes))) {envelope : TelemetryEnvelope}
    {total : SpoolStats} (valid : envelope.Valid)
    (counted : stats codec spool {} clock files = .ok total)
    (room : saturatingAdd total.bytes (codec.len (codec.toVec envelope)) ≤ spool.maxBytes)
    (fresh : recordName envelope.sequence ∉ files.records) :
    appendUntil codec spool stop clock files envelope =
      let path := recordName envelope.sequence
      let replaced := replace (temporaryName spool.processId path) path
        ⟨codec.toVec envelope, clock⟩ stop files.records
      ({ files with records := replaced.1 }, writeOutcome replaced.2 ()) := by
  rw [appendUntil, (encodeJson_ok_iff codec envelope _).mpr ⟨valid, rfl⟩, counted]
  dsimp only
  rw [if_neg (Nat.not_lt.mpr room), if_neg fresh]

/-- A call that does not reach its write changes nothing, and no step of the
file system has failed. -/
theorem perform_refused {call : Call Bytes} (refused : ¬ call.Reaches codec spool clock files) :
    ∃ failure, (∀ message, failure ≠ .io message) ∧
      perform codec spool clock files call = (files, .error failure) := by
  cases call with
  | nextSequence stop =>
      cases counter : readSequence files.root with
      | error failure =>
          refine ⟨failure, readSequence_failure counter, ?_⟩
          simp only [perform, nextSequenceUntil, counter, Outcome.map]
      | ok current =>
          have exhausted : 2 ^ 64 ≤ current + 1 := by
            by_contra room
            exact refused ⟨current, counter, by omega⟩
          refine ⟨.protocol "telemetry sequence exhausted", by simp, ?_⟩
          simp only [perform, nextSequenceUntil, counter, if_pos exhausted, Outcome.map]
  | append envelope stop =>
      cases encoded : encodeJson codec envelope with
      | error failure =>
          refine ⟨failure, encodeJson_failure codec encoded, ?_⟩
          simp only [perform, appendUntil, encoded, Outcome.map]
      | ok bytes =>
          obtain ⟨valid, rfl⟩ := (encodeJson_ok_iff codec envelope bytes).mp encoded
          cases counted : stats codec spool {} clock files with
          | error failure =>
              refine ⟨failure, stats_failure codec spool counted, ?_⟩
              simp only [perform, appendUntil, encoded, counted, Outcome.map]
          | ok total =>
              by_cases full : spool.maxBytes <
                  saturatingAdd total.bytes (codec.len (codec.toVec envelope))
              · refine ⟨.protocol ("telemetry spool is full (" ++ toString spool.maxBytes ++
                  " byte limit)"), by simp, ?_⟩
                simp only [perform, appendUntil, encoded, counted, if_pos full, Outcome.map]
              · have present : recordName envelope.sequence ∈ files.records := by
                  by_contra fresh
                  exact refused ⟨valid, ⟨total, counted, Nat.not_lt.mp full⟩, fresh⟩
                refine ⟨.protocol ("telemetry sequence " ++ toString envelope.sequence ++
                  " already exists in spool"), by simp, ?_⟩
                simp only [perform, appendUntil, encoded, counted, if_neg full, if_pos present,
                  Outcome.map]

theorem reaches_uninterrupted (call : Call Bytes) :
    call.uninterrupted.Reaches codec spool clock files ↔ call.Reaches codec spool clock files := by
  cases call <;> exact Iff.rfl

/-- A call that leaves no temporary file was made as a whole or not at all. -/
theorem perform_tidy (clean : files.Clean) {call : Call Bytes}
    (tidy : call.Reaches codec spool clock files → ¬ call.Leaves) :
    (perform codec spool clock files call).1 = settledFiles codec spool clock files call := by
  by_cases reaches : call.Reaches codec spool clock files
  · replace tidy := tidy reaches
    cases call with
    | nextSequence stop =>
        obtain ⟨current, counter, bound⟩ := reaches
        have done : (replace (temporaryName spool.processId sequenceName) sequenceName
            ⟨Nat.repr (current + 1), clock⟩ stop files.root).1 = _ :=
          replace_tidy (clean.1 spool.processId) stop
          (fun point found => Bool.eq_false_of_not_eq_true fun leaves => tidy ⟨point, found, leaves⟩)
        have whole : replace (temporaryName spool.processId sequenceName) sequenceName
            ⟨Nat.repr (current + 1), clock⟩ none files.root = _ :=
          replace_clear (clean.1 spool.processId)
        simp only [perform, settledFiles, Call.commits, Call.uninterrupted,
          nextSequenceUntil_reaches _ counter bound, done, whole, settled]
        split <;> rfl
    | append envelope stop =>
        obtain ⟨valid, ⟨total, counted, room⟩, fresh⟩ := reaches
        have done : (replace (temporaryName spool.processId (recordName envelope.sequence))
            (recordName envelope.sequence) ⟨codec.toVec envelope, clock⟩ stop files.records).1 = _ :=
          replace_tidy (clean.2 spool.processId envelope.sequence) stop
          (fun point found => Bool.eq_false_of_not_eq_true fun leaves => tidy ⟨point, found, leaves⟩)
        have whole : replace (temporaryName spool.processId (recordName envelope.sequence))
            (recordName envelope.sequence) ⟨codec.toVec envelope, clock⟩ none files.records = _ :=
          replace_clear (clean.2 spool.processId envelope.sequence)
        simp only [perform, settledFiles, Call.commits, Call.uninterrupted,
          appendUntil_reaches _ valid counted room fresh, done, whole, settled]
        split <;> rfl
  · obtain ⟨failure, _, stays⟩ := perform_refused reaches
    obtain ⟨other, _, whole⟩ := perform_refused (mt (reaches_uninterrupted call).mp reaches)
    rw [settledFiles, stays, whole]
    split <;> rfl

/-- A whole call on clean files leaves clean files, and none of its steps fails. -/
theorem perform_whole (clean : files.Clean) {call : Call Bytes} (whole : call.Uninterrupted) :
    (perform codec spool clock files call).1.Clean ∧
      ∀ message, (perform codec spool clock files call).2 ≠ .error (.io message) := by
  by_cases reaches : call.Reaches codec spool clock files
  · cases call with
    | nextSequence stop =>
        obtain rfl : stop = none := whole
        obtain ⟨current, counter, bound⟩ := reaches
        simp only [perform, nextSequenceUntil_reaches none counter bound,
          replace_clear (clean.1 spool.processId), writeOutcome, Outcome.map]
        refine ⟨⟨?_, clean.2⟩, by simp⟩
        intro processId present
        rw [Std.ExtTreeMap.mem_insert, Std.LawfulEqOrd.compare_eq_iff_eq] at present
        rcases present with same | earlier
        · exact temporaryName_sequenceName_ne processId same.symm
        · exact clean.1 processId earlier
    | append envelope stop =>
        obtain rfl : stop = none := whole
        obtain ⟨valid, ⟨total, counted, room⟩, fresh⟩ := reaches
        simp only [perform, appendUntil_reaches none valid counted room fresh,
          replace_clear (clean.2 spool.processId envelope.sequence), writeOutcome, Outcome.map]
        refine ⟨⟨clean.1, ?_⟩, by simp⟩
        intro processId sequence present
        rw [Std.ExtTreeMap.mem_insert, Std.LawfulEqOrd.compare_eq_iff_eq] at present
        rcases present with same | earlier
        · exact temporaryName_ne_recordName processId sequence envelope.sequence same.symm
        · exact clean.2 processId sequence earlier
  · obtain ⟨failure, other, stays⟩ := perform_refused reaches
    rw [stays]
    exact ⟨clean, fun message same => other message (by simpa using same)⟩

/-- The next process with the same id fails where the temporary file stays. -/
theorem perform_blocked (clean : files.Clean) {call : Call Bytes}
    (reaches : call.Reaches codec spool clock files) (leaves : call.Leaves) :
    (perform codec spool clock (perform codec spool clock files call).1 call.uninterrupted).2 =
      .error (.io "could not create temporary spool record") := by
  cases call with
  | nextSequence stop =>
      obtain ⟨current, counter, bound⟩ := reaches
      obtain ⟨point, rfl, left⟩ := leaves
      obtain ⟨written, stays⟩ : ∃ written,
          (replace (temporaryName spool.processId sequenceName) sequenceName
            ⟨Nat.repr (current + 1), clock⟩ (some point) files.root).1 =
            files.root.insert (temporaryName spool.processId sequenceName) written :=
        replace_leaves (clean.1 spool.processId) point left
      have later : readSequence (files.root.insert
          (temporaryName spool.processId sequenceName) written) = .ok current := by
        rw [readSequence_temporary, counter]
      simp only [perform, Call.uninterrupted, nextSequenceUntil_reaches _ counter bound, stays]
      rw [@nextSequenceUntil_reaches _ spool _ { files with
        root := files.root.insert (temporaryName spool.processId sequenceName) written }
        none _ later bound]
      simp only [replace_blocked (Std.ExtTreeMap.mem_insert_self), writeOutcome, writeFailure,
        Outcome.map]
  | append envelope stop =>
      obtain ⟨valid, ⟨total, counted, room⟩, fresh⟩ := reaches
      obtain ⟨point, rfl, left⟩ := leaves
      obtain ⟨written, stays⟩ : ∃ written,
          (replace (temporaryName spool.processId (recordName envelope.sequence))
            (recordName envelope.sequence) ⟨codec.toVec envelope, clock⟩ (some point)
            files.records).1 =
            files.records.insert (temporaryName spool.processId (recordName envelope.sequence))
              written :=
        replace_leaves (clean.2 spool.processId envelope.sequence) point left
      have later : stats codec spool {} clock { files with
          records := files.records.insert
            (temporaryName spool.processId (recordName envelope.sequence)) written } =
          .ok total := by
        rw [stats_temporary codec spool clock files
          (isRecordName_temporaryName_recordName spool.processId envelope.sequence), counted]
      have absent : recordName envelope.sequence ∉ files.records.insert
          (temporaryName spool.processId (recordName envelope.sequence)) written := by
        rw [Std.ExtTreeMap.mem_insert, Std.LawfulEqOrd.compare_eq_iff_eq, not_or]
        exact ⟨temporaryName_ne_recordName _ _ _, fresh⟩
      simp only [perform, Call.uninterrupted,
        appendUntil_reaches _ valid counted room fresh, stays]
      rw [@appendUntil_reaches _ codec spool _ { files with
        records := files.records.insert
          (temporaryName spool.processId (recordName envelope.sequence)) written }
        none _ _ valid later room absent]
      simp only [replace_blocked (Std.ExtTreeMap.mem_insert_self), writeOutcome, writeFailure,
        Outcome.map]

end Performed

/-- A spool recovers from an interrupted write exactly when no temporary file
stays behind. -/
theorem recovers_iff (clock : Nat) (files : SpoolFiles Bytes) (clean : files.Clean)
    (call : Call Bytes) :
    Recovers codec spool clock files call ↔
      (call.Reaches codec spool clock files → ¬ call.Leaves) := by
  constructor
  · intro recovers reaches leaves
    refine recovers.unhindered spool clock call.uninterrupted ?_ _
      (perform_blocked clean reaches leaves)
    cases call <;> rfl
  · intro tidy
    have settles := perform_tidy clean tidy
    have stillClean : (settledFiles codec spool clock files call).Clean := by
      unfold settledFiles
      split
      · refine (perform_whole clean ?_).1
        cases call <;> rfl
      · exact clean
    constructor
    · intro later laterClock next _
      rw [settles]
    · intro later laterClock next whole
      rw [settles]
      exact (perform_whole stillClean whole).2

end Calls

end SystemPilot.Spool
