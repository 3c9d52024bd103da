import SystemPilot.Evidence.Calls
import SystemPilot.Evidence.Retention

/-!
# Saving is atomic while nobody interferes

A `save` among other calls on its directory.  Until it renames its temporary file it
changes no case, and from then on it has committed.
-/

set_option autoImplicit false

namespace SystemPilot.Evidence

open SystemPilot.Library

variable {Details : Type} (codec : BundleCodec Details)

/-! ## Interference -/

/-- What an operation needs is there. -/
def Ready (disk : Disk) : FileOp → Prop
  | .remove name => name ∈ disk.files
  | .read name => ∃ bytes, disk.find name = some bytes ∧ Readable codec bytes
  | .metadata name => name ∈ disk.files
  | _ => True

/-- What the next operation needs is there. -/
def ReadyNext (disk : Disk) : Program FileOp.Result (Except Stop Unit) → Prop
  | .done _ => True
  | .perform op _ => Ready codec disk op

/-- The operation is on a temporary file that is in flight. -/
def Commits : FileOp → Prop
  | .write _ _ => True
  | .rename _ _ => True
  | _ => False

/-- The temporary file is about to be written or renamed. -/
def InFlight : Program FileOp.Result (Except Stop Unit) → Prop
  | .done _ => False
  | .perform op _ => Commits op

/-- The next operation takes a name away. -/
def TakesNext (name : String) : Program FileOp.Result (Except Stop Unit) → Prop
  | .done _ => False
  | .perform op _ => op.Takes name

variable {Process : Type} [DecidableEq Process]

/-- The step does not disturb a process: what its own operation needs is there, and
another process does not take its temporary file away while that is in flight. -/
structure Undisturbed (process : Process) (temporary : String) (crowd : Crowd Process)
    (event : Process × Surroundings) : Prop where
  ready : event.1 = process → ReadyNext codec crowd.state (crowd.programs process)
  left : event.1 ≠ process → InFlight (crowd.programs process) →
    ¬ TakesNext temporary (crowd.programs event.1)

variable {codec}

omit [DecidableEq Process] in
theorem served_of_ready {disk : Disk} {op : FileOp} (ready : Ready codec disk op)
    (surroundings : Surroundings) : Served codec op (Disk.perform op surroundings disk).1 := by
  cases op with
  | remove name => exact decide_eq_true ready
  | read name => exact ready
  | metadata name =>
      have there := Disk.find_isSome.mpr ready
      obtain ⟨bytes, found⟩ := Option.isSome_iff_exists.mp there
      exact ⟨bytes.length, by rw [Disk.perform, found]; rfl⟩
  | _ => exact trivial

section Decisions

variable {disk : Disk}

omit [DecidableEq Process] in
theorem readable_iff_of_ok {bytes : List UInt8} {bundle : EvidenceBundleV1 Details}
    (decoded : codec.decode bytes = .ok bundle) :
    bundle.validate = .ok () ∧ CaseStore.path bundle.caseId = .ok (fileName bundle.caseId) ↔
      Readable codec bytes := by
  constructor
  · exact fun proper => ⟨bundle, decoded, proper⟩
  · rintro ⟨other, found, proper⟩
    obtain rfl : bundle = other := Except.ok.inj (decoded.symm.trans found)
    exact proper

theorem not_readable_of_error {bytes : List UInt8} {e : String}
    (refused : codec.decode bytes = .error e) : ¬ Readable codec bytes := by
  rintro ⟨bundle, decoded, -⟩
  rw [refused] at decoded
  cases decoded

instance (bytes : List UInt8) : Decidable (Readable codec bytes) :=
  match found : codec.decode bytes with
  | .ok bundle =>
      have : Decidable (bundle.validate = .ok ()) := instDecidableEqExcept_batteries _ _
      have : Decidable (CaseStore.path bundle.caseId = .ok (fileName bundle.caseId)) :=
        instDecidableEqExcept_batteries _ _
      decidable_of_iff _ (readable_iff_of_ok found)
  | .error _ => isFalse (not_readable_of_error found)

instance : (op : FileOp) → Decidable (Ready codec disk op)
  | .readDir => inferInstanceAs (Decidable True)
  | .remove name => inferInstanceAs (Decidable (name ∈ disk.files))
  | .createNew _ => inferInstanceAs (Decidable True)
  | .write _ _ => inferInstanceAs (Decidable True)
  | .rename _ _ => inferInstanceAs (Decidable True)
  | .read name => inferInstanceAs (Decidable (∃ bytes ∈ disk.find name, Readable codec bytes))
  | .metadata name => inferInstanceAs (Decidable (name ∈ disk.files))
  | .now => inferInstanceAs (Decidable True)

instance : (program : Program FileOp.Result (Except Stop Unit)) →
    Decidable (ReadyNext codec disk program)
  | .done _ => inferInstanceAs (Decidable True)
  | .perform op _ => inferInstanceAs (Decidable (Ready codec disk op))

instance : DecidablePred Commits
  | .readDir => inferInstanceAs (Decidable False)
  | .remove _ => inferInstanceAs (Decidable False)
  | .createNew _ => inferInstanceAs (Decidable False)
  | .write _ _ => inferInstanceAs (Decidable True)
  | .rename _ _ => inferInstanceAs (Decidable True)
  | .read _ => inferInstanceAs (Decidable False)
  | .metadata _ => inferInstanceAs (Decidable False)
  | .now => inferInstanceAs (Decidable False)

instance : DecidablePred InFlight
  | .done _ => inferInstanceAs (Decidable False)
  | .perform op _ => inferInstanceAs (Decidable (Commits op))

instance (name : String) : DecidablePred (TakesNext name)
  | .done _ => inferInstanceAs (Decidable False)
  | .perform op _ => inferInstanceAs (Decidable (op.Takes name))

omit [DecidableEq Process] in
theorem undisturbed_iff {process : Process} {temporary : String} {crowd : Crowd Process}
    {event : Process × Surroundings} :
    (event.1 = process → ReadyNext codec crowd.state (crowd.programs process)) ∧
        (event.1 ≠ process → InFlight (crowd.programs process) →
          ¬ TakesNext temporary (crowd.programs event.1)) ↔
      Undisturbed codec process temporary crowd event :=
  ⟨fun both => ⟨both.1, both.2⟩, fun undisturbed => ⟨undisturbed.ready, undisturbed.left⟩⟩

instance (process : Process) (temporary : String) (crowd : Crowd Process)
    (event : Process × Surroundings) :
    Decidable (Undisturbed codec process temporary crowd event) :=
  decidable_of_iff _ undisturbed_iff

end Decisions

/-! ## The parts of a save -/

section Parts

variable (store : CaseStore) (codec) (bundle : EvidenceBundleV1 Details)

/-- What `save` does in a directory that is prepared. -/
def finishing : Action Unit := do
  let path ← Action.ofResult (CaseStore.path bundle.caseId)
  match codec.encode bundle with
  | .error e => Action.fail (.protocol ("could not encode evidence bundle: " ++ e))
  | .ok bytes => store.commit codec (temporaryName bundle.caseId) path bytes

/-- The last step before the case is committed. -/
def committing : Action Unit := do
  let renamed ← Action.call (.rename (temporaryName bundle.caseId) (fileName bundle.caseId))
  if renamed then store.enforceRetention codec else Action.fail (.io "could not commit case")

/-- What `save` does with the temporary file it has asked for. -/
def opened (bytes : List UInt8) : Option Nat → Action Unit
  | none => Action.fail (.io "could not create temporary case")
  | some file => do
      Action.call (.write file bytes)
      committing codec store bundle

variable {store codec bundle}

theorem commit_eq (bytes : List UInt8) :
    store.commit codec (temporaryName bundle.caseId) (fileName bundle.caseId) bytes =
      Program.perform (.createNew (temporaryName bundle.caseId))
        (opened codec store bundle bytes) := by
  refine congrArg (Program.perform (FileOp.createNew (temporaryName bundle.caseId)))
    (funext fun created => ?_)
  cases created with
  | none => rfl
  | some file => rfl

theorem save_of_valid (valid : bundle.validate = .ok ()) :
    store.save codec bundle = (CaseStore.prepare >>= fun _ => finishing codec store bundle) := by
  unfold CaseStore.save
  rw [valid]
  rfl

theorem save_of_invalid {error : AppError} (invalid : bundle.validate = .error error) :
    store.save codec bundle = Program.done (.error (.failed error)) := by
  unfold CaseStore.save
  rw [invalid]
  rfl

theorem finishing_of_located {bytes : List UInt8}
    (located : CaseStore.path bundle.caseId = .ok (fileName bundle.caseId))
    (encoded : codec.encode bundle = .ok bytes) :
    finishing codec store bundle =
      store.commit codec (temporaryName bundle.caseId) (fileName bundle.caseId) bytes := by
  unfold finishing
  rw [located, encoded]
  rfl

theorem finishing_of_unlocated {error : AppError}
    (unlocated : CaseStore.path bundle.caseId = .error error) :
    finishing codec store bundle = Program.done (.error (.failed error)) := by
  unfold finishing
  rw [unlocated]
  rfl

/-- The next temporary file that is cleared, or none is left. -/
theorem clear_cases (names : List String) (rest : Unit → Action Unit) :
    ((∀ name ∈ names, extension name ≠ some "tmp") ∧ (clear names >>= rest) = rest ()) ∨
      ∃ name later next, extension name = some "tmp" ∧
        (∀ other ∈ names, extension other = some "tmp" → other = name ∨ other ∈ later) ∧
        (clear names >>= rest) = Program.perform (.remove name) next ∧
        next true = (clear later >>= rest) := by
  induction names with
  | nil => exact Or.inl ⟨by simp, rfl⟩
  | cons name names inductionHypothesis =>
      by_cases temporary : extension name = some "tmp"
      · refine Or.inr ⟨name, names, fun removed => ((if removed then clear names
          else Action.fail (.io "could not remove interrupted case file")) >>= rest : Action Unit),
          temporary, fun other member _ => List.mem_cons.mp member, ?_, rfl⟩
        rw [clear, if_pos temporary]
        rfl
      · rw [clear, if_neg temporary]
        rcases inductionHypothesis with ⟨none, same⟩ | ⟨first, later, next, found, listed, same⟩
        · refine Or.inl ⟨?_, same⟩
          intro other member
          rcases List.mem_cons.mp member with rfl | member
          · exact temporary
          · exact none other member
        · refine Or.inr ⟨first, later, next, found, ?_, same⟩
          intro other member extended
          rcases List.mem_cons.mp member with rfl | member
          · exact absurd extended temporary
          · exact listed other member extended

end Parts

/-! ## Before the commit -/

section Stages

variable {calls : Process → Call Details} {process : Process} {crowd : Crowd Process}
variable {store : CaseStore} {bundle : EvidenceBundleV1 Details} {bytes : List UInt8} {alone : Prop}
variable {event : Process × Surroundings}

theorem temporaryName_ne_json (id : String) : extension (temporaryName id) ≠ some "json" := by
  by_cases empty : id = ""
  · rw [empty]
    decide
  · rw [extension_temporaryName empty]
    decide

omit [DecidableEq Process] in
/-- What another call does next does not make the temporary name. -/
theorem makes_of_orderly (orderly : Orderly calls crowd) {other : Process} {op : FileOp}
    {next : op.Result → Program FileOp.Result (Except Stop Unit)}
    (current : crowd.programs other = .perform op next) :
    Permitted (calls other) op := by
  have tame := orderly other crowd.state.next le_rfl
  rw [current] at tame
  exact tame.1.1

variable (calls process crowd bundle) in
/-- The temporary file of a save, which no other process writes. -/
structure Own (file : Nat) : Prop where
  named : ∀ name, crowd.state.files.lookup name = some file ↔ name = temporaryName bundle.caseId
  spared : ∀ other, other ≠ process → Tame (calls other) file (crowd.programs other)

variable (codec calls process crowd store bundle bytes alone) in
/-- Where a save is before it commits.  Nobody else makes its temporary file if it is
alone. -/
inductive Stage : Prop where
  | listing (current : crowd.programs process =
      (CaseStore.prepare >>= fun _ => finishing codec store bundle : Action Unit))
  | clearing (names : List String) (current : crowd.programs process =
        (clear names >>= fun _ => finishing codec store bundle : Action Unit))
      (listed : alone → bundle.caseId ≠ "" → temporaryName bundle.caseId ∈ crowd.state.files →
        temporaryName bundle.caseId ∈ names)
  | writing (file : Nat) (current : crowd.programs process =
        (Action.call (.write file bytes) >>= fun _ => committing codec store bundle : Action Unit))
      (own : Own calls process crowd bundle file)
  | committing (file : Nat) (current : crowd.programs process =
        (Evidence.committing codec store bundle : Action Unit))
      (own : Own calls process crowd bundle file) (whole : crowd.state.contents file = bytes)
  | stopped (error : AppError) (current : crowd.programs process = .done (.error (.failed error)))
      (reason : ¬ (bundle.validate = .ok () ∧
        CaseStore.path bundle.caseId = .ok (fileName bundle.caseId) ∧ alone))

omit [DecidableEq Process] in
theorem Own.old {file : Nat} (own : Own calls process crowd bundle file) :
    file < crowd.state.next :=
  crowd.state.bound _ file ((own.named _).mpr rfl)

/-- A step of another process that leaves the temporary file leaves it as it is. -/
theorem Own.step_other {file : Nat} (own : Own calls process crowd bundle file)
    (orderly : Orderly calls crowd)
    (left : ¬ TakesNext (temporaryName bundle.caseId) (crowd.programs event.1)) :
    Own calls process (step crowd event) bundle file := by
  refine ⟨?_, fun other apart => tame_step (own.spared other apart) (Or.inl own.old)⟩
  intro name
  cases current : crowd.programs event.1 with
  | done result =>
      rw [step, Effects.advance_done current]
      exact own.named name
  | perform op next =>
      rw [current] at left
      rw [state_step current]
      refine Disk.lookup_perform_iff own.named left ?_ name
      rintro source rfl
      exact temporaryName_ne_json bundle.caseId (makes_of_orderly orderly current)

/-- Nobody else disturbs a save before it commits. -/
theorem Stage.step_other (stage : Stage codec calls process crowd store bundle bytes alone)
    (orderly : Orderly calls crowd) (other : event.1 ≠ process)
    (undisturbed : Undisturbed codec process (temporaryName bundle.caseId) crowd event)
    (unshared : alone → ∀ saved, (calls event.1).task = .save saved →
      saved.caseId ≠ bundle.caseId) :
    Stage codec calls process (step crowd event) store bundle bytes alone := by
  have same : (step crowd event).programs process = crowd.programs process :=
    Effects.programs_advance_of_ne other
  cases stage with
  | listing current => exact .listing (same.trans current)
  | stopped error current reason => exact .stopped error (same.trans current) reason
  | clearing names current listed =>
      refine .clearing names (same.trans current) fun lonely nonempty there =>
        listed lonely nonempty ?_
      cases doing : crowd.programs event.1 with
      | done result =>
          rw [step, Effects.advance_done doing] at there
          exact there
      | perform op next =>
          rw [state_step doing] at there
          refine Disk.mem_of_mem_perform ?_ there
          have permitted := makes_of_orderly orderly doing
          intro makes
          cases op with
          | createNew name =>
              obtain ⟨saved, saves, rfl⟩ := permitted
              exact unshared lonely saved saves (temporaryName_injective makes)
          | rename source target =>
              rw [show target = _ from makes] at permitted
              exact temporaryName_ne_json bundle.caseId permitted
          | _ => exact makes
  | writing file current own =>
      have flies : InFlight (crowd.programs process) := by
        rw [current]
        exact trivial
      exact .writing file (same.trans current)
        (own.step_other orderly (undisturbed.left other flies))
  | committing file current own whole =>
      have flies : InFlight (crowd.programs process) := by
        rw [current]
        exact trivial
      refine .committing file (same.trans current)
        (own.step_other orderly (undisturbed.left other flies)) ?_
      cases doing : crowd.programs event.1 with
      | done result =>
          rw [step, Effects.advance_done doing]
          exact whole
      | perform op next =>
          rw [state_step doing, Disk.contents_perform own.old ?_]
          · exact whole
          · have tame := own.spared event.1 other
            rw [doing] at tame
            exact tame.1.2

/-- The step changes no case. -/
def Quiet (crowd : Crowd Process) (event : Process × Surroundings) : Prop :=
  ∀ name, extension name = some "json" → (step crowd event).state.find name = crowd.state.find name

variable (codec process crowd) in
/-- What is left of a save that has committed; it can no longer fail. -/
def Settled : Prop := Action.Goes codec True (fun _ => True) (crowd.programs process : Action Unit)

theorem quiet_of_done {result : Except Stop Unit} (current : crowd.programs event.1 = .done result) :
    step crowd event = crowd := Effects.advance_done current

theorem json_ne_temporaryName {name : String} (permanent : extension name = some "json")
    (id : String) : name ≠ temporaryName id := by
  rintro rfl
  exact temporaryName_ne_json id permanent

/-- The temporary file is made when the directory is cleared. -/
theorem Stage.step_finishing (orderly : Orderly calls crowd)
    (current : crowd.programs event.1 = (finishing codec store bundle : Action Unit))
    (free : alone → bundle.caseId ≠ "" → temporaryName bundle.caseId ∉ crowd.state.files)
    (encoded : codec.encode bundle = .ok bytes) :
    Stage codec calls event.1 (step crowd event) store bundle bytes alone ∧ Quiet crowd event := by
  cases path : CaseStore.path bundle.caseId with
  | error error =>
      have stopped := current.trans (finishing_of_unlocated path)
      rw [Quiet, quiet_of_done stopped]
      refine ⟨.stopped error stopped ?_, fun _ _ => rfl⟩
      rintro ⟨-, located, -⟩
      rw [path] at located
      cases located
  | ok name =>
      obtain ⟨nonempty, -, rfl⟩ := path_ok_iff.mp path
      have doing := current.trans ((finishing_of_located path encoded).trans (commit_eq bytes))
      have advanced : (step crowd event).programs event.1 = opened codec store bundle bytes
          (Disk.perform (.createNew (temporaryName bundle.caseId)) event.2 crowd.state).1 :=
        Effects.programs_advance_self doing
      by_cases there : temporaryName bundle.caseId ∈ crowd.state.files
      · have refused : Disk.perform (.createNew (temporaryName bundle.caseId)) event.2 crowd.state =
            (none, crowd.state) := if_pos there
        rw [refused] at advanced
        refine ⟨.stopped _ advanced fun reason => free reason.2.2 nonempty there, fun _ _ => ?_⟩
        rw [state_step doing, refused]
      · have created := Disk.perform_createNew there event.2
        rw [created] at advanced
        refine ⟨.writing crowd.state.next advanced ⟨?_, ?_⟩, ?_⟩
        · intro name
          rw [state_step doing, created]
          exact Disk.lookup_create_iff _ name
        · intro other apart
          have same : (step crowd event).programs other = crowd.programs other :=
            Effects.programs_advance_of_ne (Ne.symm apart)
          rw [same]
          exact orderly other crowd.state.next le_rfl
        · intro name permanent
          rw [state_step doing, created]
          exact (Disk.find_create _ name).trans (if_neg (json_ne_temporaryName permanent _))

/-- A step of the save itself changes no case before the commit, which is one step. -/
theorem Stage.step_own (stage : Stage codec calls event.1 crowd store bundle bytes alone)
    (orderly : Orderly calls crowd)
    (undisturbed : Undisturbed codec event.1 (temporaryName bundle.caseId) crowd event)
    (encoded : codec.encode bundle = .ok bytes) :
    (Stage codec calls event.1 (step crowd event) store bundle bytes alone ∧ Quiet crowd event) ∨
      (Settled codec event.1 (step crowd event) ∧
        (step crowd event).state.find (fileName bundle.caseId) = some bytes) := by
  cases stage with
  | listing current =>
      have doing : crowd.programs event.1 = .perform .readDir (fun names =>
        (clear names >>= fun _ => finishing codec store bundle : Action Unit)) := current
      refine Or.inl ⟨.clearing _ (Effects.programs_advance_self doing) fun _ _ there => ?_, ?_⟩
      · rw [state_step doing] at there
        exact (Disk.mem_order_keys event.2).mpr there
      · intro name _
        rw [state_step doing]
        rfl
  | clearing names current listed =>
      rcases clear_cases names (fun _ => finishing codec store bundle) with
        ⟨none, cleared⟩ | ⟨name, later, next, temporary, rest, cleared, following⟩
      · refine Or.inl (Stage.step_finishing orderly (current.trans cleared) ?_ encoded)
        intro lonely nonempty there
        exact none _ (listed lonely nonempty there) (extension_temporaryName nonempty)
      · have doing := current.trans cleared
        have there := undisturbed.ready rfl
        rw [doing] at there
        have found : (Disk.perform (.remove name) event.2 crowd.state).1 = true := decide_eq_true there
        have advanced : (step crowd event).programs event.1 =
            next (Disk.perform (.remove name) event.2 crowd.state).1 :=
          Effects.programs_advance_self doing
        rw [found] at advanced
        refine Or.inl ⟨.clearing later (advanced.trans following) fun lonely nonempty present => ?_, ?_⟩
        · rw [state_step doing, ← Disk.find_isSome] at present
          change ((crowd.state.remove name).find (temporaryName bundle.caseId)).isSome at present
          rw [Disk.find_remove] at present
          split at present
          · cases present
          · rename_i apart
            have before := Disk.find_isSome.mp present
            exact (rest _ (listed lonely nonempty before)
              (extension_temporaryName nonempty)).resolve_left apart
        · intro other permanent
          rw [state_step doing]
          refine (Disk.find_remove name other).trans (if_neg ?_)
          rintro rfl
          rw [temporary] at permanent
          exact absurd permanent (by decide)
  | writing file current own =>
      have doing : crowd.programs event.1 = .perform (.write file bytes) (fun _ =>
        (Evidence.committing codec store bundle : Action Unit)) := current
      refine Or.inl ⟨.committing file (Effects.programs_advance_self doing) ⟨?_, ?_⟩ ?_, ?_⟩
      · intro name
        rw [state_step doing]
        exact own.named name
      · intro other apart
        exact tame_step (own.spared other apart) (Or.inl own.old)
      · rw [state_step doing]
        exact Function.update_self _ _ _
      · intro name permanent
        rw [state_step doing]
        exact (Disk.find_write bytes own.named name).trans
          (if_neg (json_ne_temporaryName permanent _))
  | committing file current own whole =>
      have doing : crowd.programs event.1 = .perform
        (.rename (temporaryName bundle.caseId) (fileName bundle.caseId)) (fun renamed =>
          (if renamed then store.enforceRetention codec
          else Action.fail (.io "could not commit case") : Action Unit)) := current
      have there := (own.named _).mpr rfl
      have moved := @Disk.move_of_lookup _ _ (fileName bundle.caseId) _ there
      refine Or.inr ⟨?_, ?_⟩
      · have advanced : (step crowd event).programs event.1 =
            (if (Disk.perform (.rename (temporaryName bundle.caseId) (fileName bundle.caseId)) event.2
              crowd.state).1 then store.enforceRetention codec
            else Action.fail (.io "could not commit case") : Action Unit) :=
          Effects.programs_advance_self doing
        rw [Disk.perform, moved] at advanced
        rw [Settled, advanced]
        exact enforceRetention_goes
      · rw [state_step doing, Disk.perform, moved]
        refine (Disk.find_rename _ there _).trans ((if_pos rfl).trans ?_)
        rw [Disk.find, there, ← whole]
        rfl
  | stopped error current reason =>
      rw [Quiet, quiet_of_done current]
      exact Or.inl ⟨.stopped error current reason, fun _ _ => rfl⟩

/-- A save that has committed keeps being served. -/
theorem Settled.step (settled : Settled codec process crowd) {temporary : String}
    (undisturbed : Undisturbed codec process temporary crowd event) :
    Settled codec process (step crowd event) := by
  refine Effects.keeps_advance settled fun own op next current _ => ?_
  have ready := undisturbed.ready own
  rw [current] at ready
  exact served_of_ready ready event.2

/-! ## Runs -/

/-- Along an undisturbed run a save is still before its commit and has changed no case,
or one of its steps was the commit. -/
theorem Stage.run {events : List (Process × Surroundings)}
    (stage : Stage codec calls process crowd store bundle bytes alone)
    (orderly : Orderly calls crowd) (encoded : codec.encode bundle = .ok bytes)
    (undisturbed : Machine.EveryStep step
      (Undisturbed codec process (temporaryName bundle.caseId)) crowd events)
    (unshared : alone → ∀ event ∈ events, event.1 ≠ process →
      ∀ saved, (calls event.1).task = .save saved → saved.caseId ≠ bundle.caseId) :
    (Stage codec calls process (Machine.run step crowd events) store bundle bytes alone ∧
        ∀ pair ∈ Machine.visited step crowd events, pair.2.1 = process → Quiet pair.1 pair.2) ∨
      (Settled codec process (Machine.run step crowd events) ∧
        ∃ pair ∈ Machine.visited step crowd events, pair.2.1 = process ∧
          (Evidence.step pair.1 pair.2).state.find (fileName bundle.caseId) = some bytes) := by
  induction events generalizing crowd with
  | nil => exact Or.inl ⟨stage, fun _ impossible => absurd impossible List.not_mem_nil⟩
  | cons event events inductionHypothesis =>
      obtain ⟨first, rest⟩ := (Machine.everyStep_cons _ _ _ _ _).mp undisturbed
      have later : alone → ∀ other ∈ events, other.1 ≠ process →
          ∀ saved, (calls other.1).task = .save saved → saved.caseId ≠ bundle.caseId :=
        fun lonely other member => unshared lonely other (List.mem_cons_of_mem _ member)
      have now : (Stage codec calls process (Evidence.step crowd event) store bundle bytes alone ∧
            (event.1 = process → Quiet crowd event)) ∨
          (Settled codec process (Evidence.step crowd event) ∧ event.1 = process ∧
            (Evidence.step crowd event).state.find (fileName bundle.caseId) = some bytes) := by
        by_cases own : event.1 = process
        · subst own
          rcases stage.step_own orderly first encoded with ⟨next, quiet⟩ | ⟨settled, committed⟩
          · exact Or.inl ⟨next, fun _ => quiet⟩
          · exact Or.inr ⟨settled, rfl, committed⟩
        · refine Or.inl ⟨stage.step_other orderly own first fun lonely => ?_, fun same => absurd same own⟩
          exact unshared lonely event List.mem_cons_self own
      rcases now with ⟨next, quiet⟩ | ⟨settled, own, committed⟩
      · rcases inductionHypothesis next orderly.step rest later with
          ⟨last, others⟩ | ⟨last, pair, member, committed⟩
        · refine Or.inl ⟨last, ?_⟩
          intro pair member own
          rcases List.mem_cons.mp member with rfl | member
          · exact quiet own
          · exact others pair member own
        · exact Or.inr ⟨last, pair, List.mem_cons_of_mem _ member, committed⟩
      · refine Or.inr ⟨?_, (crowd, event), List.mem_cons_self, own, committed⟩
        exact Machine.run_invariant Evidence.step (Settled codec process)
          (Undisturbed codec process (temporaryName bundle.caseId))
          (fun _ _ before undisturbed => before.step undisturbed) (Evidence.step crowd event) events
          settled rest

variable (codec calls) in
/-- The processes after some steps of calls that started on a directory. -/
def reached (disk : Disk) (earlier : List (Process × Surroundings)) : Crowd Process :=
  Machine.run step (atStart calls codec disk) earlier

theorem orderly_reached (disk : Disk) (earlier : List (Process × Surroundings)) :
    Orderly calls (reached codec calls disk earlier) :=
  Machine.run_invariant_always step (Orderly calls) (fun _ _ before => before.step) _ _
    (orderly_atStart disk)

/-- A process that has taken no step is at the start of its call. -/
theorem programs_reached (disk : Disk) {earlier : List (Process × Surroundings)}
    (waits : ∀ event ∈ earlier, event.1 ≠ process) :
    (reached codec calls disk earlier).programs process = (calls process).program codec := by
  have still : ∀ (crowd : Crowd Process),
      (Machine.run step crowd earlier).programs process = crowd.programs process := by
    induction earlier with
    | nil => exact fun _ => rfl
    | cons event earlier inductionHypothesis =>
        intro crowd
        rw [Machine.run_cons, inductionHypothesis fun later member =>
          waits later (List.mem_cons_of_mem _ member)]
        exact Effects.programs_advance_of_ne (waits event List.mem_cons_self)
  exact still _

theorem stage_reached (disk : Disk) {earlier : List (Process × Surroundings)}
    (waits : ∀ event ∈ earlier, event.1 ≠ process)
    (saves : (calls process).task = .save bundle) :
    Stage codec calls process (reached codec calls disk earlier) (calls process).store bundle bytes
      alone := by
  have current : (reached codec calls disk earlier).programs process =
      (calls process).program codec := programs_reached disk waits
  rw [Call.program, saves] at current
  cases valid : bundle.validate with
  | ok _ => exact .listing (current.trans (save_of_valid valid))
  | error error =>
      refine .stopped error (current.trans (save_of_invalid valid)) ?_
      rintro ⟨impossible, -⟩
      rw [valid] at impossible
      cases impossible

omit [DecidableEq Process] in
/-- A save whose case is valid and that is alone with its ID does not stop before it
has committed. -/
theorem Stage.ne_done (stage : Stage codec calls process crowd store bundle bytes True)
    (valid : bundle.validate = .ok ())
    (located : CaseStore.path bundle.caseId = .ok (fileName bundle.caseId))
    (encoded : codec.encode bundle = .ok bytes) (result : Except Stop Unit) :
    crowd.programs process ≠ .done result := by
  intro returned
  cases stage with
  | listing current => cases current.symm.trans returned
  | clearing names current listed =>
      rcases clear_cases names (fun _ => finishing codec store bundle) with
        ⟨-, cleared⟩ | ⟨name, later, next, -, -, cleared, -⟩
      · have created := (current.trans cleared).trans
          ((finishing_of_located located encoded).trans (commit_eq bytes))
        cases created.symm.trans returned
      · cases (current.trans cleared).symm.trans returned
  | writing file current own => cases current.symm.trans returned
  | committing file current own whole => cases current.symm.trans returned
  | stopped error current reason => exact reason ⟨valid, located, trivial⟩

/-- A save among other calls, none of whose steps disturbs it: with a valid case that
nobody else saves it returns no error and has committed when it returns; when it returns
an error none of its steps has changed a case; and it returns. -/
theorem save_undisturbed (saves : (calls process).task = .save bundle) (disk : Disk)
    (earlier events : List (Process × Surroundings))
    (waits : ∀ event ∈ earlier, event.1 ≠ process)
    (undisturbed : Machine.EveryStep step
      (Undisturbed codec process (temporaryName bundle.caseId))
      (reached codec calls disk earlier) events) :
    (bundle.validate = .ok () → CaseStore.path bundle.caseId = .ok (fileName bundle.caseId) →
      (∀ event ∈ events, event.1 ≠ process →
        ∀ saved, (calls event.1).task = .save saved → saved.caseId ≠ bundle.caseId) →
      ∀ result, (Machine.run step (reached codec calls disk earlier) events).programs process =
          .done result →
        (∀ error, result ≠ .error (.failed error)) ∧
          ∃ bytes, codec.encode bundle = .ok bytes ∧
            ∃ pair ∈ Machine.visited step (reached codec calls disk earlier) events,
              pair.2.1 = process ∧
                (step pair.1 pair.2).state.find (fileName bundle.caseId) = some bytes) ∧
      (∀ error, (Machine.run step (reached codec calls disk earlier) events).programs process =
          .done (.error (.failed error)) →
        ∀ pair ∈ Machine.visited step (reached codec calls disk earlier) events,
          pair.2.1 = process → ∀ name, extension name = some "json" →
            (step pair.1 pair.2).state.find name = pair.1.state.find name) ∧
      ∀ schedule : Nat → Process × Surroundings,
        (∀ start, ∃ later ≥ start, (schedule later).1 = process) →
        ∃ count result, (Machine.run step (reached codec calls disk earlier)
          ((List.range count).map schedule)).programs process = .done result := by
  obtain ⟨bytes, encoded⟩ := codec.encodes bundle
  refine ⟨?_, ?_, fun schedule often => Effects.returns schedule process often _⟩
  · intro valid located unshared result returned
    have start : Stage codec calls process (reached codec calls disk earlier)
        (calls process).store bundle bytes True := stage_reached disk waits saves
    rcases start.run (orderly_reached disk earlier) encoded undisturbed fun _ => unshared with
      ⟨stage, -⟩ | ⟨settled, committed⟩
    · exact absurd returned (stage.ne_done valid located encoded result)
    · refine ⟨?_, bytes, encoded, committed⟩
      rintro error rfl
      rw [Settled, returned] at settled
      exact settled trivial
  · intro error returned
    have start : Stage codec calls process (reached codec calls disk earlier)
        (calls process).store bundle bytes False := stage_reached disk waits saves
    rcases start.run (orderly_reached disk earlier) encoded undisturbed
      fun impossible => impossible.elim with ⟨-, quiet⟩ | ⟨settled, -⟩
    · exact quiet
    · rw [Settled, returned] at settled
      exact absurd trivial settled

end Stages

/-! ## A listing during a save -/

/-- One process saves a case while another lists the cases. -/
def meanwhile : Bool → Call Unit
  | true => ⟨smallStore, .save (quietBundle "a" 1)⟩
  | false => ⟨smallStore, .list⟩

/-- The listing finds the temporary file and removes it before it is renamed. -/
def interruption : List (Bool × Surroundings) :=
  [true, true, false, false, true, true].map fun process => (process, asListed 5)

/-- A directory with an empty file under the name of a case. -/
def emptyFile : Disk := vacant.create "old.json"

/-- The steps of a save that nobody else works next to. -/
def unaccompanied : List (Bool × Surroundings) := List.replicate 10 (true, asListed 5)

/-- A listing makes a save of a valid case fail, and a file that is no case makes it fail
after it has committed. -/
theorem list_during_save :
    (quietBundle "a" 1).validate = .ok () ∧ CaseStore.path "a" = .ok (fileName "a") ∧
      (∀ event ∈ interruption, event.1 ≠ true →
        ∀ saved, (meanwhile event.1).task = .save saved → saved.caseId ≠ "a") ∧
      (Machine.run step (atStart meanwhile quietCodec vacant) interruption).programs true =
        .done (.error (.failed (.io "could not commit case"))) ∧
      emptyFile.find (fileName "a") = none ∧
      (Machine.run step (atStart meanwhile quietCodec emptyFile) unaccompanied).programs true =
        .done (.error (.failed (.protocol ("stored case cases/old.json is malformed and was not " ++
          "ignored: EOF while parsing a value at line 1 column 0")))) ∧
      ((Machine.run step (atStart meanwhile quietCodec emptyFile) unaccompanied).state.find
        (fileName "a")).isSome := by
  refine ⟨by decide +kernel, by decide +kernel, ?_, Program.done_of_ended (by decide +kernel),
    by decide +kernel, Program.done_of_ended (by decide +kernel), by decide +kernel⟩
  intro event _ other saved saves
  rw [Bool.eq_false_iff.mpr other] at saves
  cases saves

/-- A save that nobody else works next to commits. -/
theorem save_undisturbed_unaccompanied :
    ∃ pair ∈ Machine.visited step (reached quietCodec meanwhile vacant []) unaccompanied,
      pair.2.1 = true ∧ (step pair.1 pair.2).state.find (fileName "a") = some (quietText "a" "1") := by
  have undisturbed : Machine.EveryStep step (Undisturbed quietCodec true (temporaryName "a"))
      (reached quietCodec meanwhile vacant []) unaccompanied := by
    unfold Machine.EveryStep
    decide +kernel
  have returned : (Machine.run step (reached quietCodec meanwhile vacant []) unaccompanied).programs
      true = .done (.ok ()) := Program.done_of_ended (by decide +kernel)
  have alone : ∀ event ∈ unaccompanied, event.1 ≠ true →
      ∀ saved, (meanwhile event.1).task = .save saved → saved.caseId ≠ "a" := by
    intro event member other
    rw [List.eq_of_mem_replicate member] at other
    exact absurd rfl other
  have saves : (meanwhile true).task = .save (quietBundle "a" 1) := rfl
  obtain ⟨commits, -, -⟩ := save_undisturbed saves vacant [] unaccompanied (by simp) undisturbed
  obtain ⟨-, bytes, encoded, committed⟩ :=
    commits (by decide +kernel) (by decide +kernel) alone (.ok ()) returned
  have text : quietCodec.encode (quietBundle "a" 1) = .ok (quietText "a" "1") := by decide +kernel
  rwa [Except.ok.inj (encoded.symm.trans text)] at committed

end SystemPilot.Evidence
