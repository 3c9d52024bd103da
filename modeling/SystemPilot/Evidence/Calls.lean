import SystemPilot.Evidence.Steps

/-!
# Calls on one directory

Calls of `save` and `list`, whose file operations interleave in any order.  A
process that makes several calls is several processes here.
-/

set_option autoImplicit false

namespace SystemPilot.Evidence

open SystemPilot.Library

variable {Details : Type}

inductive Task (Details : Type) where
  | save (bundle : EvidenceBundleV1 Details)
  | list

structure Call (Details : Type) where
  store : CaseStore
  task : Task Details

def Call.program (call : Call Details) (codec : BundleCodec Details) : Action Unit :=
  match call.task with
  | .save bundle => call.store.save codec bundle
  | .list => do
      let _ ← call.store.list codec
      pure ()

/-- The calls before the first step of any of them. -/
def atStart {Process : Type} (calls : Process → Call Details) (codec : BundleCodec Details)
    (disk : Disk) : Effects.Processes FileOp.Result Disk (Except Stop Unit) Process where
  programs process := (calls process).program codec
  state := disk

/-! ## Names and files of a call -/

/-- What a call makes is its own temporary file, or a name of a case. -/
def Permitted (call : Call Details) : FileOp → Prop
  | .createNew name => ∃ bundle, call.task = .save bundle ∧ name = temporaryName bundle.caseId
  | .rename _ target => extension target = some "json"
  | _ => True

/-- A call that may still come to write a file only if it is the file's creator. -/
def Tame {Value : Type} (call : Call Details) (file : Nat) (action : Action Value) : Prop :=
  Program.Keeps (fun op => Permitted call op ∧ ∀ bytes, op ≠ .write file bytes)
    (FileOp.Spares file) (fun _ => True) action

variable {codec : BundleCodec Details} {call : Call Details} {file : Nat} {Value Other : Type}

theorem tame_bind {action : Action Value} {following : Value → Action Other}
    (first : Tame call file action) (rest : ∀ value, Tame call file (following value)) :
    Tame call file (action >>= following) := by
  refine Program.keeps_bind first fun result _ => ?_
  cases result with
  | ok value => exact rest value
  | error stop => exact trivial

theorem tame_ofResult {result : AppResult Value} {following : Value → Action Other}
    (rest : ∀ value, result = .ok value → Tame call file (following value)) :
    Tame call file (Action.ofResult result >>= following) := by
  cases result with
  | ok value => exact rest value rfl
  | error error => exact trivial

theorem tame_of_goes {ending : Value → Prop} {action : Action Value}
    (goes : Action.Goes codec False ending action) : Tame call file action := by
  refine Program.Keeps.mono goes ?_ (fun _ _ _ impossible => impossible.elim) fun _ _ => trivial
  intro op harmless
  cases op with
  | createNew name => exact harmless.elim
  | write written bytes => exact harmless.elim
  | rename source target => exact harmless.elim
  | _ => exact ⟨trivial, fun _ impossible => by cases impossible⟩

theorem tame_commit {store : CaseStore} {bundle : EvidenceBundleV1 Details} {path : String}
    {bytes : List UInt8} (saves : call.task = .save bundle) (permanent : extension path = some "json") :
    Tame call file (store.commit codec (temporaryName bundle.caseId) path bytes) := by
  refine ⟨⟨⟨bundle, saves, rfl⟩, fun _ impossible => by cases impossible⟩, fun created spared => ?_⟩
  cases created with
  | none => exact trivial
  | some new =>
      have apart : new ≠ file := fun same => spared (by rw [same])
      refine ⟨⟨trivial, fun other same => ?_⟩, fun _ _ => ?_⟩
      · cases same
        exact apart rfl
      · refine ⟨⟨permanent, fun _ impossible => by cases impossible⟩, fun renamed _ => ?_⟩
        cases renamed with
        | true => exact tame_of_goes enforceRetention_goes
        | false => exact trivial

/-- No call writes a file that it has not created. -/
theorem tame_program (call : Call Details) (file : Nat) : Tame call file (call.program codec) := by
  unfold Call.program
  split
  · rename_i bundle saves
    have prepares : Action.Goes codec False (fun _ => True) CaseStore.prepare := prepare_goes
    refine tame_ofResult fun _ _ => tame_bind (tame_of_goes prepares) fun _ => ?_
    refine tame_ofResult fun path located => ?_
    obtain ⟨nonempty, -, rfl⟩ := path_ok_iff.mp located
    split
    · exact trivial
    · exact tame_commit saves (extension_fileName nonempty)
  · exact tame_bind (tame_of_goes list_goes) fun _ => trivial

/-! ## Interleavings -/

section Interleaving

variable {Process : Type} [DecidableEq Process]

/-- The processes and the directory they share. -/
abbrev Crowd (Process : Type) : Type :=
  Effects.Processes FileOp.Result Disk (Except Stop Unit) Process

/-- One file operation of one process. -/
abbrev step (crowd : Crowd Process) (event : Process × Surroundings) : Crowd Process :=
  fileEffects.advance crowd event

variable {calls : Process → Call Details} {crowd : Crowd Process} {event : Process × Surroundings}

theorem next_le_step : crowd.state.next ≤ (step crowd event).state.next := by
  cases current : crowd.programs event.1 with
  | done result => rw [step, Effects.advance_done current]
  | perform op next =>
      rw [step, Effects.advance_perform current]
      exact Disk.next_le_perform

theorem state_step {op : FileOp} {next : op.Result → Program FileOp.Result (Except Stop Unit)}
    (current : crowd.programs event.1 = .perform op next) :
    (step crowd event).state = (Disk.perform op event.2 crowd.state).2 := by
  rw [step, Effects.advance_perform current]
  rfl

theorem tame_step {process : Process} (tame : Tame call file (crowd.programs process))
    (other : file < crowd.state.next ∨ (step crowd event).state.next ≤ file) :
    Tame call file ((step crowd event).programs process) := by
  refine Effects.keeps_advance tame fun own op next current => ?_
  subst own
  rw [state_step current] at other
  exact Disk.spares_perform other

variable (calls) in
/-- No process writes a file that is not there yet. -/
def Orderly (crowd : Crowd Process) : Prop :=
  ∀ process file, crowd.state.next ≤ file → Tame (calls process) file (crowd.programs process)

omit [DecidableEq Process] in
theorem orderly_atStart (disk : Disk) : Orderly calls (atStart calls codec disk) :=
  fun process file _ => tame_program (calls process) file

theorem Orderly.step (orderly : Orderly calls crowd) : Orderly calls (step crowd event) :=
  fun process file above =>
    tame_step (orderly process file (next_le_step.trans above)) (Or.inr above)

end Interleaving

end SystemPilot.Evidence
