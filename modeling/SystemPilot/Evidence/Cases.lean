import SystemPilot.Evidence.Atomicity
import SystemPilot.Evidence.Codec
import SystemPilot.Evidence.Retention
import SystemPilot.Library.Machine

/-!
# Cases that are shown, exported and deleted

The commands on stored cases, each of which may be interrupted.  A shelf says which bundles
a case can be read as: the last one that was saved under its name, and those whose saving
did not end well since.
-/

set_option autoImplicit false

namespace SystemPilot.Evidence

open SystemPilot.Library SystemPilot.Text SystemPilot.Json

variable {Details : Type}

/-! ## The commands -/

namespace CaseStore

variable (codec : BundleCodec Details)

/-- What `load` makes of what `fs::read_to_string` finds. -/
def decodeCase : Option (List UInt8) → AppResult (EvidenceBundleV1 Details)
  | none => .error (.io "could not read case")
  | some bytes =>
      match fromUtf8 bytes with
      | none => .error (.io "could not read case")
      | some _ =>
          match codec.decode bytes with
          | .error e => .error (.protocol ("could not decode evidence bundle: " ++ e))
          | .ok bundle => bundle.validate.map fun _ => bundle

def load (id : String) : Action (EvidenceBundleV1 Details) := do
  let path ← Action.ofResult (path id)
  let content ← Action.call (.read path)
  Action.ofResult (decodeCase codec content)

/-- `export` to a destination elsewhere; `writes` says whether it takes the bytes. -/
def exportCase (writes : List UInt8 → Bool) (id : String) : Action Unit := do
  let bundle ← load codec id
  match codec.encode bundle with
  | .error e => Action.fail (.protocol e)
  | .ok bytes => if writes bytes then pure () else Action.fail (.io "could not export case")

def delete (id : String) : Action Unit := do
  let path ← Action.ofResult (path id)
  let removed ← Action.call (.remove path)
  if removed then pure () else Action.fail (.io "could not delete case")

end CaseStore

inductive Command (Details : Type) where
  | save (bundle : EvidenceBundleV1 Details)
  | list
  | load (id : String)
  | exportCase (writes : List UInt8 → Bool) (id : String)
  | delete (id : String)

def Command.program (store : CaseStore) (codec : BundleCodec Details) :
    Command Details → Action Unit
  | .save bundle => store.save codec bundle
  | .list => do
      let _ ← store.list codec
      pure ()
  | .load id => do
      let _ ← CaseStore.load codec id
      pure ()
  | .exportCase writes id => CaseStore.exportCase codec writes id
  | .delete id => CaseStore.delete id

/-! ## What a case can be read as -/

/-- The bundles a case may have been left as. -/
abbrev Shelf (Details : Type) : Type := String → List (EvidenceBundleV1 Details)

/-- A command that was interrupted has no outcome. -/
def Shelf.step (shelf : Shelf Details) (outcome : Option (Except Stop Unit)) :
    Command Details → Shelf Details
  | .save bundle =>
      match outcome with
      | some (.ok ()) => Function.update shelf bundle.caseId [bundle]
      | _ => Function.update shelf bundle.caseId (shelf bundle.caseId ++ [bundle])
  | .delete id =>
      match outcome with
      | some (.ok ()) => Function.update shelf id []
      | _ => shelf
  | _ => shelf

/-- The directory and the shelf it is described by. -/
structure Cabinet (Details : Type) where
  disk : Disk
  shelf : Shelf Details

/-- One command, which ends or is interrupted when its surroundings end. -/
def Cabinet.step (store : CaseStore) (codec : BundleCodec Details) (cabinet : Cabinet Details)
    (entry : Command Details × List Surroundings) : Cabinet Details :=
  let (outcome, disk) := fileEffects.during entry.2 (entry.1.program store codec) cabinet.disk
  { disk, shelf := cabinet.shelf.step outcome entry.1 }

/-! ## Names and their contents -/

/-- Apart from temporary files every name has contents that are allowed there. -/
def Only (allowed : String → List UInt8 → Prop) (disk : Disk) : Prop :=
  ∀ name bytes, disk.find name = some bytes → extension name = some "tmp" ∨ allowed name bytes

section Only

variable {codec : BundleCodec Details} {allowed wider : String → List UInt8 → Prop} {disk : Disk}

theorem Only.mono (only : Only allowed disk) (weaker : ∀ name bytes, allowed name bytes →
    wider name bytes) : Only wider disk := fun name bytes there =>
  (only name bytes there).imp_right (weaker name bytes)

theorem Only.remove (only : Only allowed disk) (name : String) :
    Only (fun other bytes => other ≠ name ∧ allowed other bytes) (disk.remove name) := by
  intro other bytes there
  rw [Disk.find_remove] at there
  split at there
  · cases there
  · rename_i apart
    exact (only other bytes there).imp_right fun allows => ⟨apart, allows⟩

/-- A temporary name, whatever it is given. -/
theorem Only.temporary (only : Only allowed disk) {changed : Disk} {name : String}
    {content : List UInt8} (temporary : extension name = some "tmp")
    (found : ∀ other, changed.find other = if other = name then some content else disk.find other) :
    Only allowed changed := by
  intro other bytes there
  rw [found] at there
  split at there
  · rename_i same
    exact .inl (same ▸ temporary)
  · exact only other bytes there

theorem Only.harmless (only : Only allowed disk) {op : FileOp} (harmless : Harmless op)
    (surroundings : Surroundings) : Only allowed (Disk.perform op surroundings disk).2 := by
  cases op with
  | remove name => exact (only.remove name).mono fun _ _ allows => allows.2
  | createNew name => exact harmless.elim
  | write file bytes => exact harmless.elim
  | rename source target => exact harmless.elim
  | readDir => exact only
  | read name => exact only
  | metadata name => exact only
  | now => exact only

theorem always_only {Value : Type} {ending : Value → Prop} {action : Action Value}
    (goes : Action.Goes codec False ending action) (only : Only allowed disk) :
    fileEffects.Always (Only allowed) (fun _ disk => Only allowed disk) action disk :=
  Effects.always_of_keeps goes (fun _ _ impossible => impossible.elim)
    (fun _ surroundings _ harmless before => before.harmless harmless surroundings) only

end Only

/-! ## Files of cases -/

section Holding

variable {store : CaseStore} {codec : BundleCodec Details} {bundle : EvidenceBundleV1 Details}
variable {holds wider : EvidenceBundleV1 Details → Prop} {disk : Disk}

variable (codec) in
/-- The file of a case, with one of the bundles it may hold. -/
def Holding (holds : EvidenceBundleV1 Details → Prop) (name : String) (bytes : List UInt8) : Prop :=
  ∃ held, holds held ∧ held.validate = .ok () ∧ CaseStore.path held.caseId = .ok name ∧
    codec.encode held = .ok bytes

theorem Holding.mono {name : String} {bytes : List UInt8} (holding : Holding codec holds name bytes)
    (weaker : ∀ held, holds held → wider held) : Holding codec wider name bytes := by
  obtain ⟨held, may, proper⟩ := holding
  exact ⟨held, weaker held may, proper⟩

theorem Only.weaken (only : Only (Holding codec holds) disk)
    (weaker : ∀ held, holds held → wider held) : Only (Holding codec wider) disk :=
  only.mono fun _ _ holding => holding.mono weaker

/-- A file that is not the one of a case holds no bundle of that case. -/
theorem Holding.apart {id name : String} {bytes : List UInt8}
    (holding : Holding codec holds name bytes) (located : CaseStore.path id = .ok (fileName id))
    (apart : name ≠ fileName id) :
    Holding codec (fun held => held.caseId ≠ id ∧ holds held) name bytes := by
  obtain ⟨held, may, valid, place, text⟩ := holding
  refine ⟨held, ⟨?_, may⟩, valid, place, text⟩
  rintro rfl
  rw [located] at place
  exact apart (Except.ok.inj place).symm

/-- The bundle besides what a case may hold. -/
def Besides (bundle : EvidenceBundleV1 Details) (holds : EvidenceBundleV1 Details → Prop)
    (held : EvidenceBundleV1 Details) : Prop := holds held ∨ held = bundle

/-- The bundle instead of what its case may hold. -/
def Instead (bundle : EvidenceBundleV1 Details) (holds : EvidenceBundleV1 Details → Prop)
    (held : EvidenceBundleV1 Details) : Prop :=
  held.caseId ≠ bundle.caseId ∧ holds held ∨ held = bundle

theorem Instead.besides {held : EvidenceBundleV1 Details} (instead : Instead bundle holds held) :
    Besides bundle holds held := instead.imp_left And.right

/-- What a save comes to: it ends well only with the bundle in place, or evicted. -/
def Filed (codec : BundleCodec Details) (bundle : EvidenceBundleV1 Details)
    (holds : EvidenceBundleV1 Details → Prop) (result : Except Stop Unit) (disk : Disk) : Prop :=
  Only (Holding codec (Besides bundle holds)) disk ∧
    (result = .ok () → Only (Holding codec (Instead bundle holds)) disk)

theorem Only.filed_error (only : Only (Holding codec holds) disk) (stop : Stop) :
    Filed codec bundle holds (.error stop) disk :=
  ⟨only.weaken fun _ => .inl, fun ok => by cases ok⟩

theorem commit_filed {bytes : List UInt8} (nonempty : bundle.caseId ≠ "")
    (valid : bundle.validate = .ok ())
    (located : CaseStore.path bundle.caseId = .ok (fileName bundle.caseId))
    (encoded : codec.encode bundle = .ok bytes) (only : Only (Holding codec holds) disk) :
    fileEffects.Always (Only (Holding codec (Besides bundle holds))) (Filed codec bundle holds)
      (store.commit codec (temporaryName bundle.caseId) (fileName bundle.caseId) bytes) disk := by
  have temporary := extension_temporaryName nonempty
  have before : Only (Holding codec (Besides bundle holds)) disk := only.weaken fun _ => .inl
  refine always_call before fun surroundings => ?_
  by_cases there : temporaryName bundle.caseId ∈ disk.files
  · rw [Disk.perform, if_pos there]
    exact ⟨before, only.filed_error _⟩
  · rw [Disk.perform_createNew there]
    refine always_call (before.temporary temporary (Disk.find_create _)) fun _ => ?_
    refine always_call (before.temporary temporary (Disk.find_written _ bytes)) fun _ => ?_
    have placed : Only (Holding codec (Instead bundle holds))
        (disk.place (temporaryName bundle.caseId) (fileName bundle.caseId) bytes) := by
      intro other content found
      rw [Disk.find_place] at found
      split at found
      · rename_i same
        cases found
        exact .inr ⟨bundle, .inr rfl, valid, same ▸ located, encoded⟩
      · rename_i apart
        split at found
        · cases found
        · exact (only other content found).imp_right fun holding =>
            (holding.apart located apart).mono fun _ => .inl
    let filled := (disk.create (temporaryName bundle.caseId)).write disk.next bytes
    change fileEffects.Always _ _
      (if (filled.move (temporaryName bundle.caseId) (fileName bundle.caseId)).1 then
        store.enforceRetention codec
      else Action.fail _) (filled.move (temporaryName bundle.caseId) (fileName bundle.caseId)).2
    rw [Disk.move_written]
    have either (state : Disk) (narrow : Only (Holding codec (Instead bundle holds)) state) :
        Only (Holding codec (Besides bundle holds)) state :=
      narrow.weaken fun _ => Instead.besides
    exact (always_only enforceRetention_goes placed).mono either fun _ state narrow =>
      ⟨either state narrow, fun _ => narrow⟩

/-- A save that is interrupted or fails leaves the case as it was, or as the bundle. -/
theorem save_filed (only : Only (Holding codec holds) disk) :
    fileEffects.Always (Only (Holding codec (Besides bundle holds))) (Filed codec bundle holds)
      (store.save codec bundle) disk := by
  have kept (state : Disk) (before : Only (Holding codec holds) state) :
      Only (Holding codec (Besides bundle holds)) state := before.weaken fun _ => .inl
  cases valid : bundle.validate with
  | error error =>
      rw [save_of_invalid valid]
      exact ⟨kept disk only, only.filed_error _⟩
  | ok _ =>
      rw [save_of_valid valid]
      have prepares : Action.Goes codec False (fun _ => True) CaseStore.prepare := prepare_goes
      refine Effects.always_bind ((always_only prepares only).mono kept fun _ _ => id) ?_
      intro prepared state before
      cases prepared with
      | error stop => exact ⟨kept state before, before.filed_error _⟩
      | ok _ =>
          change fileEffects.Always _ _ (finishing codec store bundle) state
          cases located : CaseStore.path bundle.caseId with
          | error error =>
              rw [finishing_of_unlocated located]
              exact ⟨kept state before, before.filed_error _⟩
          | ok path =>
              obtain ⟨nonempty, -, rfl⟩ := path_ok_iff.mp located
              obtain ⟨bytes, encoded⟩ := codec.encodes bundle
              rw [finishing_of_located located encoded]
              exact commit_filed nonempty valid located encoded before

/-- What a removal comes to: it ends well only with the case gone. -/
theorem delete_removed (only : Only (Holding codec holds) disk) (id : String) :
    fileEffects.Always (Only (Holding codec holds)) (fun result disk =>
      Only (Holding codec holds) disk ∧ (result = .ok () →
        Only (Holding codec fun held => held.caseId ≠ id ∧ holds held) disk))
      (CaseStore.delete id) disk := by
  unfold CaseStore.delete
  cases located : CaseStore.path id with
  | error error => exact ⟨only, only, fun ok => by cases ok⟩
  | ok path =>
      obtain ⟨-, -, rfl⟩ := path_ok_iff.mp located
      refine always_call only fun surroundings => ?_
      have remaining : Only (Holding codec fun held => held.caseId ≠ id ∧ holds held)
          (disk.remove (fileName id)) :=
        (only.remove (fileName id)).mono fun _ _ stands => stands.2.apart located stands.1
      have others : Only (Holding codec holds) (disk.remove (fileName id)) :=
        remaining.weaken fun _ => And.right
      rw [Disk.perform]
      dsimp only
      split
      · exact ⟨others, others, fun _ => remaining⟩
      · exact ⟨others, others, fun ok => by cases ok⟩

theorem load_goes (id : String) :
    Action.Goes codec False (fun _ => True) (CaseStore.load codec id) := by
  refine Action.goes_bind (Action.goes_ofResult (fun _ _ => trivial) False.elim) fun path _ => ?_
  refine Action.goes_call trivial fun content _ => ?_
  exact Action.goes_ofResult (fun _ _ => trivial) False.elim

theorem exportCase_goes (writes : List UInt8 → Bool) (id : String) :
    Action.Goes codec False (fun _ => True) (CaseStore.exportCase codec writes id) := by
  refine Action.goes_bind (load_goes id) fun bundle _ => ?_
  split
  · exact Action.goes_fail not_false
  · split
    · exact Action.goes_pure trivial
    · exact Action.goes_fail not_false

/-- Commands that only look. -/
def Command.Looks : Command Details → Prop
  | .list => True
  | .load _ => True
  | .exportCase _ _ => True
  | _ => False

/-- Commands that only look leave what there is. -/
theorem looks_holding (only : Only (Holding codec holds) disk) {command : Command Details}
    (looks : command.Looks) :
    fileEffects.Always (Only (Holding codec holds)) (fun _ disk => Only (Holding codec holds) disk)
      (command.program store codec) disk := by
  cases command with
  | save bundle => exact looks.elim
  | delete id => exact looks.elim
  | list =>
      have lists : Action.Goes codec False (fun cases => False → Placed cases) (store.list codec) :=
        list_goes
      have goes : Action.Goes codec False (fun _ => True)
          ((Command.list : Command Details).program store codec) :=
        Action.goes_bind lists fun _ _ => Action.goes_pure trivial
      exact always_only goes only
  | load id =>
      have goes : Action.Goes codec False (fun _ => True)
          ((Command.load id).program store codec) :=
        Action.goes_bind (load_goes id) fun _ _ => Action.goes_pure trivial
      exact always_only goes only
  | exportCase writes id => exact always_only (exportCase_goes writes id) only

end Holding

/-! ## The shelf -/

section Shelf

variable {store : CaseStore} {codec : BundleCodec Details} {shelf : Shelf Details} {disk : Disk}

variable (codec) in
/-- The file of a case holds one of the bundles it may have been left as. -/
def Stands (shelf : Shelf Details) : String → List UInt8 → Prop :=
  Holding codec fun held => held ∈ shelf held.caseId

theorem mem_shelf_of_besides {bundle held : EvidenceBundleV1 Details}
    (besides : Besides bundle (fun held => held ∈ shelf held.caseId) held) :
    held ∈ Function.update shelf bundle.caseId (shelf bundle.caseId ++ [bundle]) held.caseId := by
  rcases besides with member | rfl
  · by_cases same : held.caseId = bundle.caseId
    · rw [same, Function.update_self]
      exact List.mem_append_left _ (same ▸ member)
    · rwa [Function.update_of_ne same]
  · rw [Function.update_self]
    exact List.mem_append_right _ (List.mem_singleton_self _)

theorem mem_shelf_of_instead {bundle held : EvidenceBundleV1 Details}
    (instead : Instead bundle (fun held => held ∈ shelf held.caseId) held) :
    held ∈ Function.update shelf bundle.caseId [bundle] held.caseId := by
  rcases instead with ⟨apart, member⟩ | rfl
  · rwa [Function.update_of_ne apart]
  · rw [Function.update_self]
    exact List.mem_singleton_self _

theorem save_stands {bundle : EvidenceBundleV1 Details} (only : Only (Stands codec shelf) disk) :
    fileEffects.Always (Only (Stands codec (shelf.step none (.save bundle))))
      (fun result disk => Only (Stands codec (shelf.step (some result) (.save bundle))) disk)
      (store.save codec bundle) disk := by
  refine (save_filed only).mono (fun _ held => held.weaken fun _ => mem_shelf_of_besides) ?_
  intro result last filed
  cases result with
  | error stop => exact filed.1.weaken fun _ => mem_shelf_of_besides
  | ok _ => exact (filed.2 rfl).weaken fun _ => mem_shelf_of_instead

theorem delete_stands (only : Only (Stands codec shelf) disk) (id : String) :
    fileEffects.Always (Only (Stands codec shelf))
      (fun result disk => Only (Stands codec (shelf.step (some result) (.delete id))) disk)
      (CaseStore.delete id) disk := by
  refine (delete_removed only id).mono (fun _ held => held) ?_
  intro result last removed
  cases result with
  | error stop => exact removed.1
  | ok _ =>
      refine (removed.2 rfl).weaken fun held others => ?_
      rw [Shelf.step, Function.update_of_ne others.1]
      exact others.2

/-- What is known of an interrupted command is known of one that ends in an unknown way. -/
theorem stands_during {property : Disk → Prop} {ending : Except Stop Unit → Disk → Prop}
    {program : Action Unit} (always : fileEffects.Always property ending program disk)
    (surroundings : List Surroundings) {final : Option (Except Stop Unit) → Disk → Prop}
    (interrupted : ∀ disk, property disk → final none disk)
    (ended : ∀ result disk, ending result disk → final (some result) disk) :
    final (fileEffects.during surroundings program disk).1
      (fileEffects.during surroundings program disk).2 := by
  obtain ⟨held, ends⟩ := always.during surroundings
  cases outcome : (fileEffects.during surroundings program disk).1 with
  | none => exact interrupted _ held
  | some result => exact ended result _ (ends result outcome)

/-- One command. -/
theorem step_stands {cabinet : Cabinet Details}
    (only : Only (Stands codec cabinet.shelf) cabinet.disk)
    (entry : Command Details × List Surroundings) :
    Only (Stands codec (cabinet.step store codec entry).shelf)
      (cabinet.step store codec entry).disk := by
  obtain ⟨command, surroundings⟩ := entry
  have known {always : Disk → Prop} {ending : Except Stop Unit → Disk → Prop}
      (runs : fileEffects.Always always ending (command.program store codec) cabinet.disk) :=
    @stands_during cabinet.disk always ending _ runs surroundings fun outcome disk =>
      Only (Stands codec (cabinet.shelf.step outcome command)) disk
  have looking (looks : command.Looks) := known (looks_holding only looks)
  cases command with
  | save bundle => exact known (save_stands only) (fun _ => id) fun _ _ => id
  | delete id => exact known (delete_stands only id) (fun _ held => held) fun _ _ held => held
  | list => exact looking trivial (fun _ held => held) fun _ _ held => held
  | load id => exact looking trivial (fun _ held => held) fun _ _ held => held
  | exportCase writes id => exact looking trivial (fun _ held => held) fun _ _ held => held

end Shelf

/-! ## Loading -/

section Load

variable (floats : FloatText) (explain : List UInt8 → String) (store : CaseStore)

theorem load_of_unlocated {id : String} {error : AppError}
    (unlocated : CaseStore.path id = .error error) (surroundings : Surroundings) (disk : Disk) :
    (CaseStore.load (bundleCodec floats explain) id).run surroundings disk =
      (.error (.failed error), disk) := by
  unfold CaseStore.load
  rw [unlocated]
  rfl

theorem load_of_located {id : String} (located : CaseStore.path id = .ok (fileName id))
    (surroundings : Surroundings) (disk : Disk) :
    (CaseStore.load (bundleCodec floats explain) id).run surroundings disk =
      (Action.ofResult (CaseStore.decodeCase (bundleCodec floats explain)
        (disk.find (fileName id)))).run surroundings disk := by
  unfold CaseStore.load
  rw [located]
  rfl

/-- The stored text of a bundle is the bundle to every reader. -/
theorem decodeCase_encodeBundle {bundle : Bundle} (valid : bundle.validate = .ok ()) :
    CaseStore.decodeCase (bundleCodec floats explain) (some (encodeBundle floats bundle)) =
      .ok (bundle.reread floats) := by
  have text : fromUtf8 (encodeBundle floats bundle) =
      some (String.ofList (pretty floats 0 bundle.toValue)) := fromUtf8_bytesOf _
  have read : (bundleCodec floats explain).decode (encodeBundle floats bundle) =
      .ok (bundle.reread floats) := decode_encodeBundle floats explain bundle
  have still : (bundle.reread floats).validate = .ok () := valid
  rw [CaseStore.decodeCase, text]
  dsimp only
  rw [read]
  dsimp only
  rw [still]
  rfl

/-- A case is shown as a bundle it may hold, its doubles reread, or it is not there. -/
theorem load_holding {holds : Bundle → Prop} {disk : Disk}
    (only : Only (Holding (bundleCodec floats explain) holds) disk) (id : String)
    (surroundings : Surroundings) :
    let loaded := (CaseStore.load (bundleCodec floats explain) id).run surroundings disk
    loaded.2 = disk ∧
      ((∃ bundle, holds bundle ∧ bundle.caseId = id ∧ bundle.validate = .ok () ∧
          loaded.1 = .ok (bundle.reread floats)) ∨
        (disk.find (fileName id) = none ∧
          loaded.1 = .error (.failed (.io "could not read case"))) ∨
        (CaseStore.path id = .error (.validation "invalid case ID") ∧
          loaded.1 = .error (.failed (.validation "invalid case ID")))) := by
  dsimp only
  cases located : CaseStore.path id with
  | error error =>
      rw [load_of_unlocated floats explain located]
      refine ⟨rfl, .inr (.inr ?_)⟩
      unfold CaseStore.path at located
      split at located
      · cases located
        exact ⟨rfl, rfl⟩
      · cases located
  | ok path =>
      obtain ⟨nonempty, -, rfl⟩ := path_ok_iff.mp located
      rw [load_of_located floats explain located]
      cases found : disk.find (fileName id) with
      | none => exact ⟨rfl, .inr (.inl ⟨rfl, rfl⟩)⟩
      | some bytes =>
          rcases only _ bytes found with temporary | ⟨bundle, may, valid, place, text⟩
          · rw [extension_fileName nonempty] at temporary
            exact absurd temporary (by decide)
          · cases text
            have same : bundle.caseId = id :=
              (fileName_injective ((path_ok_iff.mp place).2.2)).symm
            rw [decodeCase_encodeBundle floats explain valid]
            exact ⟨rfl, .inl ⟨bundle, may, same, valid, rfl⟩⟩

/-- Nothing was saved yet. -/
theorem only_vacant (allowed : String → List UInt8 → Prop) : Only allowed vacant := by
  intro name bytes there
  have present : name ∈ vacant.files := Disk.find_isSome.mp (by rw [there]; rfl)
  exact absurd present (AList.notMem_empty name)

/-- The shelf before anything was saved. -/
def emptyCabinet : Cabinet DetailsV1 := ⟨vacant, fun _ => []⟩

/-- A case is exported as it is loaded. -/
theorem exportCase_of_load (writes : List UInt8 → Bool) (id : String)
    (surroundings : Surroundings) (disk : Disk) :
    (CaseStore.exportCase (bundleCodec floats explain) writes id).run surroundings disk =
      match (CaseStore.load (bundleCodec floats explain) id).run surroundings disk with
      | (.ok bundle, disk) =>
          if writes (encodeBundle floats bundle) then (.ok (), disk)
          else (.error (.failed (.io "could not export case")), disk)
      | (.error stop, disk) => (.error stop, disk) := by
  have split := fileEffects.run_bind surroundings
    (CaseStore.load (bundleCodec floats explain) id)
    (Action.onOk fun bundle => if writes (encodeBundle floats bundle) then pure ()
      else Action.fail (.io "could not export case")) disk
  refine Eq.trans split ?_
  rw [Action.run]
  cases loaded : fileEffects.run surroundings
      (CaseStore.load (bundleCodec floats explain) id) disk with
  | mk result last =>
      cases result with
      | error stop => rfl
      | ok bundle =>
          dsimp only [Action.onOk]
          split
          · rfl
          · rfl

end Load

end SystemPilot.Evidence
