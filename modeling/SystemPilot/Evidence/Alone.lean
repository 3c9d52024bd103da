import SystemPilot.Evidence.Store
import SystemPilot.Library.Retention

/-!
# A directory for itself

What each function of the store leaves of a directory that nothing else works on,
when it returns a value.
-/

set_option autoImplicit false

namespace SystemPilot.Evidence

open SystemPilot.Library SystemPilot.Text

variable {Details Value Other : Type} {surroundings : Surroundings} {disk last : Disk}

namespace Action

def run (surroundings : Surroundings) (action : Action Value) (disk : Disk) :
    Except Stop Value × Disk :=
  fileEffects.run surroundings action disk

theorem bind_ok {action : Action Value} {following : Value → Action Other} {value : Other}
    (ok : (action >>= following).run surroundings disk = (.ok value, last)) :
    ∃ first middle, action.run surroundings disk = (.ok first, middle) ∧
      (following first).run surroundings middle = (.ok value, last) := by
  have split :=
    (fileEffects.run_bind surroundings action (Action.onOk following) disk).symm.trans ok
  cases result : fileEffects.run surroundings action disk with
  | mk first middle =>
      rw [result] at split
      cases first with
      | ok first => exact ⟨first, middle, result, split⟩
      | error stop => cases split

theorem call_ok {op : FileOp} {following : op.Result → Action Other} {value : Other}
    (ok : (call op >>= following).run surroundings disk = (.ok value, last)) :
    (following (Disk.perform op surroundings disk).1).run surroundings
      (Disk.perform op surroundings disk).2 = (.ok value, last) := ok

theorem ofResult_ok {result : AppResult Value} {value : Value}
    (ok : (ofResult result).run surroundings disk = (.ok value, last)) :
    result = .ok value ∧ disk = last := by
  cases result with
  | ok given =>
      cases ok
      exact ⟨rfl, rfl⟩
  | error error => cases ok

theorem pure_ok {given value : Value}
    (ok : (pure given : Action Value).run surroundings disk = (.ok value, last)) :
    value = given ∧ disk = last := by
  cases ok
  exact ⟨rfl, rfl⟩

end Action

/-! ## Preparing -/

theorem clear_ok {names : List String}
    (ok : (clear names).run surroundings disk = (.ok (), last)) (other : String) :
    last.find other =
      if other ∈ names ∧ extension other = some "tmp" then none else disk.find other := by
  induction names generalizing disk with
  | nil =>
      obtain ⟨-, rfl⟩ := Action.pure_ok ok
      rw [if_neg (by simp)]
  | cons name names inductionHypothesis =>
      rw [clear] at ok
      split at ok
      · rename_i temporary
        have rest := Action.call_ok ok
        split at rest
        · rw [inductionHypothesis rest]
          change (if _ then none else (disk.remove name).find other) = _
          rw [Disk.find_remove]
          by_cases same : other = name
          · simp [same, temporary]
          · simp [same]
        · cases rest
      · rename_i permanent
        rw [inductionHypothesis ok]
        by_cases same : other = name
        · rw [same, if_neg (fun both => permanent both.2), if_neg (fun both => permanent both.2)]
        · simp [same]

/-- Only the temporary files are gone. -/
theorem prepare_ok (ok : CaseStore.prepare.run surroundings disk = (.ok (), last)) (other : String) :
    last.find other = if extension other = some "tmp" then none else disk.find other := by
  have cleared := clear_ok (Action.call_ok ok) other
  have listed : other ∈ (Disk.perform .readDir surroundings disk).1 ↔ other ∈ disk.files :=
    Disk.mem_order_keys surroundings
  rw [cleared]
  change (if _ then none else disk.find other) = _
  by_cases there : other ∈ disk.files
  · simp only [listed, there, true_and]
  · have missing : disk.find other = none := by
      rw [← Option.not_isSome_iff_eq_none, Disk.find_isSome]
      exact there
    rw [missing, ite_self, ite_self]

/-! ## Listing -/

def EvidenceBundleV1.summary (bundle : EvidenceBundleV1 Details) (bytes : List UInt8) :
    CaseSummary where
  caseId := bundle.caseId
  capturedAtUnixNanos := bundle.timeRange.endedAtUnixNanos
  bytes := bytes.length
  findings := bundle.findings.length

section Listing

variable {store : CaseStore} {codec : BundleCodec Details}

variable (codec) in
/-- The case a file name has. -/
def caseAt (disk : Disk) (name : String) : Option CaseSummary :=
  if extension name = some "json" then
    (disk.find name).bind fun bytes => (codec.decode bytes).toOption.map fun bundle =>
      bundle.summary bytes
  else none

theorem caseAt_of_ne {name : String} (other : extension name ≠ some "json") :
    caseAt codec disk name = none := if_neg other

theorem caseAt_eq_some_iff {name : String} {case : CaseSummary} :
    caseAt codec disk name = some case ↔ extension name = some "json" ∧
      ∃ bytes bundle, disk.find name = some bytes ∧ codec.decode bytes = .ok bundle ∧
        case = bundle.summary bytes := by
  unfold caseAt
  constructor
  · intro found
    split at found
    · rename_i permanent
      obtain ⟨bytes, there, read⟩ := Option.bind_eq_some_iff.mp found
      obtain ⟨bundle, decoded, rfl⟩ := Option.map_eq_some_iff.mp read
      refine ⟨permanent, bytes, bundle, there, ?_, rfl⟩
      cases whole : codec.decode bytes with
      | ok other => simpa [whole, Except.toOption] using decoded
      | error e => simp [whole, Except.toOption] at decoded
    · cases found
  · rintro ⟨permanent, bytes, bundle, there, decoded, rfl⟩
    rw [if_pos permanent, there, Option.bind_some, decoded]
    rfl

/-- The list has every case there is, none is passed over. -/
theorem readCases_ok {names : List String} {cases : List CaseSummary}
    (ok : (store.readCases codec names).run surroundings disk = (.ok cases, last)) :
    disk = last ∧ cases = names.filterMap (caseAt codec disk) ∧
      ∀ name ∈ names, extension name = some "json" → (caseAt codec disk name).isSome := by
  induction names generalizing cases with
  | nil =>
      obtain ⟨rfl, rfl⟩ := Action.pure_ok ok
      exact ⟨rfl, rfl, by simp⟩
  | cons name names inductionHypothesis =>
      rw [CaseStore.readCases] at ok
      split at ok
      · rename_i skipped
        obtain ⟨same, listed, every⟩ := inductionHypothesis ok
        refine ⟨same, ?_, ?_⟩
        · rw [List.filterMap_cons_none (caseAt_of_ne skipped), listed]
        · intro other member permanent
          rcases List.mem_cons.mp member with rfl | later
          · exact absurd permanent skipped
          · exact every other later permanent
      · rename_i permanent
        have content := Action.call_ok ok
        split at content
        · cases content
        · rename_i bytes there
          split at content
          · cases content
          · rename_i bundle decoded
            obtain ⟨_, middle, validated, measured⟩ := Action.bind_ok content
            obtain ⟨-, rfl⟩ := Action.ofResult_ok validated
            have measured := Action.call_ok measured
            split at measured
            · cases measured
            · rename_i length size
              obtain ⟨rest, middle, read, returned⟩ := Action.bind_ok measured
              obtain ⟨rfl, rfl⟩ := Action.pure_ok returned
              obtain ⟨same, listed, every⟩ := inductionHypothesis read
              change disk.find name = some bytes at there
              change (disk.find name).map List.length = some length at size
              rw [there] at size
              obtain rfl : bytes.length = length := Option.some.inj size
              have found : caseAt codec disk name = some (bundle.summary bytes) :=
                caseAt_eq_some_iff.mpr ⟨not_not.mp permanent, bytes, bundle, there, decoded, rfl⟩
              refine ⟨same, ?_, ?_⟩
              · rw [List.filterMap_cons_some found, listed]
                rfl
              · intro other member extended
                rcases List.mem_cons.mp member with rfl | later
                · rw [found]
                  rfl
                · exact every other later extended

/-- The time a case is ranked by. -/
def capturedAt (case : CaseSummary) : Nat := case.capturedAtUnixNanos.toNat

variable (codec) in
/-- The cases of a directory, in the order in which they are listed. -/
def listed (surroundings : Surroundings) (disk : Disk) : List CaseSummary :=
  (surroundings.order disk.files.keys).filterMap (caseAt codec disk)

theorem list_ok {cases : List CaseSummary}
    (ok : (store.list codec).run surroundings disk = (.ok cases, last)) :
    CaseStore.prepare.run surroundings disk = (.ok (), last) ∧
      cases = Ranking.descending capturedAt (listed codec surroundings last) ∧
      ∀ name ∈ last.files, extension name = some "json" → (caseAt codec last name).isSome := by
  obtain ⟨_, middle, prepared, names⟩ := Action.bind_ok ok
  obtain ⟨found, after, read, returned⟩ := Action.bind_ok (Action.call_ok names)
  obtain ⟨rfl, rfl, every⟩ := readCases_ok read
  obtain ⟨rfl, rfl⟩ := Action.pure_ok returned
  refine ⟨prepared, rfl, ?_⟩
  intro name there
  exact every name ((Disk.mem_order_keys surroundings).mpr there)

/-! ## Retention -/

/-- Too old for a cutoff. -/
def Old (cutoff : Nat) (case : CaseSummary) : Prop := capturedAt case < cutoff

instance (cutoff : Nat) : DecidablePred (Old cutoff) := fun case =>
  inferInstanceAs (Decidable (capturedAt case < cutoff))

/-- The loop removes the files of the cases that are discarded, and no others. -/
theorem evict_ok {cutoff total : Nat} {cases : List CaseSummary}
    (ok : (store.evict cutoff cases total).run surroundings disk = (.ok (), last)) (name : String) :
    last.find name =
      if name ∈ (Retention.discarded (Old cutoff) CaseSummary.bytes store.retentionBytes.toNat
        cases total).map (fun case => fileName case.caseId) then none else disk.find name := by
  induction cases generalizing disk total with
  | nil =>
      obtain ⟨-, rfl⟩ := Action.pure_ok ok
      rfl
  | cons case cases inductionHypothesis =>
      rw [CaseStore.evict] at ok
      rw [Retention.discarded]
      split at ok
      · rename_i goes
        obtain ⟨path, middle, valid, removed⟩ := Action.bind_ok ok
        obtain ⟨located, rfl⟩ := Action.ofResult_ok valid
        obtain ⟨-, -, rfl⟩ := path_ok_iff.mp located
        have rest := Action.call_ok removed
        split at rest
        · rw [inductionHypothesis rest, if_pos (show Old cutoff case ∨ _ from goes), List.map_cons]
          change (if _ then none else (disk.remove (fileName case.caseId)).find name) = _
          rw [Disk.find_remove]
          by_cases same : name = fileName case.caseId
          · simp [same]
          · simp [same]
        · cases rest
      · rename_i stays
        rw [inductionHypothesis ok, if_neg (show ¬ (Old cutoff case ∨ _) from stays)]

theorem enforceRetention_ok
    (ok : (store.enforceRetention codec).run surroundings disk = (.ok (), last)) :
    ∃ middle, CaseStore.prepare.run surroundings disk = (.ok (), middle) ∧
      (∀ name ∈ middle.files, extension name = some "json" → (caseAt codec middle name).isSome) ∧
      (store.evict (store.cutoff surroundings.clock)
        (Ranking.ascending capturedAt (listed codec surroundings middle))
        (Retention.total CaseSummary.bytes
          (Ranking.ascending capturedAt (listed codec surroundings middle)))).run surroundings
        middle = (.ok (), last) := by
  obtain ⟨cases, middle, found, swept⟩ := Action.bind_ok (Action.call_ok ok)
  obtain ⟨prepared, rfl, every⟩ := list_ok found
  refine ⟨middle, prepared, every, ?_⟩
  -- the second sort undoes the first, also among cases of one time
  rw [show Ranking.ascending (fun case : CaseSummary => case.capturedAtUnixNanos.toNat) _ = _ from
    Ranking.ascending_descending capturedAt (listed codec surroundings middle)] at swept
  dsimp only at swept
  split at swept
  · exact swept
  · cases swept

end Listing

/-! ## Saving -/

section Saving

variable {store : CaseStore} {codec : BundleCodec Details} {bundle : EvidenceBundleV1 Details}

theorem commit_ok {id : String} {bytes : List UInt8}
    (ok : (store.commit codec (temporaryName id) (fileName id) bytes).run surroundings disk =
      (.ok (), last)) :
    (store.enforceRetention codec).run surroundings
      (disk.place (temporaryName id) (fileName id) bytes) = (.ok (), last) := by
  have created := Action.call_ok ok
  by_cases there : temporaryName id ∈ disk.files
  · rw [Disk.perform, if_pos there] at created
    cases created
  · rw [Disk.perform_createNew there] at created
    have renamed := Action.call_ok (Action.call_ok created)
    let written := (disk.create (temporaryName id)).write disk.next bytes
    change Action.run surroundings
      (if (written.move (temporaryName id) (fileName id)).1 then store.enforceRetention codec
      else Action.fail _) (written.move (temporaryName id) (fileName id)).2 = _ at renamed
    rwa [Disk.move_written] at renamed

theorem save_ok (ok : (store.save codec bundle).run surroundings disk = (.ok (), last)) :
    bundle.validate = .ok () ∧ CaseStore.path bundle.caseId = .ok (fileName bundle.caseId) ∧
      ∃ bytes cleared, codec.encode bundle = .ok bytes ∧
        CaseStore.prepare.run surroundings disk = (.ok (), cleared) ∧
        (store.commit codec (temporaryName bundle.caseId) (fileName bundle.caseId) bytes).run
          surroundings cleared = (.ok (), last) := by
  obtain ⟨_, start, validated, rest⟩ := Action.bind_ok ok
  obtain ⟨valid, rfl⟩ := Action.ofResult_ok validated
  obtain ⟨_, cleared, prepared, rest⟩ := Action.bind_ok rest
  obtain ⟨path, middle, found, rest⟩ := Action.bind_ok rest
  obtain ⟨located, rfl⟩ := Action.ofResult_ok found
  obtain ⟨-, -, rfl⟩ := path_ok_iff.mp located
  refine ⟨valid, located, ?_⟩
  split at rest
  · cases rest
  · rename_i bytes encoded
    exact ⟨bytes, cleared, encoded, prepared, rest⟩

end Saving

end SystemPilot.Evidence
