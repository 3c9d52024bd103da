import SystemPilot.Evidence.Store

/-!
# What the store asks of the directory

The operations of `list` and of the retention only look at the directory or remove
names, and they fail only when a name they were given is gone or a case cannot be
read.
-/

set_option autoImplicit false

namespace SystemPilot.Evidence

open SystemPilot.Library

variable {Details Value Other : Type}

/-- The operation makes no name and writes no file. -/
def Harmless : FileOp → Prop
  | .createNew _ => False
  | .write _ _ => False
  | .rename _ _ => False
  | _ => True

variable (codec : BundleCodec Details) (strict : Prop)

/-- A case that the store can list and evict. -/
def Readable (bytes : List UInt8) : Prop :=
  ∃ bundle, codec.decode bytes = .ok bundle ∧ bundle.validate = .ok () ∧
    CaseStore.path bundle.caseId = .ok (fileName bundle.caseId)

/-- The name is still there, with a case that can be read. -/
def Served : (op : FileOp) → op.Result → Prop
  | .remove _, removed => removed = true
  | .read _, content => ∃ bytes, content = some bytes ∧ Readable codec bytes
  | .metadata _, length => ∃ bytes, length = some bytes
  | _, _ => True

namespace Action

/-- An action of harmless operations that, in the strict case, returns no error as long
as it is served. -/
def Goes (ending : Value → Prop) (action : Action Value) : Prop :=
  Program.Keeps Harmless (fun op result => strict → Served codec op result) (fun
    | .ok value => ending value
    | .error (.failed _) => ¬ strict
    | .error .aborted => True) action

variable {codec strict} {ending : Value → Prop} {final : Other → Prop}

theorem goes_pure {value : Value} (ends : ending value) :
    Goes codec strict ending (pure value) := ends

theorem goes_fail {error : AppError} (lenient : ¬ strict) :
    Goes codec strict ending (fail error) := lenient

theorem goes_bind {action : Action Value} {following : Value → Action Other}
    (first : Goes codec strict ending action)
    (rest : ∀ value, ending value → Goes codec strict final (following value)) :
    Goes codec strict final (action >>= following) := by
  refine Program.keeps_bind first ?_
  intro result ends
  cases result with
  | ok value => exact rest value ends
  | error stop =>
      cases stop with
      | failed error => exact ends
      | aborted => exact ends

theorem goes_call {op : FileOp} {following : op.Result → Action Other} (harmless : Harmless op)
    (rest : ∀ result, (strict → Served codec op result) →
      Goes codec strict final (following result)) :
    Goes codec strict final (call op >>= following) := ⟨harmless, rest⟩

theorem goes_ofResult {result : AppResult Value} (ends : ∀ value, result = .ok value → ending value)
    (succeeds : strict → ∃ value, result = .ok value) :
    Goes codec strict ending (ofResult result) := by
  cases result with
  | ok value => exact goes_pure (ends value rfl)
  | error error =>
      refine goes_fail fun strictly => ?_
      obtain ⟨value, impossible⟩ := succeeds strictly
      cases impossible

end Action

variable {codec strict} {store : CaseStore}

open Evidence.Action

theorem clear_goes (names : List String) : Goes codec strict (fun _ => True) (clear names) := by
  induction names with
  | nil => exact goes_pure trivial
  | cons name names inductionHypothesis =>
      rw [clear]
      split
      · refine goes_call trivial fun removed served => ?_
        split
        · exact inductionHypothesis
        · rename_i missing
          exact goes_fail fun strictly => missing (served strictly)
      · exact inductionHypothesis

theorem prepare_goes : Goes codec strict (fun _ => True) CaseStore.prepare :=
  goes_call trivial fun names _ => clear_goes names

/-- The files of the cases have names. -/
def Placed (cases : List CaseSummary) : Prop :=
  ∀ case ∈ cases, CaseStore.path case.caseId = .ok (fileName case.caseId)

theorem readCases_goes (names : List String) :
    Goes codec strict (fun cases => strict → Placed cases) (store.readCases codec names) := by
  induction names with
  | nil => exact goes_pure fun _ _ member => absurd member List.not_mem_nil
  | cons name names inductionHypothesis =>
      rw [CaseStore.readCases]
      split
      · exact inductionHypothesis
      · refine goes_call trivial fun content served => ?_
        split
        · refine goes_fail fun strictly => ?_
          obtain ⟨bytes, impossible, -⟩ := served strictly
          cases impossible
        · rename_i bytes
          have readable : strict → Readable codec bytes := by
            intro strictly
            obtain ⟨read, same, readable⟩ := served strictly
            rwa [Option.some.inj same]
          split
          · rename_i e refused
            refine goes_fail fun strictly => ?_
            obtain ⟨bundle, decoded, -⟩ := readable strictly
            rw [refused] at decoded
            cases decoded
          · rename_i bundle decoded
            have proper : strict → bundle.validate = .ok () ∧
                CaseStore.path bundle.caseId = .ok (fileName bundle.caseId) := by
              intro strictly
              obtain ⟨other, found, valid, placed⟩ := readable strictly
              obtain rfl : bundle = other := Except.ok.inj (decoded.symm.trans found)
              exact ⟨valid, placed⟩
            refine goes_bind (goes_ofResult (fun _ _ => trivial) fun strictly =>
              ⟨(), (proper strictly).1⟩) fun _ _ => ?_
            refine goes_call trivial fun length measured => ?_
            split
            · refine goes_fail fun strictly => ?_
              obtain ⟨bytes, impossible⟩ := measured strictly
              cases impossible
            · refine goes_bind inductionHypothesis fun cases placed => goes_pure ?_
              intro strictly case member
              rcases List.mem_cons.mp member with rfl | later
              · exact (proper strictly).2
              · exact placed strictly case later

theorem list_goes :
    Goes codec strict (fun cases => strict → Placed cases) (store.list codec) := by
  refine goes_bind prepare_goes fun _ _ => goes_call trivial fun names _ => ?_
  refine goes_bind (readCases_goes names) fun cases placed => goes_pure ?_
  intro strictly case member
  exact placed strictly case ((Ranking.perm_descending _ cases).mem_iff.mp member)

theorem evict_goes {cutoff total : Nat} {cases : List CaseSummary} (placed : strict → Placed cases) :
    Goes codec strict (fun _ => True) (store.evict cutoff cases total) := by
  induction cases generalizing total with
  | nil => exact goes_pure trivial
  | cons case cases inductionHypothesis =>
      have rest : strict → Placed cases := fun strictly other member =>
        placed strictly other (List.mem_cons_of_mem case member)
      rw [CaseStore.evict]
      split
      · refine goes_bind (goes_ofResult (fun _ _ => trivial) fun strictly =>
          ⟨_, placed strictly case List.mem_cons_self⟩) fun path _ => ?_
        refine goes_call trivial fun removed served => ?_
        split
        · exact inductionHypothesis rest
        · rename_i missing
          exact goes_fail fun strictly => missing (served strictly)
      · exact inductionHypothesis rest

theorem enforceRetention_goes :
    Goes codec strict (fun _ => True) (store.enforceRetention codec) := by
  refine goes_call trivial fun clock _ => goes_bind list_goes fun cases placed => ?_
  dsimp only
  split
  · refine evict_goes fun strictly case member => ?_
    exact placed strictly case ((Ranking.perm_ascending _ cases).mem_iff.mp member)
  · exact trivial

end SystemPilot.Evidence
