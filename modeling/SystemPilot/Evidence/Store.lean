import SystemPilot.Library.Directory
import SystemPilot.Library.Ranking
import SystemPilot.Telemetry.Envelope

/-!
# The case store

`CaseStore` of `evidence.rs` as programs of file operations in one directory.  A
directory that cannot be created, secured or read is a fault of the system and not
part of the model; a file that is gone when it is asked for is.
-/

set_option autoImplicit false

namespace SystemPilot.Evidence

open SystemPilot.Library SystemPilot.Text

/-! ## Bundles -/

def evidenceSchemaVersion : UInt16 := 1

structure TimeRangeV1 where
  startedAtUnixNanos : UInt64
  endedAtUnixNanos : UInt64
  deriving DecidableEq

structure FindingV1 where
  id : String
  severity : String
  summary : String
  evidenceRefs : List String
  deriving DecidableEq

/-- The members the store looks at; the others are its `details`. -/
structure EvidenceBundleV1 (Details : Type) where
  schemaVersion : UInt16
  bundleVersion : String
  caseId : String
  timeRange : TimeRangeV1
  findings : List FindingV1
  details : Details
  deriving DecidableEq

variable {Details : Type}

def EvidenceBundleV1.validate (bundle : EvidenceBundleV1 Details) : AppResult Unit :=
  if bundle.schemaVersion ≠ evidenceSchemaVersion ∨ bundle.bundleVersion ≠ "EvidenceBundleV1" then
    .error (.validation "unsupported evidence bundle version")
  else if isBlank bundle.caseId ∨
      bundle.timeRange.endedAtUnixNanos < bundle.timeRange.startedAtUnixNanos then
    .error (.validation "evidence bundle has an invalid case ID or time range")
  else
    .ok ()

/-- `serde_json` on bundles.  It prints every bundle, and what it reads back of its own
output is the bundle, up to the numbers among the observations. -/
structure BundleCodec (Details : Type) where
  encode : EvidenceBundleV1 Details → Except String (List UInt8)
  decode : List UInt8 → Except String (EvidenceBundleV1 Details)
  encodes : ∀ bundle, ∃ bytes, encode bundle = .ok bytes
  rereads : ∀ bundle bytes again, encode bundle = .ok bytes → decode bytes = .ok again →
    ∃ details, again = { bundle with details := details }

structure CaseSummary where
  caseId : String
  capturedAtUnixNanos : UInt64
  bytes : Nat
  findings : Nat
  deriving DecidableEq

structure CaseStore where
  root : String
  retentionDays : UInt64
  retentionBytes : UInt64

/-! ## Actions -/

/-- Why a function does not return a value: it returns an error, or a sum overflows,
which aborts the process. -/
inductive Stop where
  | failed (error : AppError)
  | aborted
  deriving DecidableEq

/-- A function that works on the directory. -/
def Action (Value : Type) : Type := Program FileOp.Result (Except Stop Value)

namespace Action

variable {Value Other : Type}

def fail (error : AppError) : Action Value := Program.done (.error (.failed error))

def abort : Action Value := Program.done (.error .aborted)

/-- `?`: what follows a success; a stop is handed on. -/
def onOk (following : Value → Action Other) : Except Stop Value → Action Other
  | .ok value => following value
  | .error stop => Program.done (.error stop)

def bind (action : Action Value) (following : Value → Action Other) : Action Other :=
  Program.bind action (onOk following)

instance : Monad Action where
  pure value := Program.done (.ok value)
  bind := bind

def call (op : FileOp) : Action op.Result := Program.perform op fun result => Program.done (.ok result)

/-- `?` on a result. -/
def ofResult : AppResult Value → Action Value
  | .ok value => pure value
  | .error error => fail error

end Action

/-! ## The store -/

/-- `Path::extension` of a file name. -/
def extension (name : String) : Option String :=
  let backwards := name.toList.reverse
  match backwards.dropWhile (· ≠ '.') with
  | [] => none
  | [_] => none
  | _ => some (String.ofList (backwards.takeWhile (· ≠ '.')).reverse)

/-- The nanoseconds of the clock as `u64`; a clock before the epoch reads 0. -/
def nowNs (clock : Int) : Nat := clock.toNat % 2 ^ 64

def clear : List String → Action Unit
  | [] => pure ()
  | name :: names =>
      if extension name = some "tmp" then do
        let removed ← Action.call (.remove name)
        if removed then clear names else Action.fail (.io "could not remove interrupted case file")
      else clear names

namespace CaseStore

def prepare : Action Unit := do
  let names ← Action.call .readDir
  clear names

/-- The name of the file of a case. -/
def path (id : String) : AppResult String :=
  if id = "" ∨ ¬ id.toList.all (fun v => v.isAlphanum || v == '-') then
    .error (.validation "invalid case ID")
  else
    .ok (id ++ ".json")

variable (store : CaseStore) (codec : BundleCodec Details)

/-- The loop of `list`. -/
def readCases : List String → Action (List CaseSummary)
  | [] => pure []
  | name :: names =>
      if extension name ≠ some "json" then readCases names
      else do
        let content ← Action.call (.read name)
        match content with
        | none => Action.fail (.io "could not read stored case")
        | some bytes =>
            match codec.decode bytes with
            | .error e => Action.fail (.protocol ("stored case " ++ store.root ++ "/" ++ name ++
                " is malformed and was not ignored: " ++ e))
            | .ok bundle => do
                Action.ofResult bundle.validate
                let metadata ← Action.call (.metadata name)
                match metadata with
                | none => Action.fail (.io "could not read stored case metadata")
                | some length => do
                    let cases ← readCases names
                    pure ({
                      caseId := bundle.caseId
                      capturedAtUnixNanos := bundle.timeRange.endedAtUnixNanos
                      bytes := length
                      findings := bundle.findings.length } :: cases)

def list : Action (List CaseSummary) := do
  prepare
  let names ← Action.call .readDir
  let cases ← store.readCases codec names
  pure (Ranking.descending (fun case => case.capturedAtUnixNanos.toNat) cases)

/-- The loop of `enforce_retention`. -/
def evict (cutoff : Nat) : List CaseSummary → Nat → Action Unit
  | [], _ => pure ()
  | case :: cases, total =>
      if case.capturedAtUnixNanos.toNat < cutoff ∨ store.retentionBytes.toNat < total then do
        let path ← Action.ofResult (path case.caseId)
        let removed ← Action.call (.remove path)
        if removed then evict cutoff cases (total - case.bytes)
        else Action.fail (.io "could not enforce case retention")
      else evict cutoff cases total

/-- Cases captured before are too old. -/
def cutoff (clock : Int) : Nat :=
  nowNs clock - min (store.retentionDays.toNat * 86400000000000) (2 ^ 64 - 1)

def enforceRetention : Action Unit := do
  let clock ← Action.call .now
  let cases ← store.list codec
  let cases := Ranking.ascending (fun case => case.capturedAtUnixNanos.toNat) cases
  let total := (cases.map CaseSummary.bytes).sum
  if total < 2 ^ 64 then store.evict (store.cutoff clock) cases total else Action.abort

/-- The second half of `save`: the case is written under its temporary name and
renamed. -/
def commit (temporary path : String) (bytes : List UInt8) : Action Unit := do
  let created ← Action.call (.createNew temporary)
  match created with
  | none => Action.fail (.io "could not create temporary case")
  | some file => do
      Action.call (.write file bytes)
      let renamed ← Action.call (.rename temporary path)
      if renamed then store.enforceRetention codec else Action.fail (.io "could not commit case")

def save (bundle : EvidenceBundleV1 Details) : Action Unit := do
  Action.ofResult bundle.validate
  prepare
  let path ← Action.ofResult (path bundle.caseId)
  match codec.encode bundle with
  | .error e => Action.fail (.protocol ("could not encode evidence bundle: " ++ e))
  | .ok bytes => store.commit codec (bundle.caseId ++ ".tmp") path bytes

end CaseStore

/-! ## Names of files -/

/-- The name of the file of a case. -/
def fileName (id : String) : String := id ++ ".json"

/-- The name under which a case is written. -/
def temporaryName (id : String) : String := id ++ ".tmp"

theorem path_ok_iff {id name : String} :
    CaseStore.path id = .ok name ↔ id ≠ "" ∧
      (∀ v ∈ id.toList, v.isAlphanum = true ∨ v = '-') ∧ name = fileName id := by
  unfold CaseStore.path fileName
  constructor
  · intro ok
    split at ok
    · cases ok
    · rename_i valid
      rw [not_or, not_not] at valid
      refine ⟨valid.1, ?_, (Except.ok.inj ok).symm⟩
      simpa using valid.2
  · rintro ⟨nonempty, plain, rfl⟩
    rw [if_neg]
    rw [not_or, not_not]
    exact ⟨nonempty, by simpa using plain⟩

theorem extension_append {id suffix : String} (nonempty : id ≠ "") (plain : '.' ∉ suffix.toList) :
    extension (id ++ "." ++ suffix) = some suffix := by
  have backwards : (id ++ "." ++ suffix).toList.reverse =
      suffix.toList.reverse ++ '.' :: id.toList.reverse := by simp
  have kept : ∀ v ∈ suffix.toList.reverse, decide (v ≠ '.') = true := by
    intro v member
    exact decide_eq_true fun dot => plain (dot ▸ List.mem_reverse.mp member)
  unfold extension
  rw [backwards]
  dsimp only
  rw [List.dropWhile_append_of_pos kept, List.takeWhile_append_of_pos kept]
  cases front : id.toList.reverse with
  | nil => exact absurd (String.toList_eq_nil_iff.mp (List.reverse_eq_nil_iff.mp front)) nonempty
  | cons v rest => simp

theorem extension_fileName {id : String} (nonempty : id ≠ "") :
    extension (fileName id) = some "json" := by
  rw [fileName, show ".json" = "." ++ "json" from rfl, ← String.append_assoc]
  exact extension_append nonempty (by decide)

theorem extension_temporaryName {id : String} (nonempty : id ≠ "") :
    extension (temporaryName id) = some "tmp" := by
  rw [temporaryName, show ".tmp" = "." ++ "tmp" from rfl, ← String.append_assoc]
  exact extension_append nonempty (by decide)

theorem temporaryName_injective : Function.Injective temporaryName := by
  intro left right same
  have lists := congrArg String.toList same
  exact String.toList_injective (by simpa [temporaryName] using lists)

theorem fileName_injective : Function.Injective fileName := by
  intro left right same
  have lists := congrArg String.toList same
  exact String.toList_injective (by simpa [fileName] using lists)

end SystemPilot.Evidence
