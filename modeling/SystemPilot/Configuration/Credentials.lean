import Mathlib.Tactic
import SystemPilot.Text
import SystemPilot.Json.Object
import SystemPilot.Telemetry.Envelope
import SystemPilot.Library.CrashFiles

/-!
# Credential references

A configuration names its secrets by reference: nothing, an environment
variable, an owner-only file or a systemd credential.  The directories the
agent creates for itself are taken to exist.
-/

set_option autoImplicit false

namespace SystemPilot.Configuration

open SystemPilot.Text
open SystemPilot.Json
open SystemPilot.Library.CrashFiles

/-- `AppError` with the `ConfigParse` case of the configuration loader. -/
inductive ConfigError where
  | app (error : AppError)
  | configParse (path : String)
  deriving DecidableEq, Repr

abbrev ConfigError.io (context : String) : ConfigError := .app (.io context)

abbrev ConfigError.validation (message : String) : ConfigError := .app (.validation message)

abbrev ConfigError.protocol (message : String) : ConfigError := .app (.protocol message)

abbrev ConfigResult (α : Type) := Except ConfigError α

/-- `Path::join` with a relative name. -/
def joinPath (directory name : String) : String :=
  if directory = "" ∨ endsWith directory "/" then directory ++ name
  else directory ++ "/" ++ name

inductive CredentialRef where
  | none
  | environment (variableName : String)
  | file (path : String)
  | systemd (name : String)
  deriving DecidableEq, Repr

/-- The environment of a process: its variables by name. -/
abbrev Environment := String → Option String

/-- The agent's file mode. -/
def ownerOnly : Nat := 0o600

namespace CredentialRef

/-- The derived serializer: a `source` tag beside the one field. -/
def toValue : CredentialRef → Value
  | none => .object [("source", .string "none")]
  | environment variableName =>
      .object [("source", .string "environment"), ("variable", .string variableName)]
  | file path => .object [("path", .string path), ("source", .string "file")]
  | systemd name => .object [("name", .string name), ("source", .string "systemd")]

/-- The derived deserializer; a sequence gives the tag first. -/
def fromValue : Value → Option CredentialRef
  | .object fields =>
      match Fields.get fields "source" with
      | some (.string "none") => some none
      | some (.string "environment") =>
          ((Fields.get fields "variable").bind Value.asString).map environment
      | some (.string "file") => ((Fields.get fields "path").bind Value.asString).map file
      | some (.string "systemd") => ((Fields.get fields "name").bind Value.asString).map systemd
      | _ => Option.none
  | .array [.string "none"] => some none
  | .array [.string "environment", .string variableName] => some (environment variableName)
  | .array [.string "file", .string path] => some (file path)
  | .array [.string "systemd", .string name] => some (systemd name)
  | _ => Option.none

theorem fromValue_toValue (reference : CredentialRef) :
    fromValue reference.toValue = some reference := by
  cases reference <;> simp [toValue, fromValue, Fields.get_cons, Value.asString]

theorem canonical_toValue (depth : Nat) (reference : CredentialRef) :
    reference.toValue.canonical (depth + 1) = true := by
  have pair (first second : String) (left right : String) (before : first < second) :
      (Value.object [(first, .string left), (second, .string right)]).canonical (depth + 1) = true :=
    canonical_object_iff.mpr ⟨List.pairwise_pair.mpr before, by simp⟩
  cases reference with
  | none => exact canonical_object_iff.mpr ⟨List.pairwise_singleton _ _, by simp⟩
  | environment variableName => exact pair _ _ _ _ (by decide)
  | file path => exact pair _ _ _ _ (by decide)
  | systemd name => exact pair _ _ _ _ (by decide)

end CredentialRef

def validateName (name : String) : ConfigResult Unit :=
  if name = "" ∨ '/' ∈ name.toList ∨ ['.', '.'] <:+: name.toList then
    .error (.validation "invalid systemd credential name")
  else .ok ()

def readOwnerFile (files : Files) (path : String) : ConfigResult String :=
  match files[path]? with
  | none => .error (.io "read credential metadata")
  | some file =>
      if file.mode &&& 0o077 ≠ 0 then
        .error (.validation
          ("credential file " ++ path ++ " must not be accessible by group or others"))
      else match fromUtf8 file.content with
        | none => .error (.io "read credential file")
        | some text => .ok text

/-- The value a reference names, before its line ends are trimmed. -/
def credentialSource (environment : Environment) (files : Files) :
    CredentialRef → ConfigResult (Option String)
  | .none => .ok none
  | .environment variableName =>
      match environment variableName with
      | none => .error (.validation
          ("credential environment variable " ++ variableName ++ " is unavailable"))
      | some value => .ok (some value)
  | .file path => (readOwnerFile files path).map some
  | .systemd name => do
      validateName name
      match environment "CREDENTIALS_DIRECTORY" with
      | none => .error (.validation "systemd CREDENTIALS_DIRECTORY is unavailable")
      | some directory => (readOwnerFile files (joinPath directory name)).map some

/-- `CredentialResolver::resolve`. -/
def resolve (environment : Environment) (files : Files) (reference : CredentialRef) :
    ConfigResult (Option String) :=
  match credentialSource environment files reference with
  | .error failure => .error failure
  | .ok none => .ok none
  | .ok (some value) =>
      let value := trimLineEnds value
      if value = "" then .error (.validation "credential source is empty")
      else .ok (some value)

/-- The write of `store_owner_secret`. -/
def secretWrite (directory name value : String) : Write ConfigError :=
  .installed (fun id => joinPath directory ("." ++ name ++ "-" ++ Nat.repr id ++ ".tmp"))
    (joinPath directory name) (bytesOf value) ownerOnly (.io "create temporary credential")

def storeOwnerSecret (directory name value : String) : Plan ConfigError CredentialRef := do
  match validateName name with
  | .error failure => Plan.fail failure
  | .ok () =>
      if isBlank value then Plan.fail (.validation "credential must not be empty")
      else
        Plan.write (secretWrite directory name value)
        pure (.file (joinPath directory name))

/-! ## What a stored secret resolves to -/

theorem storeOwnerSecret_eq {directory name value : String} (named : validateName name = .ok ())
    (filled : isBlank value = false) :
    storeOwnerSecret directory name value =
      ⟨[secretWrite directory name value], .ok (.file (joinPath directory name))⟩ := by
  rw [storeOwnerSecret, named]
  dsimp only
  rw [filled]
  rfl

theorem storeOwnerSecret_blank {directory name value : String} (named : validateName name = .ok ())
    (blank : isBlank value = true) :
    storeOwnerSecret directory name value =
      Plan.fail (.validation "credential must not be empty") := by
  rw [storeOwnerSecret, named]
  dsimp only
  rw [blank]
  rfl

theorem trimLineEnds_ne_empty {value : String} (filled : isBlank value = false) :
    trimLineEnds value ≠ "" := by
  intro stripped
  have lineEnds : ∀ character ∈ value.toList, character = '\r' ∨ character = '\n' := by
    have all := congrArg String.toList stripped
    rw [trimLineEnds, String.toList_ofList, String.toList_empty, List.reverse_eq_nil_iff,
      List.dropWhile_eq_nil_iff] at all
    intro character member
    simpa using all character (List.mem_reverse.mpr member)
  have characters : ∀ character ∈ value.toList, isWhitespace character = true := by
    intro character member
    rcases lineEnds character member with rfl | rfl <;> decide
  have blank : isBlank value = true := by
    rw [isBlank, trim, List.isEmpty_iff, trimMatches_eq_nil]
    exact characters
  rw [filled] at blank
  cases blank

theorem resolve_stored {files : Files} {path secret : String} (environment : Environment)
    (found : files[path]? = some ⟨bytesOf secret, ownerOnly⟩) (filled : isBlank secret = false) :
    resolve environment files (.file path) = .ok (some (trimLineEnds secret)) := by
  have closed : ¬ ownerOnly &&& 0o077 ≠ 0 := by decide
  have source : credentialSource environment files (.file path) = .ok (some secret) := by
    rw [credentialSource, readOwnerFile, found]
    dsimp only
    rw [if_neg closed, fromUtf8_bytesOf]
    rfl
  rw [resolve, source]
  dsimp only
  rw [if_neg (trimLineEnds_ne_empty filled)]

end SystemPilot.Configuration
