import Mathlib.Tactic
import SystemPilot.Json.Printer
import SystemPilot.Configuration.Credentials

/-!
# Configuration migration

`config_migration.rs`: what a migration writes and in which order, the backups
it refuses to overwrite, and the rollback to them.  Everything a migration
writes follows from the document it has read.
-/

set_option autoImplicit false

namespace SystemPilot.Configuration

open SystemPilot.Text
open SystemPilot.Json
open SystemPilot.Library.CrashFiles

/-- `CURRENT_CONFIG_SCHEMA_VERSION`. -/
def currentSchemaVersion : Nat := 2

def preV1Backup : String := "config.pre-v1.json"

def preV2Backup : String := "config.pre-v2.json"

def preRollbackBackup : String := "config.pre-rollback-v2.json"

/-- The file a configuration directory is about. -/
def configFile (directory : String) : String := joinPath directory "config.json"

def atomicWrite (directory : String) (bytes : List UInt8) : Write ConfigError :=
  .installed (fun id => joinPath directory (".config-migration-" ++ Nat.repr id ++ ".tmp"))
    (configFile directory) bytes ownerOnly (.io "could not create temporary migrated configuration")

def immutableBackup (path : String) (bytes : List UInt8) : Write ConfigError :=
  .sealed path bytes ownerOnly (.validation ("configuration backup " ++ path ++
    " already exists with different contents; refusing to overwrite it"))

/-- `serde_json::from_slice` into a value. -/
def parseBytes (floats : FloatText) (bytes : List UInt8) : Option Value :=
  (fromUtf8 bytes).bind fun text => parseText floats text.toList

def schemaVersion (object : Fields) : ConfigResult Nat :=
  match Fields.get object "schema_version" with
  | none => .ok 0
  | some value =>
      match value.asU64 with
      | some version => .ok version
      | none => .error (.validation "configuration schema_version must be an unsigned integer")

/-- The models a migration replaces. -/
def outdatedModel (model : String) : Bool :=
  model = "" || model = "gemini" || model = "gemini-2.0-flash" ||
    ('/' ∉ model.toList && '-' ∉ model.toList)

def migrateModel (object : Fields) : Fields :=
  match (Fields.get object "gemini_model").bind Value.asString with
  | some model =>
      if outdatedModel model then
        Fields.insert "gemini_model" (.string "gemini-3.6-flash") object
      else object
  | none => object

def migrateSecret (object : Fields) (oldKey referenceKey directory filename : String) :
    Plan ConfigError Fields := do
  match Fields.get object oldKey with
  | none => pure object
  | some value =>
      let object := Fields.remove object oldKey
      match value.asString with
      | none => Plan.fail (.validation ("legacy credential field " ++ oldKey ++ " must be a string"))
      | some secret =>
          if secret = "" then
            pure (Fields.insert referenceKey CredentialRef.none.toValue object)
          else
            let reference ← storeOwnerSecret directory filename secret
            pure (Fields.insert referenceKey reference.toValue object)

/-- A secret of a nested object, when there is one. -/
def migrateNested (object : Fields) (container oldKey referenceKey directory filename : String) :
    Plan ConfigError Fields := do
  match Fields.get object container with
  | some (.object inner) =>
      let inner ← migrateSecret inner oldKey referenceKey directory filename
      pure (Fields.insert container (.object inner) object)
  | _ => pure object

def migrateSecrets (object : Fields) (directory : String) : Plan ConfigError Fields := do
  let object ← migrateSecret object "gemini_api_key" "gemini_credential" directory "gemini-api-key"
  let object ←
    migrateSecret object "syspilot_api_key" "syspilot_credential" directory "syspilot-api-key"
  let object ← migrateNested object "distributed_telemetry" "bearer_token" "bearer_credential"
    directory "telemetry-token"
  migrateNested object "fleet" "credential" "credential_ref" directory "fleet-token"

/-- The branch of `load_and_migrate` for version 0 and 1. -/
def migrationPlan (floats : FloatText) (directory : String) (original : List UInt8)
    (object : Fields) (version : Nat) : Plan ConfigError String := do
  if version = 0 then
    Plan.write (immutableBackup (joinPath directory preV1Backup) original)
  Plan.write (immutableBackup (joinPath directory preV2Backup) original)
  let object ← migrateSecrets (migrateModel object) (joinPath directory "credentials")
  let object := Fields.insert "schema_version" (.number (.posInt currentSchemaVersion)) object
  let migrated := String.ofList (pretty floats 0 (.object object))
  Plan.write (atomicWrite directory (bytesOf migrated))
  pure migrated

def loadAndMigrate (floats : FloatText) (directory : String) : Program ConfigError String := do
  match ← Program.read (configFile directory) with
  | none => Program.fail (.io "could not read SysPilot configuration")
  | some file =>
      match parseBytes floats file.content with
      | none => Program.fail (.configParse (configFile directory))
      | some (.object object) =>
          match schemaVersion object with
          | .error failure => Program.fail failure
          | .ok version =>
              if version = currentSchemaVersion then
                match fromUtf8 file.content with
                | some text => pure text
                | none => Program.fail (.validation "configuration is not UTF-8")
              else if version = 0 ∨ version = 1 then
                (migrationPlan floats directory file.content object version).run
              else
                Program.fail (.validation ("configuration schema " ++ toString version ++
                  " is newer than supported schema " ++ toString currentSchemaVersion ++
                  "; upgrade SysPilot or run `syspilot config rollback`"))
      | some _ => Program.fail (.validation "configuration root must be a JSON object")

/-- What `rollback` does with the file that is there before it. -/
def keepCurrent (directory : String) : Option File → Program ConfigError Unit
  | some current => (immutableBackup (joinPath directory preRollbackBackup) current.content).attempt
  | none => pure ()

def rollback (directory : String) : Program ConfigError String := do
  let preV2 ← Program.read (joinPath directory preV2Backup)
  let backup := if preV2.isSome then joinPath directory preV2Backup
    else joinPath directory preV1Backup
  match ← Program.read backup with
  | none => Program.fail (.io "could not read pre-migration configuration backup")
  | some previous =>
      let current ← Program.read (configFile directory)
      keepCurrent directory current
      (atomicWrite directory previous.content).attempt
      pure backup

end SystemPilot.Configuration
