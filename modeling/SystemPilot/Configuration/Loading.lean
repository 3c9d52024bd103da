import SystemPilot.Configuration.Fleet
import SystemPilot.Configuration.Overrides

/-!
# What a load leaves

After a load that succeeded the document is of the current schema, or there is none;
from then on every load reads the same document and writes nothing.
-/

set_option autoImplicit false

namespace SystemPilot.Configuration

open SystemPilot.Text
open SystemPilot.Json
open SystemPilot.Library.CrashFiles

variable {floats : FloatText} {codec : ConfigCodec floats} {parseUrl : UrlParser}
  {directory : String} {environment : Environment} {files : Files} {before config : Config}
  {id : Nat}

/-- A document of the current schema that reads as this record. -/
structure Document (codec : ConfigCodec floats) (directory : String) (files : Files)
    (before : Config) (file : File) (object : Fields) (text : String) : Prop where
  stored : files[configFile directory]? = some file
  parsed : parseBytes floats file.content = some (.object object)
  current : schemaVersion object = .ok currentSchemaVersion
  decoded : fromUtf8 file.content = some text
  read : codec.decode text = some before

/-- The record a load starts from: the one of the document, or the default one where
there is no document. -/
def Holds (codec : ConfigCodec floats) (directory : String) (files : Files) (before : Config) :
    Prop :=
  (files[configFile directory]? = none ∧ before = {}) ∨
    ∃ file object text, Document codec directory files before file object text

theorem runtimeConfig_valid (loaded : runtimeConfig parseUrl environment files before = .ok config) :
    validate parseUrl config = .ok () := by
  unfold runtimeConfig at loaded
  simp only [bind, Except.bind] at loaded
  split at loaded
  · cases loaded
  · split at loaded
    · cases loaded
    · split at loaded
      · cases loaded
      · split at loaded
        · cases loaded
        · split at loaded
          · cases loaded
          · split at loaded
            · cases loaded
            · rename_i done valid
              cases loaded
              exact valid

theorem Document.fits {file : File} {object : Fields} {text : String}
    (document : Document codec directory files before file object text) : before.Fits :=
  codec.decode_fits text before document.read

theorem Holds.fits (holds : Holds codec directory files before) : before.Fits := by
  rcases holds with ⟨_, rfl⟩ | ⟨file, object, text, document⟩
  · decide
  · exact document.fits

/-- A load is one reading of the files. -/
theorem Holds.load (holds : Holds codec directory files before) (process : Process) (calls : Nat) :
    loadChecked codec parseUrl directory environment process ⟨files, calls⟩ =
      (⟨files, calls⟩, match runtimeConfig parseUrl environment files before with
        | .ok config => .ok config
        | .error failure => .error failure) := by
  rw [loadChecked, Program.bind_apply, Program.bind_apply, Program.read_apply]
  rcases holds with ⟨absent, rfl⟩ | ⟨file, object, text, document⟩
  · rw [absent]
    dsimp only [Program.pure_apply]
    rw [Program.bind_apply, Program.present]
    dsimp only
    cases runtimeConfig parseUrl environment files {} <;> rfl
  · rw [document.stored]
    dsimp only
    rw [Program.bind_apply,
      loadAndMigrate_current document.stored document.parsed document.current document.decoded]
    dsimp only
    rw [document.read]
    dsimp only [Program.pure_apply]
    rw [Program.bind_apply, Program.present]
    dsimp only
    cases runtimeConfig parseUrl environment files before <;> rfl

/-- What a load that read the document does next. -/
theorem loadChecked_stored {file : File} {disk : Disk} {process : Process}
    (stored : disk.files[configFile directory]? = some file) :
    loadChecked codec parseUrl directory environment process disk =
      match loadAndMigrate floats directory process disk with
      | (after, .ok text) =>
          match codec.decode text with
          | none => (after, .error (.configParse (configFile directory)))
          | some before => (after, match runtimeConfig parseUrl environment after.files before with
              | .ok config => .ok config
              | .error failure => .error failure)
      | (after, .error failure) => (after, .error failure)
      | (after, .crash) => (after, .crash) := by
  rw [loadChecked, Program.bind_apply, Program.bind_apply, Program.read_apply, stored]
  dsimp only
  rw [Program.bind_apply]
  rcases loadAndMigrate floats directory process disk with ⟨after, text | failure | _⟩
  · dsimp only
    cases codec.decode text with
    | none => rfl
    | some before =>
        dsimp only [Program.pure_apply]
        rw [Program.bind_apply, Program.present]
        dsimp only
        cases runtimeConfig parseUrl environment after.files before <;> rfl
  · rfl
  · rfl

/-- A text `load_and_migrate` gives is the document that stands there after it. -/
theorem loadAndMigrate_document {file : File} {after : Disk} {text : String}
    (stored : files[configFile directory]? = some file)
    (loaded : loadAndMigrate floats directory ⟨id, none⟩ ⟨files, 0⟩ = (after, .ok text))
    (read : codec.decode text = some before) :
    ∃ file object, Document codec directory after.files before file object text := by
  have run := loaded
  rw [loadAndMigrate, Program.bind_apply, Program.read_apply, stored] at run
  dsimp only at run
  cases parsed : parseBytes floats file.content with
  | none =>
      rw [parsed] at run
      cases run
  | some value =>
      rw [parsed] at run
      cases value with
      | object object =>
          dsimp only at run
          cases version : schemaVersion object with
          | error failure =>
              rw [version] at run
              cases run
          | ok number =>
              rw [version] at run
              dsimp only at run
              by_cases current : number = currentSchemaVersion
              · rw [if_pos current] at run
                cases decoded : fromUtf8 file.content with
                | none =>
                    rw [decoded] at run
                    cases run
                | some whole =>
                    rw [decoded] at run
                    cases run
                    exact ⟨file, object, stored, parsed, current ▸ version, decoded, read⟩
              · rw [if_neg current] at run
                by_cases old : number = 0 ∨ number = 1
                · have legacy : number ≤ 1 := by omega
                  rw [loadAndMigrate_plan stored parsed version legacy] at loaded
                  obtain ⟨result, ready⟩ :=
                    (Plan.run_ok_iff migrationPlan_separate id text).mp (congrArg Prod.snd loaded)
                  have reached : after.files = _ :=
                    (congrArg (fun done => done.1.files) loaded).symm.trans
                      (Plan.run_files migrationPlan_separate id ready)
                  obtain ⟨document, rfl, config, meaning, reparsed⟩ :=
                    outcome_meaning files parsed result
                  rw [← reached] at config
                  exact ⟨_, _, config, reparsed, schemaVersion_printed meaning.current,
                    fromUtf8_bytesOf _, read⟩
                · rw [if_neg old] at run
                  cases run
      | null | bool _ | number _ | string _ | array _ => cases run

theorem loadChecked_ok {after : Disk}
    (loaded : loadChecked codec parseUrl directory environment ⟨id, none⟩ ⟨files, 0⟩ =
      (after, .ok config)) :
    ∃ before, Holds codec directory after.files before ∧
      runtimeConfig parseUrl environment after.files before = .ok config := by
  cases stored : files[configFile directory]? with
  | none =>
      have holds : Holds codec directory files {} := .inl ⟨stored, rfl⟩
      rw [holds.load] at loaded
      cases read : runtimeConfig parseUrl environment files {} with
      | error failure =>
          rw [read] at loaded
          cases loaded
      | ok runtime =>
          rw [read] at loaded
          cases loaded
          exact ⟨{}, holds, read⟩
  | some file =>
      have stored' : (Disk.mk files 0).files[configFile directory]? = some file := stored
      rw [loadChecked_stored stored'] at loaded
      cases migrated : loadAndMigrate floats directory ⟨id, none⟩ ⟨files, 0⟩ with
      | mk reached ending =>
          rw [migrated] at loaded
          cases ending with
          | error failure => cases loaded
          | crash => cases loaded
          | ok text =>
              dsimp only at loaded
              cases read : codec.decode text with
              | none =>
                  rw [read] at loaded
                  cases loaded
              | some before =>
                  rw [read] at loaded
                  dsimp only at loaded
                  cases ran : runtimeConfig parseUrl environment reached.files before with
                  | error failure =>
                      rw [ran] at loaded
                      cases loaded
                  | ok runtime =>
                      rw [ran] at loaded
                      cases loaded
                      obtain ⟨file, object, document⟩ :=
                        loadAndMigrate_document stored migrated read
                      exact ⟨before, .inr ⟨file, object, text, document⟩, ran⟩

end SystemPilot.Configuration
