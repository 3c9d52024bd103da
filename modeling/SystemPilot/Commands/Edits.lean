import SystemPilot.Configuration.Standing

/-!
# Commands that edit the configuration

Each command is a process: it loads the configuration, edits the record, may store a
secret in its file and then saves the document.
-/

set_option autoImplicit false

namespace SystemPilot.Commands

open SystemPilot.Text
open SystemPilot.Json
open SystemPilot.Telemetry
open SystemPilot.Library
open SystemPilot.Library.CrashFiles
open SystemPilot.Configuration

/-! ## Edits -/

/-- What a command is refused with before `main` exits with 1. -/
inductive CommandFailure where
  | refused (message : String)
  | failed (context : String) (failure : ConfigError)
  deriving DecidableEq, Repr

/-- What a command does with the configuration it has loaded. -/
inductive Edit where
  | refuse (failure : CommandFailure)
  /-- It prints something, and its exit code is not about the configuration. -/
  | leaves
  /-- The documents it saves one after the other. -/
  | saves (context : String) (configs : List Config)
  /-- A secret is stored first, and its reference goes into the document. -/
  | stores (storing saving name value : String) (next : CredentialRef → ConfigResult Config)

def saveContext : String := "❌ Could not save SysPilot configuration"

/-- The hidden prompt of a terminal, or a line of the standard input. -/
inductive Typed where
  | hidden (answer : Except String String)
  | line (answer : Except String String)

/-- What a process reads while it runs; the confirmation is none when the input ends. -/
structure Input where
  typed : Typed
  confirmation : Except String (Option String)
  pulled : Bool
  now : UInt64

/-- `read_secret`; a variable that is blank is no secret. -/
def readSecret (environment : Environment) (typed : Typed) (variableName : String)
    (required : Bool) : Except String String :=
  let given : Except String String :=
    match typed with
    | .hidden (.error reason) => .error ("could not read credential: " ++ reason)
    | .hidden (.ok value) => .ok value
    | .line (.error reason) => .error ("could not read credential from stdin: " ++ reason)
    | .line (.ok value) => .ok (trimLineEnds value)
  let asked : Except String String :=
    match given with
    | .error reason => .error reason
    | .ok value =>
        if required && value = "" then
          .error ("a credential is required via " ++ variableName ++ " or hidden prompt/stdin")
        else .ok value
  match environment variableName with
  | some value => if isBlank value then asked else .ok value
  | none => asked

/-! ## The commands -/

section Handlers

variable (lower : String → String) (parseUrl : UrlParser) (environment : Environment)
  (input : Input) (config : Config)

def refuse (message : String) : Edit := .refuse (.refused message)

def editProvider : List String → Edit
  | [] => refuse "❌ Expected provider name (disabled, gemini, ollama, syspilot)"
  | name :: _ =>
      let provider := lower name
      if provider ∉ ["disabled", "gemini", "ollama", "syspilot"] then
        refuse ("❌ Unknown provider: " ++ provider ++ ". Use: disabled, gemini, ollama, syspilot.")
      else .saves saveContext [{ config with activeProvider := provider }]

def editModel : List String → Edit
  | [] => refuse "❌ Expected model name."
  | model :: _ => .saves saveContext [
      if config.activeProvider = "gemini" then { config with geminiModel := model }
      else if config.activeProvider = "ollama" then { config with ollamaModel := model }
      else if config.activeProvider = "syspilot" then { config with syspilotModel := model }
      else config]

/-- The save after a pull that succeeded. -/
def activated (model : String) (setActive : Bool) (config : Config) : List Config :=
  if input.pulled && setActive then [{ config with ollamaModel := model }] else []

def editPull : List String → Edit
  | [] => refuse "❌ Expected model name."
  | model :: rest =>
      let setActive := rest.head? = some "--set-active"
      if config.activeProvider = "ollama" then
        .saves saveContext (activated input model setActive config)
      else
        match input.confirmation with
        | .error reason => refuse ("❌ Could not read confirmation: " ++ reason)
        | .ok none => refuse "❌ Input closed before confirmation; pull aborted."
        | .ok (some line) =>
            let answer := lower (String.ofList (trim line))
            if answer ≠ "y" ∧ answer ≠ "" then .saves saveContext []
            else
              let config := { config with activeProvider := "ollama" }
              .saves saveContext (config :: activated input model setActive config)

/-- The telemetry section with another destination. -/
def exporting (config : Config) (endpoint nodeId token : String)
    (reference : CredentialRef) : Config :=
  { config with
    distributedTelemetry := { config.distributedTelemetry with
      enabled := true
      endpoint
      nodeId
      bearerToken := token
      bearerCredential := reference } }

def editTelemetryEnable : List String → Edit
  | [endpoint, nodeId] =>
      match readSecret environment input.typed "SYSPILOT_TELEMETRY_TOKEN" false with
      | .error reason => refuse ("❌ Could not read telemetry credential: " ++ reason)
      | .ok token =>
          if token = "" then .saves saveContext [exporting config endpoint nodeId "" .none]
          else .stores "❌ Could not store telemetry credential" saveContext "telemetry-token" token
            fun reference => .ok (exporting config endpoint nodeId token reference)
  | _ => refuse "❌ Usage: syspilot config telemetry enable <endpoint> <node-id>"

def editTelemetryDisable : Edit :=
  .saves saveContext [{ config with
    distributedTelemetry := { config.distributedTelemetry with
      enabled := false
      bearerToken := ""
      bearerCredential := .none } }]

def editTelemetry : List String → Edit
  | [] => .leaves
  | action :: rest =>
      if action = "enable" then editTelemetryEnable environment input config rest
      else if action = "disable" then editTelemetryDisable config
      else if action = "show" ∨ action = "preview" then .leaves
      else refuse "❌ Usage: syspilot config telemetry <enable|disable|show|preview>"

def withRules (config : Config) (rules : List ProcessAlertRule) : Config :=
  { config with distributedTelemetry := { config.distributedTelemetry with
      processAlertRules := rules } }

def editAlertAdd : List String → Edit
  | id :: kind :: name :: _ =>
      let add := fun matchType =>
        if config.distributedTelemetry.processAlertRules.any fun rule => rule.id = id then
          refuse ("❌ Alert rule " ++ id ++ " already exists")
        else .saves saveContext [withRules config
          (config.distributedTelemetry.processAlertRules ++
            [{ id, processName := name, matchType, enabled := true, labels := ∅ }])]
      if kind = "exact" then add .exact
      else if kind = "prefix" then add .prefixOf
      else refuse "❌ Match type must be exact or prefix"
  | _ => refuse "❌ Usage: syspilot config alert add <id> <exact|prefix> <process-name>"

def editAlertRemove : List String → Edit
  | [] => refuse "❌ Usage: syspilot config alert remove <id>"
  | id :: _ =>
      let rules := config.distributedTelemetry.processAlertRules
      let kept := rules.filter fun rule => rule.id ≠ id
      if rules.length = kept.length then refuse ("❌ Alert rule " ++ id ++ " not found")
      else .saves saveContext [withRules config kept]

def editAlert : List String → Edit
  | [] => .leaves
  | action :: rest =>
      if action = "add" then editAlertAdd config rest
      else if action = "remove" then editAlertRemove config rest
      else if action = "list" then .leaves
      else refuse "❌ Usage: syspilot config alert <add|remove|list>"

/-- `set_provider_credential` on the arguments of `set-key`. -/
def editSetKey : List String → Edit
  | [name] =>
      let context := "❌ Could not store provider credential"
      let provider := lower name
      let variableName := if provider = "gemini" then "GEMINI_API_KEY" else "SYSPILOT_API_KEY"
      match readSecret environment input.typed variableName true with
      | .error reason => refuse (context ++ ": " ++ reason)
      | .ok key =>
          if provider = "gemini" then
            .stores context saveContext "gemini-api-key" key fun reference =>
              .ok { config with geminiApiKey := key, geminiCredential := reference }
          else if provider = "syspilot" then
            .stores context saveContext "syspilot-api-key" key fun reference =>
              .ok { config with syspilotApiKey := key, syspilotCredential := reference }
          else .refuse (.failed context (.validation
            ("provider '" ++ provider ++ "' does not use a stored credential")))
  | _ => refuse "❌ Usage: syspilot config set-key <provider>"

def editSetUrl : List String → Edit
  | name :: url :: _ =>
      let provider := lower name
      if provider ≠ "ollama" then
        refuse ("❌ Provider " ++ provider ++ " does not support custom URLs.")
      else .saves saveContext [{ config with ollamaUrl := url }]
  | _ => refuse "❌ Usage: syspilot config set-url <provider> <url>"

def editSet : List String → Edit
  | name :: value :: _ =>
      let option := lower name
      if option = "chunk_strategy" ∨ option = "strategy" then
        if value ≠ "syntactic" ∧ value ≠ "line" then
          refuse "❌ Invalid chunk strategy. Options: syntactic, line"
        else .saves saveContext [{ config with chunkStrategy := value }]
      else if option = "embedding_model" ∨ option = "model" then
        .saves saveContext [{ config with embeddingModel := value }]
      else if option = "embedding_provider" ∨ option = "embedding-provider" then
        if value ∉ embeddingProviders then
          refuse "❌ Invalid embedding provider. Options: active, gemini, ollama"
        else .saves saveContext [{ config with embeddingProvider := value }]
      else refuse ("❌ Unknown option: " ++ option ++
        ". Options: chunk_strategy, embedding_model, embedding_provider")
  | _ => refuse "❌ Usage: syspilot config set <option> <value>"

def editConfig : List String → Edit
  | [] => refuse "❌ Expected config action (telemetry, alert, set-key, set-url, set)"
  | action :: rest =>
      if action = "telemetry" then editTelemetry environment input config rest
      else if action = "alert" then editAlert config rest
      else if action = "set-key" then editSetKey lower environment input config rest
      else if action = "set-url" then editSetUrl lower config rest
      else if action = "set" then editSet lower config rest
      else refuse ("❌ Unknown config action: " ++ action)

/-- `fleet::enroll` up to its secret, and what it does with the reference. -/
def editEnroll (endpoint nodeId : String) : Edit :=
  let context := "❌ Fleet enrollment failed"
  match readSecret environment input.typed "SYSPILOT_FLEET_TOKEN" true with
  | .error reason => refuse (context ++ ": " ++ reason)
  | .ok credential =>
      match (enrollment input.now.toNat endpoint nodeId credential .none).validate parseUrl with
      | .error failure => .refuse (.failed context failure)
      | .ok () => .stores context context "fleet-token" credential fun reference =>
          match enrollWithReference parseUrl input.now.toNat config endpoint nodeId credential
            reference with
          | (.ok (), config) => .ok config
          | (.error failure, _) => .error failure

def editFleet : List String → Edit
  | ["enroll", endpoint, nodeId] => editEnroll parseUrl environment input config endpoint nodeId
  | ["status"] => .leaves
  | ["disable"] => .saves "❌ Could not disable fleet enrollment" [disable config]
  | _ => refuse "❌ Usage: syspilot fleet <enroll|status|disable>"

/-- The commands of `main` that edit the configuration; the others leave it as it is. -/
def edit : List String → Edit
  | "provider" :: rest => editProvider lower config rest
  | "model" :: rest => editModel config rest
  | "pull" :: rest => editPull lower input config rest
  | "config" :: rest => editConfig lower environment input config rest
  | "fleet" :: rest => editFleet parseUrl environment input config rest
  | _ => .leaves

end Handlers

/-! ## Processes -/

section Processes

variable {floats : FloatText} (codec : ConfigCodec floats) (parseUrl : UrlParser)
  (directory : String)

/-- A program whose error is reported after a context. -/
def reported (context : String) {α : Type} (program : Program ConfigError α) :
    Program CommandFailure α := fun process disk =>
  match program process disk with
  | (disk, .ok value) => (disk, .ok value)
  | (disk, .error failure) => (disk, .error (.failed context failure))
  | (disk, .crash) => (disk, .crash)

def saveAll (context : String) : List Config → Program CommandFailure Unit
  | [] => pure ()
  | config :: rest => do
      reported context (save codec parseUrl directory config)
      saveAll context rest

/-- True when the exit code says how the edit went. -/
def Edit.run : Edit → Program CommandFailure Bool
  | .refuse failure => Program.fail failure
  | .leaves => pure false
  | .saves context configs => do
      saveAll codec parseUrl directory context configs
      pure true
  | .stores storing saving name value next => do
      let reference ← reported storing
        (storeOwnerSecret (joinPath directory "credentials") name value).run
      match next reference with
      | .error failure => Program.fail (.failed saving failure)
      | .ok config =>
          reported saving (save codec parseUrl directory config)
          pure true

/-- A process of the command line: its arguments and what it reads. -/
structure Invocation where
  id : Nat
  crash : Option CrashPoint
  arguments : List String
  input : Input

variable (lower : String → String) (environment : Environment)

def command (arguments : List String) (input : Input) : Program CommandFailure Bool := do
  let config ← reported "❌ Could not load SysPilot configuration"
    (loadChecked codec parseUrl directory environment)
  (edit lower parseUrl environment input config arguments).run codec parseUrl directory

/-- The home directory, and of every edit that came to an end whether it exited with 0. -/
structure Home where
  files : Files
  exits : List Bool := []

def Home.record (home : Home) : CrashFiles.Disk × Ending CommandFailure Bool → Home
  | (disk, .ok edited) =>
      { files := disk.files, exits := if edited then home.exits ++ [true] else home.exits }
  | (disk, .error _) => { files := disk.files, exits := home.exits ++ [false] }
  | (disk, .crash) => { files := disk.files, exits := home.exits }

def Home.step (home : Home) (call : Invocation) : Home :=
  home.record (command codec parseUrl directory lower environment call.arguments call.input
    ⟨call.id, call.crash⟩ ⟨home.files, 0⟩)

end Processes

end SystemPilot.Commands
