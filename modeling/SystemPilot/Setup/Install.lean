import SystemPilot.Setup.Binary
import SystemPilot.Configuration.Overrides

/-!
# Preparing the files

`install` makes the directory, the logs, a default configuration and the shell hook;
`uninstall` takes the hook away.  Every call may fail and the process may end at any of
them.
-/

set_option autoImplicit false

namespace SystemPilot.Setup

open SystemPilot.Library
open SystemPilot.Library.CrashFiles (File Files)
open SystemPilot.Text
open SystemPilot.Configuration (joinPath configFile ConfigError ConfigResult Config ConfigCodec
  UrlParser ownerOnly validate Diverge joinPath_inj)
open SystemPilot.Json (FloatText)

/-! ## Atomic writes -/

/-- A call whose failure is reported. -/
def step (op : FileOp) (context : String) (next : Script (ConfigResult Unit)) :
    Script (ConfigResult Unit) := do
  if ← call op then next else pure (.error (.io context))

/-- A call whose failure is reported once the temporary file is removed. -/
def tidied (op : FileOp) (temporary context : String) (next : Script (ConfigResult Unit)) :
    Script (ConfigResult Unit) := do
  if ← call op then next
  else
    let _ ← call (.remove temporary)
    pure (.error (.io context))

def documentTemporary (directory : String) (pid : Nat) : String :=
  joinPath directory (".config-migration-" ++ Nat.repr pid ++ ".tmp")

/-- `atomic_write` on a path of a directory. -/
def atomicWriteAt (directory path : String) (bytes : List UInt8) (pid : Nat) :
    Script (ConfigResult Unit) :=
  let temporary := documentTemporary directory pid
  step (.createDir directory) "could not create configuration directory" <|
  step (.secureDir directory) "could not secure configuration directory" <|
  step (.create temporary ownerOnly) "could not create temporary migrated configuration" <|
  tidied (.fill temporary bytes) temporary "could not persist migrated configuration" <|
  tidied (.rename temporary path) temporary "could not commit migrated configuration" <|
  step (.setMode path ownerOnly) "could not secure migrated configuration" <|
  step (.openDir directory) "could not open configuration directory for sync" <|
  step (.syncDir directory) "could not sync configuration directory" <|
  pure (.ok ())

/-- `atomic_write` on the configuration of a directory. -/
def atomicWrite (directory : String) (bytes : List UInt8) (pid : Nat) :
    Script (ConfigResult Unit) :=
  atomicWriteAt directory (configFile directory) bytes pid

/-! ## Installation -/

def logNames : List String := ["session.log", "context.log", "command_start.log"]

def hookPath (directory : String) : String := joinPath directory "syspilot.sh"

def hookLines : List String := [
  "# SysPilot hook — autogenerated by syspilot install",
  "# Source this in your ~/.bashrc to enable logging:",
  "#   source ~/.syspilot/syspilot.sh",
  "",
  "if [ -n \"$SYSPILOT_HOOK_LOADED\" ]; then",
  "    return",
  "fi",
  "export SYSPILOT_HOOK_LOADED=1",
  "",
  "__syspilot_preexec() \x7b",
  "    echo \"$(date +%s) $(pwd) $1\" >> ~/.syspilot/command_start.log",
  "\x7d",
  "",
  "__syspilot_precmd() \x7b",
  "    local exit_code=$?",
  "    local last_cmd=$(history 1 | sed 's/^ *[0-9]* *//')",
  "    echo \"$(date -Iseconds) | $(pwd) | $\x7blast_cmd\x7d | $\x7bexit_code\x7d\" >> ~/.syspilot/context.log",
  "\x7d",
  "",
  "PROMPT_COMMAND=\"__syspilot_precmd; $PROMPT_COMMAND\"",
  "trap '__syspilot_preexec \"$BASH_COMMAND\"' DEBUG"]

def hookContent : String := String.join (hookLines.map (· ++ "\n"))

def createLogs (directory : String) : List String → Script Bool
  | [] => pure true
  | name :: rest => do
      if ← call (.present (joinPath directory name)) then createLogs directory rest
      else if ← call (.write (joinPath directory name) []) then createLogs directory rest
      else pure false

section Save

variable {floats : FloatText} (codec : ConfigCodec floats) (parseUrl : UrlParser)
  (directory : String) (pid : Nat)

/-- `config::save`. -/
def saveConfig (config : Config) : Script (ConfigResult Unit) :=
  match validate parseUrl config with
  | .error failure => pure (.error failure)
  | .ok () => atomicWrite directory (bytesOf (codec.encode config)) pid

def createConfig : Script Bool := do
  if ← call (.present (configFile directory)) then pure true
  else
    let saved ← saveConfig codec parseUrl directory pid {}
    pure saved.isOk

def install : Script Bool := do
  if ← call (.createDir directory) then
    if ← createLogs directory logNames then
      if ← createConfig codec parseUrl directory pid then
        call (.write (hookPath directory) (bytesOf hookContent))
      else pure false
    else pure false
  else pure false

def uninstall : Script Bool := do
  if ← call (.present (hookPath directory)) then call (.remove (hookPath directory))
  else pure true

end Save

/-! ## What an atomic write does -/

section Atomic

variable {property : Files → Prop} {ending : ConfigResult Unit → Files → Prop}
  {next : Script (ConfigResult Unit)} {files : Files} {op : FileOp} {context temporary : String}

theorem step_always (now : property files)
    (done : ∀ fault, (perform op fault files).1 = true →
      effects.Always property ending next (perform op fault files).2)
    (failed : ∀ fault, (perform op fault files).1 = false →
      property (perform op fault files).2 ∧ ending (.error (.io context)) (perform op fault files).2) :
    effects.Always property ending (step op context next) files := by
  refine ⟨now, fun fault => ?_⟩
  show effects.Always property ending
    (if (perform op fault files).1 = true then next else pure (.error (.io context)))
    (perform op fault files).2
  cases succeeds : (perform op fault files).1 with
  | true => exact done fault succeeds
  | false => exact failed fault succeeds

theorem quiet_always (quiet : op.touched = []) (now : property files)
    (done : effects.Always property ending next files) (failed : ending (.error (.io context)) files) :
    effects.Always property ending (step op context next) files := by
  refine step_always now (fun fault _ => ?_) fun fault _ => ?_
  · rw [perform_quiet quiet]
    exact done
  · rw [perform_quiet quiet]
    exact ⟨now, failed⟩

theorem tidied_always (now : property files)
    (done : ∀ fault, (perform op fault files).1 = true →
      effects.Always property ending next (perform op fault files).2)
    (failed : ∀ fault, (perform op fault files).1 = false →
      property (perform op fault files).2 ∧ ∀ removal,
        property (perform (.remove temporary) removal (perform op fault files).2).2 ∧
        ending (.error (.io context))
          (perform (.remove temporary) removal (perform op fault files).2).2) :
    effects.Always property ending (tidied op temporary context next) files := by
  refine ⟨now, fun fault => ?_⟩
  show effects.Always property ending
    (if (perform op fault files).1 = true then next
      else call (.remove temporary) >>= fun _ => pure (.error (.io context)))
    (perform op fault files).2
  cases succeeds : (perform op fault files).1 with
  | true => exact done fault succeeds
  | false => exact failed fault succeeds

end Atomic

/-- What an atomic write leaves while it goes on: every other file as it was, and the
document from before or the whole new one. -/
structure Replacing (directory target : String) (pid : Nat) (bytes : List UInt8)
    (start files : Files) : Prop where
  others : ∀ path, path ≠ target → path ≠ documentTemporary directory pid →
    files[path]? = start[path]?
  document : files[target]? = start[target]? ∨ files[target]? = some ⟨bytes, ownerOnly⟩

section Replace

variable {directory target : String} {pid : Nat} {bytes : List UInt8} {start files : Files}

theorem Replacing.refl (directory target : String) (pid : Nat) (bytes : List UInt8)
    (start : Files) : Replacing directory target pid bytes start start :=
  ⟨fun _ _ _ => rfl, .inl rfl⟩

/-- A call on the temporary file only. -/
theorem Replacing.own (replacing : Replacing directory target pid bytes start files)
    (apart : documentTemporary directory pid ≠ target) (op : FileOp)
    (touches : ∀ path ∈ op.touched, path = documentTemporary directory pid) (fault : Fault) :
    Replacing directory target pid bytes start (perform op fault files).2 := by
  have same : ∀ path, path ≠ documentTemporary directory pid →
      (perform op fault files).2[path]? = files[path]? :=
    fun path elsewhere => perform_other op fault files fun touched => elsewhere (touches path touched)
  refine ⟨fun path document temporary => ?_, ?_⟩
  · exact (same path temporary).trans (replacing.others path document temporary)
  · rw [same _ apart.symm]
    exact replacing.document

/-- The document is there and the temporary file is not. -/
structure Replaced (directory target : String) (pid : Nat) (bytes : List UInt8)
    (files : Files) : Prop where
  document : files[target]? = some ⟨bytes, ownerOnly⟩
  tidy : files[documentTemporary directory pid]? = none

/-- How a write ends. -/
def Ended (directory target : String) (pid : Nat) (bytes : List UInt8) (start : Files)
    (result : ConfigResult Unit) (files : Files) : Prop :=
  Replacing directory target pid bytes start files ∧
    (result = .ok () → Replaced directory target pid bytes files)

theorem Replacing.failed (replacing : Replacing directory target pid bytes start files)
    (failure : ConfigError) : Ended directory target pid bytes start (.error failure) files :=
  ⟨replacing, fun impossible => by cases impossible⟩

theorem Replaced.replacing (replaced : Replaced directory target pid bytes files)
    (others : ∀ path, path ≠ target → path ≠ documentTemporary directory pid →
      files[path]? = start[path]?) : Replacing directory target pid bytes start files :=
  ⟨others, .inr replaced.document⟩

/-- The calls after the rename. -/
theorem placed_always (replaced : Replaced directory target pid bytes files)
    (others : ∀ path, path ≠ target → path ≠ documentTemporary directory pid →
      files[path]? = start[path]?) :
    effects.Always (Replacing directory target pid bytes start)
      (Ended directory target pid bytes start)
      (step (.setMode target ownerOnly) "could not secure migrated configuration" <|
        step (.openDir directory) "could not open configuration directory for sync" <|
        step (.syncDir directory) "could not sync configuration directory" <| pure (.ok ())) files := by
  have whole := replaced.replacing others
  refine step_always whole (fun fault secured => ?_) fun fault refused => ?_
  · -- the mode is the one the file was created with
    have same : (perform (.setMode target ownerOnly) fault files).2 = files := by
      rw [perform_setMode replaced.document, if_pos secured]
      refine Std.ExtTreeMap.ext_getElem? fun path => ?_
      by_cases own : path = target
      · rw [own, replaced.document]
        exact Std.ExtTreeMap.getElem?_insert_self
      · exact SortedMap.getElem?_insert_of_ne _ _ (Ne.symm own)
    rw [same]
    refine quiet_always rfl whole ?_ (whole.failed _)
    exact quiet_always rfl whole ⟨whole, whole, fun _ => replaced⟩ (whole.failed _)
  · rw [perform_setMode replaced.document, refused]
    exact ⟨whole, whole.failed _⟩

theorem atomicWriteAt_always (directory target : String) (bytes : List UInt8) (pid : Nat)
    (apart : documentTemporary directory pid ≠ target) (start : Files) :
    effects.Always (Replacing directory target pid bytes start)
      (Ended directory target pid bytes start) (atomicWriteAt directory target bytes pid) start := by
  have begun := Replacing.refl directory target pid bytes start
  refine quiet_always rfl begun (quiet_always rfl begun ?_ (begun.failed _)) (begun.failed _)
  refine step_always begun (fun fault created => ?_) fun fault _ => ?_
  · -- from here on the temporary file is of this process
    have opened := begun.own apart (.create (documentTemporary directory pid) ownerOnly)
      (by simp [FileOp.touched]) fault
    rw [perform_create, if_pos created] at opened ⊢
    refine tidied_always opened (fun fault filled => ?_) fun fault _ => ?_
    · have written := opened.own apart (.fill (documentTemporary directory pid) bytes)
        (by simp [FileOp.touched]) fault
      rw [perform_fill Std.ExtTreeMap.getElem?_insert_self filled] at written ⊢
      refine tidied_always written (fun fault renamed => ?_) fun fault refused => ?_
      · rw [perform_rename Std.ExtTreeMap.getElem?_insert_self, if_pos renamed]
        refine placed_always ⟨Std.ExtTreeMap.getElem?_insert_self, ?_⟩ ?_
        · rw [SortedMap.getElem?_insert_of_ne _ _ apart.symm]
          exact Std.ExtTreeMap.getElem?_erase_self
        · intro path document temporary
          rw [SortedMap.getElem?_insert_of_ne _ _ document.symm,
            SortedMap.getElem?_erase_of_ne _ temporary.symm]
          exact written.others path document temporary
      · rw [perform_rename Std.ExtTreeMap.getElem?_insert_self, refused]
        refine ⟨written, fun removal => ?_⟩
        have tidy := written.own apart (.remove (documentTemporary directory pid))
          (by simp [FileOp.touched]) removal
        exact ⟨tidy, tidy.failed _⟩
    · have torn := opened.own apart (.fill (documentTemporary directory pid) bytes)
        (by simp [FileOp.touched]) fault
      refine ⟨torn, fun removal => ?_⟩
      have tidy := torn.own apart (.remove (documentTemporary directory pid))
        (by simp [FileOp.touched]) removal
      exact ⟨tidy, tidy.failed _⟩
  · have refused := begun.own apart (.create (documentTemporary directory pid) ownerOnly)
      (by simp [FileOp.touched]) fault
    exact ⟨refused, refused.failed _⟩

theorem documentTemporary_ne (directory : String) (pid : Nat) :
    documentTemporary directory pid ≠ configFile directory := by
  have diverge : Diverge ".config-migration-" "config.json" := by decide
  intro same
  apply diverge.joined_ne directory (Nat.repr pid ++ ".tmp") ""
  rw [String.append_empty, ← String.append_assoc]
  exact same

theorem atomicWrite_always (directory : String) (bytes : List UInt8) (pid : Nat) (start : Files) :
    effects.Always (Replacing directory (configFile directory) pid bytes start)
      (Ended directory (configFile directory) pid bytes start) (atomicWrite directory bytes pid)
      start :=
  atomicWriteAt_always directory _ bytes pid (documentTemporary_ne directory pid) start

end Replace

/-! ## What an installation does -/

/-- The files an installation may write. -/
inductive Own (directory : String) : String → Prop where
  | log (name : String) (named : name ∈ logNames) : Own directory (joinPath directory name)
  | document : Own directory (configFile directory)
  | hook : Own directory (hookPath directory)
  | temporary (pid : Nat) : Own directory (documentTemporary directory pid)

/-- A file that is there stays as it is, and one that is not may come with this content. -/
def Appears (start files : Files) (path : String) (file : File) : Prop :=
  files[path]? = start[path]? ∨ start[path]? = none ∧ files[path]? = some file

/-- What installations leave: the logs and the configuration of a user are never changed. -/
structure Kept (directory : String) (document : List UInt8) (start files : Files) : Prop where
  others : ∀ path, ¬ Own directory path → files[path]? = start[path]?
  logs : ∀ name ∈ logNames, Appears start files (joinPath directory name) ⟨[], defaultMode⟩
  document : Appears start files (configFile directory) ⟨document, ownerOnly⟩

/-- A complete installation. -/
structure Ready (directory : String) (files : Files) : Prop where
  logs : ∀ name ∈ logNames, joinPath directory name ∈ files
  document : configFile directory ∈ files
  hook : ∃ mode, files[hookPath directory]? = some ⟨bytesOf hookContent, mode⟩

section Keep

variable {directory : String} {document : List UInt8} {start middle files : Files} {path : String}
  {file : File}

theorem Appears.trans (first : Appears start middle path file)
    (second : Appears middle files path file) : Appears start files path file := by
  rcases second with same | ⟨absent, present⟩
  · rcases first with before | ⟨fresh, present⟩
    · exact .inl (same.trans before)
    · exact .inr ⟨fresh, same.trans present⟩
  · rcases first with before | ⟨fresh, _⟩
    · exact .inr ⟨before ▸ absent, present⟩
    · exact .inr ⟨fresh, present⟩

theorem Appears.mem (appears : Appears start files path file) (there : path ∈ start) :
    path ∈ files := by
  rcases appears with same | ⟨absent, _⟩
  · rw [Std.ExtTreeMap.mem_iff_isSome_getElem?, same]
    exact Std.ExtTreeMap.mem_iff_isSome_getElem?.mp there
  · rw [Std.ExtTreeMap.mem_iff_isSome_getElem?, absent] at there
    cases there

theorem Kept.refl (directory : String) (document : List UInt8) (start : Files) :
    Kept directory document start start :=
  ⟨fun _ _ => rfl, fun _ _ => .inl rfl, .inl rfl⟩

theorem Kept.trans (first : Kept directory document start middle)
    (second : Kept directory document middle files) : Kept directory document start files where
  others path other := (second.others path other).trans (first.others path other)
  logs name named := (first.logs name named).trans (second.logs name named)
  document := first.document.trans second.document

/-- The names of an installation; no two of its files are the same. -/
theorem log_ne_document {name : String} (named : name ∈ logNames) :
    joinPath directory name ≠ configFile directory := by
  intro same
  rw [joinPath_inj same] at named
  revert named
  decide

theorem log_ne_hook {name : String} (named : name ∈ logNames) :
    joinPath directory name ≠ hookPath directory := by
  intro same
  rw [joinPath_inj same] at named
  revert named
  decide

theorem hook_ne_document : hookPath directory ≠ configFile directory := by
  intro same
  have names := joinPath_inj same
  revert names
  decide

theorem log_ne_temporary {name : String} (named : name ∈ logNames) (pid : Nat) :
    joinPath directory name ≠ documentTemporary directory pid := by
  have diverge : Diverge ".config-migration-" name := by
    revert name
    decide
  intro same
  apply diverge.joined_ne directory (Nat.repr pid ++ ".tmp") ""
  rw [String.append_empty, ← String.append_assoc]
  exact same.symm

theorem hook_ne_temporary (pid : Nat) : hookPath directory ≠ documentTemporary directory pid := by
  have diverge : Diverge ".config-migration-" "syspilot.sh" := by decide
  intro same
  apply diverge.joined_ne directory (Nat.repr pid ++ ".tmp") ""
  rw [String.append_empty, ← String.append_assoc]
  exact same.symm

/-- A change of one log. -/
theorem kept_log {name : String} (named : name ∈ logNames)
    (others : ∀ path, path ≠ joinPath directory name → files[path]? = start[path]?)
    (appears : Appears start files (joinPath directory name) ⟨[], defaultMode⟩) :
    Kept directory document start files where
  others path other := others path fun same => other (same ▸ .log name named)
  logs other member := by
    by_cases same : other = name
    · rw [same]
      exact appears
    · exact .inl (others _ fun joined => same (joinPath_inj joined))
  document := .inl (others _ (log_ne_document named).symm)

/-- A change of the hook. -/
theorem kept_hook (others : ∀ path, path ≠ hookPath directory → files[path]? = start[path]?) :
    Kept directory document start files where
  others path other := others path fun same => other (same ▸ .hook)
  logs _ named := .inl (others _ (log_ne_hook named))
  document := .inl (others _ hook_ne_document.symm)

/-- A write of the document where there was none. -/
theorem kept_document {pid : Nat} (absent : start[configFile directory]? = none)
    (replacing : Replacing directory (configFile directory) pid document start files) :
    Kept directory document start files where
  others path other := replacing.others path (fun same => other (same ▸ .document))
    fun same => other (same ▸ .temporary pid)
  logs _ named := .inl (replacing.others _ (log_ne_document named) (log_ne_temporary named pid))
  document := replacing.document.imp_right fun written => ⟨absent, written⟩

theorem Kept.log_mem (kept : Kept directory document start files) {name : String}
    (named : name ∈ logNames) (there : joinPath directory name ∈ start) :
    joinPath directory name ∈ files :=
  (kept.logs name named).mem there

end Keep

section Runs

variable {directory : String} {document : List UInt8} {files : Files}

/-- An empty file is written whole or not at all. -/
theorem perform_write_empty {path : String} (absent : files[path]? = none) (fault : Fault) :
    Appears files (perform (.write path []) fault files).2 path ⟨[], defaultMode⟩ ∧
      ((perform (.write path []) fault files).1 = true →
        path ∈ (perform (.write path []) fault files).2) := by
  simp only [perform, absent, Option.map_none, Option.getD_none]
  split
  · refine ⟨?_, fun impossible => by cases impossible⟩
    cases fault.written with
    | none => exact .inl rfl
    | some count =>
        rw [torn, List.take_nil]
        exact .inr ⟨absent, Std.ExtTreeMap.getElem?_insert_self⟩
  · exact ⟨.inr ⟨absent, Std.ExtTreeMap.getElem?_insert_self⟩,
      fun _ => Std.ExtTreeMap.mem_insert_self⟩

theorem createLogs_always (names : List String) (named : names ⊆ logNames) (files : Files) :
    effects.Always (Kept directory document files)
      (fun done later => Kept directory document files later ∧
        (done = true → ∀ name ∈ names, joinPath directory name ∈ later))
      (createLogs directory names) files := by
  have begun := Kept.refl directory document files
  induction names generalizing files with
  | nil => exact ⟨begun, begun, fun _ _ impossible => by cases impossible⟩
  | cons name rest inductionHypothesis =>
      have first : name ∈ logNames := named (List.mem_cons_self ..)
      have others : rest ⊆ logNames := fun _ member => named (List.mem_cons_of_mem _ member)
      refine ⟨begun, fun _ => ?_⟩
      show effects.Always _ _
        (if decide (joinPath directory name ∈ files) = true then createLogs directory rest
          else call (.write (joinPath directory name) []) >>= fun written =>
            if written = true then createLogs directory rest else pure false) files
      by_cases there : joinPath directory name ∈ files
      · rw [if_pos (decide_eq_true there)]
        refine (inductionHypothesis others files begun).mono (fun _ kept => kept) ?_
        intro done later held
        obtain ⟨kept, made⟩ := held
        refine ⟨kept, fun succeeded => ?_⟩
        intro other member
        rcases List.mem_cons.mp member with rfl | member
        · exact kept.log_mem first there
        · exact made succeeded other member
      · rw [if_neg (by simpa using there)]
        refine ⟨begun, fun fault => ?_⟩
        have absent : files[joinPath directory name]? = none :=
          Std.ExtTreeMap.getElem?_eq_none there
        obtain ⟨appears, made⟩ := perform_write_empty absent fault
        have step : Kept directory document files
            (perform (.write (joinPath directory name) []) fault files).2 :=
          kept_log first (fun path elsewhere =>
            perform_other _ fault files (by simpa [FileOp.touched] using elsewhere)) appears
        show effects.Always _ _
          (if (perform (.write (joinPath directory name) []) fault files).1 = true then
            createLogs directory rest else pure false) _
        cases written : (perform (.write (joinPath directory name) []) fault files).1 with
        | false => exact ⟨step, step, fun impossible => by cases impossible⟩
        | true =>
            refine (inductionHypothesis others _ (Kept.refl ..)).mono
              (fun _ kept => step.trans kept) ?_
            intro done later held
            obtain ⟨kept, rest⟩ := held
            refine ⟨step.trans kept, fun succeeded => ?_⟩
            intro other member
            rcases List.mem_cons.mp member with rfl | member
            · exact kept.log_mem first (made written)
            · exact rest succeeded other member

section Commands

variable {floats : FloatText} {codec : ConfigCodec floats} {parseUrl : UrlParser} {pid : Nat}

/-- The document of the default configuration. -/
def defaultDocument (codec : ConfigCodec floats) : List UInt8 := bytesOf (codec.encode {})

theorem saveConfig_always {config : Config} :
    effects.Always
      (Replacing directory (configFile directory) pid (bytesOf (codec.encode config)) files)
      (Ended directory (configFile directory) pid (bytesOf (codec.encode config)) files)
      (saveConfig codec parseUrl directory pid config) files := by
  unfold saveConfig
  cases validate parseUrl config with
  | error failure => exact ⟨.refl .., (Replacing.refl ..).failed failure⟩
  | ok done => exact atomicWrite_always ..

theorem createConfig_always :
    effects.Always (Kept directory (defaultDocument codec) files)
      (fun done later => Kept directory (defaultDocument codec) files later ∧
        (done = true → configFile directory ∈ later))
      (createConfig codec parseUrl directory pid) files := by
  refine ⟨.refl .., fun _ => ?_⟩
  show effects.Always _ _
    (if decide (configFile directory ∈ files) = true then pure true
      else saveConfig codec parseUrl directory pid {} >>= fun saved => pure saved.isOk) files
  by_cases there : configFile directory ∈ files
  · rw [if_pos (decide_eq_true there)]
    exact ⟨.refl .., .refl .., fun _ => there⟩
  · rw [if_neg (by simpa using there)]
    have absent : files[configFile directory]? = none := Std.ExtTreeMap.getElem?_eq_none there
    have saving := (@saveConfig_always directory files floats codec parseUrl pid {}).mono
      (fun _ replacing => kept_document absent replacing) fun _ _ ended => ended
    refine Effects.always_bind saving ?_
    intro saved later ended
    obtain ⟨replacing, done⟩ : Ended directory (configFile directory) pid (defaultDocument codec)
        files saved later := ended
    have kept := kept_document absent replacing
    refine ⟨kept, kept, fun succeeded => ?_⟩
    cases saved with
    | error failure => cases succeeded
    | ok value =>
        have there := (done rfl).document
        exact Std.ExtTreeMap.mem_iff_isSome_getElem?.mpr (Option.isSome_of_eq_some there)

/-- What an installation does is kept, and one that succeeds is complete. -/
theorem install_always :
    effects.Always (Kept directory (defaultDocument codec) files)
      (fun done later => Kept directory (defaultDocument codec) files later ∧
        (done = true → Ready directory later))
      (install codec parseUrl directory pid) files := by
  have begun := Kept.refl directory (defaultDocument codec) files
  refine ⟨begun, fun fault => ?_⟩
  show effects.Always _ _
    (if (!fault.fails) = true then createLogs directory logNames >>= fun logged =>
        if logged = true then createConfig codec parseUrl directory pid >>= fun configured =>
          if configured = true then call (.write (hookPath directory) (bytesOf hookContent))
          else pure false
        else pure false
      else pure false) files
  have stopped : ∀ {later}, Kept directory (defaultDocument codec) files later →
      effects.Always (Kept directory (defaultDocument codec) files)
        (fun done later => Kept directory (defaultDocument codec) files later ∧
          (done = true → Ready directory later)) (pure false) later :=
    fun kept => ⟨kept, kept, fun impossible => by cases impossible⟩
  cases fault.fails with
  | true => exact stopped begun
  | false =>
      refine Effects.always_bind
        (createLogs_always logNames (List.Subset.refl _) files) ?_
      intro logged afterLogs held
      obtain ⟨keptLogs, logs⟩ := held
      cases logged with
      | false => exact stopped keptLogs
      | true =>
          refine Effects.always_bind (createConfig_always.mono
            (fun _ kept => keptLogs.trans kept) fun _ _ ended => ended) ?_
          intro configured afterConfig held
          obtain ⟨keptConfig, configs⟩ := held
          have kept := keptLogs.trans keptConfig
          cases configured with
          | false => exact stopped kept
          | true =>
              refine ⟨kept, fun fault => ?_⟩
              have hooked : Kept directory (defaultDocument codec) afterConfig
                  (perform (.write (hookPath directory) (bytesOf hookContent)) fault afterConfig).2 :=
                kept_hook fun path elsewhere =>
                  perform_other _ fault afterConfig (by simpa [FileOp.touched] using elsewhere)
              refine ⟨kept.trans hooked, kept.trans hooked, fun written => ⟨?_, ?_, ?_⟩⟩
              · exact fun name named =>
                  hooked.log_mem named (keptConfig.log_mem named (logs rfl name named))
              · exact hooked.document.mem (configs rfl)
              · exact perform_write written

theorem uninstall_always :
    effects.Always (Kept directory document files)
      (fun done later => Kept directory document files later ∧
        (done = true → hookPath directory ∉ later)) (uninstall directory) files := by
  refine ⟨.refl .., fun _ => ?_⟩
  show effects.Always _ _
    (if decide (hookPath directory ∈ files) = true then call (.remove (hookPath directory))
      else pure true) files
  by_cases there : hookPath directory ∈ files
  · rw [if_pos (decide_eq_true there)]
    refine ⟨.refl .., fun fault => ?_⟩
    have kept : Kept directory document files
        (perform (.remove (hookPath directory)) fault files).2 :=
      kept_hook fun path elsewhere =>
        perform_other _ fault files (by simpa [FileOp.touched] using elsewhere)
    refine ⟨kept, kept, fun removed => ?_⟩
    show hookPath directory ∉ (perform (.remove (hookPath directory)) fault files).2
    have gone : (perform (.remove (hookPath directory)) fault files).1 = true := removed
    rw [perform_remove, if_pos gone]
    intro still
    exact (Std.ExtTreeMap.mem_erase.mp still).1 Std.compare_self
  · rw [if_neg (by simpa using there)]
    exact ⟨.refl .., .refl .., fun _ => there⟩

/-! ## Any run of installations -/

/-- `install` or `uninstall` of a process that ends after as many calls as there are
faults, or at its end. -/
structure Maintenance where
  installs : Bool
  pid : Nat
  faults : List Fault

variable (codec parseUrl directory) in
def Maintenance.step (files : Files) (maintenance : Maintenance) : Files :=
  (effects.during maintenance.faults
    (if maintenance.installs then install codec parseUrl directory maintenance.pid
      else uninstall directory) files).2

end Commands

end Runs

end SystemPilot.Setup
