import SystemPilot.Configuration.Standing
import SystemPilot.Setup.Install
import SystemPilot.Setup.Interview

/-!
# The setup transaction

`wizard` from the reading of the configuration to its end: a reviewed configuration is
applied in three steps, and taken back when the last one fails.  Every call may fail and
the process may end at any of them.
-/

set_option autoImplicit false

namespace SystemPilot.Setup

open SystemPilot.Library
open SystemPilot.Library.CrashFiles (File Files)
open SystemPilot.Text
open SystemPilot.Json (FloatText Value)
open SystemPilot.Configuration
open SystemPilot.Commands (CommandFailure)

/-! ## The functions -/

def notPrepared : CommandFailure :=
  .refused "installation files could not be prepared; configuration was not applied"

def binaryFailed : CommandFailure := .refused
  "configuration was saved, but the user binary installation failed; run `syspilot install --binary`"

def rollBack (directory : String) (pid : Nat) : Option (List UInt8) → Script (ConfigResult Unit)
  | some bytes => atomicWrite directory bytes pid
  | none => do
      if ← call (.remove (configFile directory)) then pure (.ok ())
      else pure (.error (.io "remove newly-created configuration"))

/-- What a setup process finds: its directories, its running binary and the host. -/
structure Host where
  directory : String
  home : Option String
  source : Option String
  environment : Environment
  pid : Nat
  now : UInt64
  payload : Except String Value

section Wizard

variable {floats : FloatText} (codec : ConfigCodec floats) (parseUrl : UrlParser) (host : Host)

def apply (original : Option (List UInt8)) (config : Config) : Script (Except CommandFailure Unit) := do
  if ← install codec parseUrl host.directory host.pid then
    match ← saveConfig codec parseUrl host.directory host.pid config with
    | .error failure => pure (.error (.failed "could not atomically save configuration" failure))
    | .ok () =>
        if ← installUserBinary host.home host.source false host.pid then pure (.ok ())
        else
          match ← rollBack host.directory host.pid original with
          | .error failure => pure (.error (.failed
              "binary installation failed and configuration rollback also failed" failure))
          | .ok () => pure (.error binaryFailed)
  else pure (.error notPrepared)

/-- `wizard` from the interview on. -/
def wizard (original : Option (List UInt8)) (config : Config) (lines : List Line) :
    Script (Except CommandFailure Unit) :=
  match review parseUrl host.environment host.now host.payload config lines with
  | .error failure => pure (.error failure)
  | .ok (none, _) => pure (.ok ())
  | .ok (some config, _) => apply codec parseUrl host original config

/-- The load of a setup, which may migrate what it finds. -/
def loading (files : Files) : CrashFiles.Disk × CrashFiles.Ending ConfigError Config :=
  loadChecked codec parseUrl host.directory host.environment ⟨host.pid, none⟩ ⟨files, 0⟩

/-- A setup with an answer when it comes to an end, and the files it leaves. -/
def setup (files : Files) (lines : List Line) (faults : List Fault) :
    Option (Except CommandFailure Unit) × Files :=
  match loading codec parseUrl host files with
  | (disk, .ok config) =>
      effects.during faults
        (wizard codec parseUrl host (files[configFile host.directory]?.map File.content) config lines)
        disk.files
  | (disk, .error failure) =>
      (some (.error (.failed "could not load configuration" failure)), disk.files)
  | (disk, .crash) => (none, disk.files)

end Wizard

/-! ## The binary of a setup -/

section Binary

variable {home : String} {source : Option String} {pid : Nat} {start files : Files}

/-- What installing a binary leaves that is not to replace one. -/
structure Placing (home : String) (source : Option String) (pid : Nat) (start files : Files) :
    Prop where
  others : ∀ path, path ≠ binaryPath home → path ≠ binaryTemporary home pid →
    files[path]? = start[path]?
  binary : files[binaryPath home]? = start[binaryPath home]? ∨
    start[binaryPath home]? = none ∧ ∃ path file, source = some path ∧ start[path]? = some file ∧
      files[binaryPath home]? = some ⟨file.content, executable⟩

theorem Placing.refl (home : String) (source : Option String) (pid : Nat) (start : Files) :
    Placing home source pid start start :=
  ⟨fun _ _ _ => rfl, .inl rfl⟩

/-- The calls of a process that replaces the binary. -/
theorem replaceBinary_keeps (home path : String) (pid : Nat) :
    (replaceBinary home path pid).Keeps
      (fun op => ∀ path ∈ op.touched, path = binaryPath home ∨ path = binaryTemporary home pid)
      (fun _ _ => True) (fun _ => True) := by
  have put : (putBinary home path pid).Keeps
      (fun op => ∀ path ∈ op.touched, path = binaryPath home ∨ path = binaryTemporary home pid)
      (fun _ _ => True) (fun _ => True) := by
    refine ⟨by simp [FileOp.touched], fun copied _ => ?_⟩
    cases copied with
    | false => trivial
    | true =>
        refine ⟨by simp [FileOp.touched], fun secured _ => ?_⟩
        cases secured with
        | false => trivial
        | true => exact ⟨by simp [FileOp.touched], fun _ _ => trivial⟩
  refine ⟨by simp [FileOp.touched], fun created _ => ?_⟩
  cases created with
  | false => trivial
  | true =>
      show Program.Keeps _ _ _ ((putBinary home path pid).bind _)
      refine Program.keeps_bind put fun replaced _ => ?_
      cases replaced with
      | true => trivial
      | false => exact ⟨by simp [FileOp.touched], fun _ _ => trivial⟩

theorem Good.placing {path : String} (good : Good home (fun _ => path) start files)
    (absent : start[binaryPath home]? = none)
    (others : ∀ path, path ≠ binaryPath home → path ≠ binaryTemporary home pid →
      files[path]? = start[path]?) : Placing home (some path) pid start files := by
  refine ⟨others, good.binary.imp_right fun placed => ?_⟩
  obtain ⟨content, ⟨_, file, found, same⟩, there⟩ := placed
  exact ⟨absent, path, file, rfl, found, same ▸ there⟩

theorem replaceBinary_always {path : String} (apart : path ≠ binaryTemporary home pid)
    (absent : start[binaryPath home]? = none) :
    effects.Always (Placing home (some path) pid start)
      (fun done later => Placing home (some path) pid start later ∧
        (done = true → binaryPath home ∈ later)) (replaceBinary home path pid) start := by
  have initial : Good home (fun _ => path) start start := ⟨.inl rfl, fun _ _ => rfl⟩
  have secure := (replaceBinary_secure (fun _ => apart) initial).always (relies_refl pid)
    (fun _ _ guaranteed => guaranteed.2.1) initial
  have step : ∀ (op : FileOp) (fault : Fault) (files : Files),
      (∀ path ∈ op.touched, path = binaryPath home ∨ path = binaryTemporary home pid) →
      (∀ path, path ≠ binaryPath home → path ≠ binaryTemporary home pid →
        files[path]? = start[path]?) →
      ∀ path, path ≠ binaryPath home → path ≠ binaryTemporary home pid →
        (effects.perform op fault files).2[path]? = start[path]? := by
    intro op fault files allowed same path document temporary
    refine Eq.trans ?_ (same path document temporary)
    exact perform_other op fault files fun touched => (allowed path touched).elim document temporary
  have framed := Effects.always_of_keeps (replaceBinary_keeps home path pid)
    (fun _ _ => trivial) step (fun _ _ _ => rfl)
  refine (secure.and framed).held.mono (fun later held => held.1.placing absent held.2) ?_
  intro done later held
  obtain ⟨⟨good, others⟩, installs, _⟩ := held
  exact ⟨good.placing absent others, fun succeeded => (installs succeeded).present⟩

theorem installUserBinary_always (apart : ∀ path, source = some path →
      path ≠ binaryTemporary home pid) :
    effects.Always (Placing home source pid start)
      (fun done later => Placing home source pid start later ∧
        (done = true → binaryPath home ∈ later))
      (installUserBinary (some home) source false pid) start := by
  have begun := Placing.refl home source pid start
  refine ⟨begun, fun _ => ?_⟩
  show effects.Always _ _
    (if (decide (binaryPath home ∈ start) && !false) = true then pure true
      else installFrom home source pid) start
  by_cases there : binaryPath home ∈ start
  · rw [if_pos (by simpa using there)]
    exact ⟨begun, begun, fun _ => there⟩
  · rw [if_neg (by simpa using there)]
    cases source with
    | none => exact ⟨begun, begun, fun impossible => by cases impossible⟩
    | some path =>
        exact replaceBinary_always (apart path rfl) (Std.ExtTreeMap.getElem?_eq_none there)

end Binary

/-! ## Paths -/

theorem fileName_documentTemporary (directory : String) (pid : Nat) :
    fileName (documentTemporary directory pid) =
      (".config-migration-" ++ Nat.repr pid ++ ".tmp").toList := by
  refine fileName_joinPath _ ?_
  rw [String.toList_append, String.toList_append, List.mem_append, List.mem_append, not_or, not_or]
  exact ⟨⟨by decide, slashless_repr pid⟩, by decide⟩

/-- The names of the files an installation may write. -/
theorem Own.named {directory path : String} (own : Own directory path) :
    (∃ name ∈ ["session.log", "context.log", "command_start.log", "config.json", "syspilot.sh"],
      fileName path = name.toList) ∨
    ∃ pid, fileName path = (".config-migration-" ++ Nat.repr pid ++ ".tmp").toList := by
  cases own with
  | log name named =>
      have plain : '/' ∉ name.toList := by
        revert name
        decide
      refine .inl ⟨name, ?_, fileName_joinPath _ plain⟩
      revert name
      decide
  | document => exact .inl ⟨_, by decide, fileName_joinPath _ (by decide)⟩
  | hook => exact .inl ⟨_, by decide, fileName_joinPath _ (by decide)⟩
  | temporary pid => exact .inr ⟨pid, fileName_documentTemporary directory pid⟩

/-- A binary is none of the files of an installation. -/
theorem not_own_of_name {directory path : String} (name : fileName path = "syspilot".toList) :
    ¬ Own directory path := by
  intro own
  rcases own.named with ⟨other, member, same⟩ | ⟨pid, same⟩
  · rw [name] at same
    obtain rfl := String.toList_inj.mp same
    revert member
    decide
  · rw [name, String.toList_append, String.toList_append] at same
    cases same

theorem not_own_binaryPath (directory home : String) : ¬ Own directory (binaryPath home) :=
  not_own_of_name (fileName_binaryPath home)

theorem not_own_binaryTemporary (directory home : String) (pid : Nat) :
    ¬ Own directory (binaryTemporary home pid) := by
  intro own
  have name := fileName_binaryTemporary home pid
  rcases own.named with ⟨other, member, same⟩ | ⟨_, same⟩
  · rw [name, String.toList_append] at same
    simp only [List.mem_cons, List.not_mem_nil, or_false] at member
    rcases member with rfl | rfl | rfl | rfl | rfl <;> cases same
  · rw [name, String.toList_append, String.toList_append, String.toList_append] at same
    cases same

/-! ## While a configuration is applied -/

section Apply

variable {floats : FloatText} {codec : ConfigCodec floats} {parseUrl : UrlParser} {host : Host}
  {original : Option (List UInt8)} {config : Config} {start files later : Files}

/-- The documents that can stand while a configuration is applied: the one from before, the
default one where there was none, the reviewed one, and the one it is taken back to. -/
inductive Version (codec : ConfigCodec floats) (original : Option (List UInt8)) (config : Config)
    (start : Option File) : Option File → Prop where
  | before : Version codec original config start start
  | standard (absent : start = none) :
      Version codec original config start (some ⟨defaultDocument codec, ownerOnly⟩)
  | reviewed : Version codec original config start (some ⟨bytesOf (codec.encode config), ownerOnly⟩)
  | restored : Version codec original config start (original.map fun bytes => ⟨bytes, ownerOnly⟩)

/-- A file of the user directory or of its installation. -/
def Elsewhere (host : Host) (path : String) : Prop :=
  ¬ Own host.directory path ∧ ∀ home, host.home = some home →
    path ≠ binaryPath home ∧ path ≠ binaryTemporary home host.pid

/-- What holds at every moment. -/
structure Applying (codec : ConfigCodec floats) (host : Host) (original : Option (List UInt8))
    (config : Config) (start files : Files) : Prop where
  others : ∀ path, Elsewhere host path → files[path]? = start[path]?
  logs : ∀ name ∈ logNames,
    Appears start files (joinPath host.directory name) ⟨[], defaultMode⟩
  document : Version codec original config start[configFile host.directory]?
    files[configFile host.directory]?
  binary : ∀ home, host.home = some home → files[binaryPath home]? = start[binaryPath home]? ∨
    start[binaryPath home]? = none ∧ ∃ path file, host.source = some path ∧
      start[path]? = some file ∧ files[binaryPath home]? = some ⟨file.content, executable⟩

/-- The running binary is none of the files a setup writes. -/
def Apart (host : Host) : Prop :=
  ∀ path, host.source = some path → ¬ Own host.directory path ∧
    ∀ home, host.home = some home → path ≠ binaryTemporary home host.pid

theorem Applying.of_kept (kept : Kept host.directory (defaultDocument codec) start files) :
    Applying codec host original config start files where
  others path elsewhere := kept.others path elsewhere.1
  logs := kept.logs
  document := by
    rcases kept.document with same | ⟨absent, standard⟩
    · rw [same]
      exact .before
    · rw [standard]
      exact .standard absent
  binary home _ := .inl (kept.others _ (not_own_binaryPath host.directory home))

/-- A write of a document. -/
theorem Applying.replaced {bytes : List UInt8}
    (applying : Applying codec host original config start files)
    (version : Version codec original config start[configFile host.directory]?
      (some ⟨bytes, ownerOnly⟩))
    (replacing : Replacing host.directory (configFile host.directory) host.pid bytes files later) :
    Applying codec host original config start later := by
  have same : ∀ path, ¬ Own host.directory path → later[path]? = files[path]? := by
    intro path other
    refine replacing.others path ?_ ?_
    · rintro rfl
      exact other .document
    · rintro rfl
      exact other (.temporary host.pid)
  refine ⟨?_, ?_, ?_, ?_⟩
  · exact fun path elsewhere => (same path elsewhere.1).trans (applying.others path elsewhere)
  · intro name named
    refine (applying.logs name named).trans (.inl ?_)
    exact replacing.others _ (log_ne_document named) (log_ne_temporary named host.pid)
  · rcases replacing.document with before | written
    · rw [before]
      exact applying.document
    · rw [written]
      exact version
  · intro home found
    rw [same _ (not_own_binaryPath host.directory home)]
    exact applying.binary home found

/-- A removal of the document. -/
theorem Applying.removed (applying : Applying codec host original config start files)
    (fresh : original = none) (fault : Fault) :
    Applying codec host original config start
      (perform (.remove (configFile host.directory)) fault files).2 := by
  subst fresh
  have same : ∀ path, path ≠ configFile host.directory →
      (perform (.remove (configFile host.directory)) fault files).2[path]? = files[path]? :=
    fun path other => perform_other _ fault files (by simpa [FileOp.touched] using other)
  refine ⟨?_, ?_, ?_, ?_⟩
  · intro path elsewhere
    refine (same path ?_).trans (applying.others path elsewhere)
    rintro rfl
    exact elsewhere.1 .document
  · exact fun name named => (applying.logs name named).trans (.inl (same _ (log_ne_document named)))
  · rw [perform_remove]
    split
    · rw [Std.ExtTreeMap.getElem?_erase_self]
      exact .restored
    · exact applying.document
  · intro home found
    have other : binaryPath home ≠ configFile host.directory := by
      intro named
      apply not_own_binaryPath host.directory home
      rw [named]
      exact .document
    rw [same _ other]
    exact applying.binary home found

/-- What installing the binary does. -/
theorem Applying.placed (apart : Apart host) {home : String} (found : host.home = some home)
    (applying : Applying codec host original config start files)
    (kept : files[binaryPath home]? = start[binaryPath home]?)
    (placing : Placing home host.source host.pid files later) :
    Applying codec host original config start later := by
  have same : ∀ path, Own host.directory path → later[path]? = files[path]? := by
    intro path own
    refine placing.others path ?_ ?_
    · rintro rfl
      exact not_own_binaryPath _ _ own
    · rintro rfl
      exact not_own_binaryTemporary _ _ _ own
  refine ⟨?_, ?_, ?_, ?_⟩
  · intro path elsewhere
    obtain ⟨binary, temporary⟩ := elsewhere.2 home found
    exact (placing.others path binary temporary).trans (applying.others path elsewhere)
  · exact fun name named => (applying.logs name named).trans (.inl (same _ (.log name named)))
  · rw [same _ .document]
    exact applying.document
  · intro other named
    obtain rfl : home = other := Option.some.inj (found.symm.trans named)
    rcases placing.binary with before | ⟨absent, path, file, source, read, written⟩
    · exact .inl (before.trans kept)
    · refine .inr ⟨kept ▸ absent, path, file, source, ?_, written⟩
      obtain ⟨own, temporary⟩ := apart path source
      rw [← applying.others path ⟨own, ?_⟩]
      · exact read
      · intro other named
        obtain rfl : home = other := Option.some.inj (found.symm.trans named)
        refine ⟨?_, temporary home found⟩
        rintro rfl
        rw [absent] at read
        cases read

/-- How an application ends. -/
structure Applied (codec : ConfigCodec floats) (host : Host) (original : Option (List UInt8))
    (config : Config) (start : Files) (result : Except CommandFailure Unit) (files : Files) :
    Prop where
  applying : Applying codec host original config start files
  done : result = .ok () →
    files[configFile host.directory]? = some ⟨bytesOf (codec.encode config), ownerOnly⟩ ∧
      Ready host.directory files ∧ ∃ home, host.home = some home ∧ binaryPath home ∈ files
  undone : result = .error binaryFailed →
    files[configFile host.directory]?.map File.content = original

theorem Applying.refused (applying : Applying codec host original config start files)
    {failure : CommandFailure} (other : failure ≠ binaryFailed) :
    effects.Always (Applying codec host original config start)
      (Applied codec host original config start) (.done (.error failure)) files := by
  refine ⟨applying, applying, ?_, ?_⟩
  · intro impossible
    cases impossible
  · intro same
    cases same
    exact absurd rfl other

theorem Ready.congr {directory : String} (ready : Ready directory files)
    (same : ∀ path, Own directory path → later[path]? = files[path]?) : Ready directory later := by
  have there : ∀ path, Own directory path → path ∈ files → path ∈ later := by
    intro path own present
    rw [Std.ExtTreeMap.mem_iff_isSome_getElem?, same path own]
    exact Std.ExtTreeMap.mem_iff_isSome_getElem?.mp present
  obtain ⟨mode, hook⟩ := ready.hook
  exact ⟨fun name named => there _ (.log name named) (ready.logs name named),
    there _ .document ready.document, mode, (same _ .hook).trans hook⟩

theorem Ready.replaced {directory : String} {pid : Nat} {bytes : List UInt8}
    (ready : Ready directory files)
    (replacing : Replacing directory (configFile directory) pid bytes files later)
    (replaced : Replaced directory (configFile directory) pid bytes later) : Ready directory later := by
  have there : ∀ path, later[path]? = files[path]? → path ∈ files → path ∈ later := by
    intro path same present
    rw [Std.ExtTreeMap.mem_iff_isSome_getElem?, same]
    exact Std.ExtTreeMap.mem_iff_isSome_getElem?.mp present
  obtain ⟨mode, hook⟩ := ready.hook
  refine ⟨fun name named => there _ ?_ (ready.logs name named), ?_, mode, ?_⟩
  · exact replacing.others _ (log_ne_document named) (log_ne_temporary named pid)
  · exact Std.ExtTreeMap.mem_iff_isSome_getElem?.mpr (Option.isSome_of_eq_some replaced.document)
  · exact (replacing.others _ hook_ne_document (hook_ne_temporary pid)).trans hook

/-- Taking a configuration back. -/
theorem rollBack_always (applying : Applying codec host original config start files) :
    effects.Always (Applying codec host original config start)
      (fun result later => Applying codec host original config start later ∧
        (result = .ok () → later[configFile host.directory]?.map File.content = original))
      (rollBack host.directory host.pid original) files := by
  cases original with
  | none =>
      refine ⟨applying, fun fault => ?_⟩
      have removed := applying.removed rfl fault
      show effects.Always _ _
        (if (perform (.remove (configFile host.directory)) fault files).1 = true then
            (pure (.ok ()) : Script (ConfigResult Unit))
          else pure (.error (.io "remove newly-created configuration"))) _
      cases gone : (perform (.remove (configFile host.directory)) fault files).1 with
      | false => exact ⟨removed, removed, fun impossible => by cases impossible⟩
      | true =>
          refine ⟨removed, removed, fun _ => ?_⟩
          show (perform (.remove (configFile host.directory)) fault files).2[_]?.map _ = _
          rw [perform_remove, if_pos gone, Std.ExtTreeMap.getElem?_erase_self]
          rfl
  | some bytes =>
      refine (atomicWrite_always host.directory bytes host.pid files).mono
        (fun _ replacing => applying.replaced .restored replacing) ?_
      intro result later held
      obtain ⟨replacing, done⟩ := held
      refine ⟨applying.replaced .restored replacing, fun succeeded => ?_⟩
      rw [(done succeeded).document]
      rfl

/-- The step that installs the binary leaves the files of the installation. -/
theorem binaryStep (apart : Apart host)
    (applying : Applying codec host original config start files)
    (kept : ∀ home, host.home = some home → files[binaryPath home]? = start[binaryPath home]?) :
    effects.Always (Applying codec host original config start)
      (fun done later => Applying codec host original config start later ∧
        (∀ path, Own host.directory path → later[path]? = files[path]?) ∧
        (done = true → ∃ home, host.home = some home ∧ binaryPath home ∈ later))
      (installUserBinary host.home host.source false host.pid) files := by
  cases found : host.home with
  | none => exact ⟨applying, applying, fun _ _ => rfl, fun impossible => by cases impossible⟩
  | some home =>
      refine (installUserBinary_always fun path source => (apart path source).2 home found).mono
        (fun _ placing => applying.placed apart found (kept home found) placing) ?_
      intro done later held
      obtain ⟨placing, there⟩ := held
      refine ⟨applying.placed apart found (kept home found) placing, fun path own => ?_,
        fun succeeded => ⟨home, rfl, there succeeded⟩⟩
      refine placing.others path ?_ ?_
      · rintro rfl
        exact not_own_binaryPath _ _ own
      · rintro rfl
        exact not_own_binaryTemporary _ _ _ own

/-- Every state an application passes through, and how it ends. -/
theorem apply_always (apart : Apart host) :
    effects.Always (Applying codec host original config start)
      (Applied codec host original config start)
      (apply codec parseUrl host original config) start := by
  unfold apply
  refine Effects.always_bind (install_always.mono (fun _ kept => .of_kept kept)
    fun _ _ ended => ended) ?_
  intro prepared afterInstall held
  obtain ⟨kept, ready⟩ := held
  have installed : Applying codec host original config start afterInstall := .of_kept kept
  cases prepared with
  | false => exact installed.refused (by decide)
  | true =>
      refine Effects.always_bind ((@saveConfig_always host.directory afterInstall floats codec
        parseUrl host.pid config).mono
        (fun _ replacing => installed.replaced .reviewed replacing) fun _ _ ended => ended) ?_
      intro saved afterSave ended
      obtain ⟨replacing, replaced⟩ : Ended host.directory (configFile host.directory) host.pid
          (bytesOf (codec.encode config))
        afterInstall saved afterSave := ended
      have written := installed.replaced .reviewed replacing
      cases saved with
      | error failure => exact written.refused (by simp [binaryFailed])
      | ok done =>
          have complete := replaced rfl
          refine Effects.always_bind (binaryStep apart written ?_) ?_
          · intro home found
            rw [replacing.others _ (fun named => not_own_binaryPath host.directory home ?_)
              fun named => not_own_binaryPath host.directory home ?_]
            · exact kept.others _ (not_own_binaryPath host.directory home)
            · rw [named]
              exact .document
            · rw [named]
              exact .temporary host.pid
          intro placed afterBinary held
          obtain ⟨placing, same, binary⟩ := held
          cases placed with
          | true =>
              refine ⟨placing, placing, fun _ => ⟨?_, ?_, binary rfl⟩, fun impossible => ?_⟩
              · exact (same _ .document).trans complete.document
              · exact ((ready rfl).replaced replacing complete).congr same
              · cases impossible
          | false =>
              refine Effects.always_bind (rollBack_always placing) ?_
              intro restored last held
              obtain ⟨held, taken⟩ := held
              cases restored with
              | error failure => exact held.refused (by simp [binaryFailed])
              | ok done =>
                  refine ⟨held, held, fun impossible => ?_, fun _ => taken rfl⟩
                  cases impossible

end Apply

/-! ## The whole setup -/

section Setup

variable {floats : FloatText} {codec : ConfigCodec floats} {parseUrl : UrlParser} {host : Host}
  {files : Files} {lines rest : List Line} {faults : List Fault} {loaded config : Config}

/-- The configuration that stood before the setup began. -/
def originalDocument (host : Host) (files : Files) : Option (List UInt8) :=
  files[configFile host.directory]?.map File.content

/-- The interview ends with this configuration. -/
def Confirms (codec : ConfigCodec floats) (parseUrl : UrlParser) (host : Host) (files : Files)
    (lines : List Line) (loaded config : Config) (rest : List Line) : Prop :=
  (loading codec parseUrl host files).2 = .ok loaded ∧
    review parseUrl host.environment host.now host.payload loaded lines = .ok (some config, rest)

theorem setup_confirmed (confirms : Confirms codec parseUrl host files lines loaded config rest) :
    setup codec parseUrl host files lines faults =
      effects.during faults (apply codec parseUrl host (originalDocument host files) config)
        (loading codec parseUrl host files).1.files := by
  obtain ⟨load, reviewed⟩ := confirms
  unfold setup
  cases ran : loading codec parseUrl host files with
  | mk disk ending =>
      rw [ran] at load
      obtain rfl : ending = .ok loaded := load
      show effects.during faults (wizard codec parseUrl host (originalDocument host files) loaded lines)
        disk.files = _
      rw [wizard, reviewed]

theorem setup_unconfirmed
    (unconfirmed : ∀ loaded config rest, ¬ Confirms codec parseUrl host files lines loaded config rest) :
    (setup codec parseUrl host files lines faults).2 = (loading codec parseUrl host files).1.files := by
  unfold setup
  cases ran : loading codec parseUrl host files with
  | mk disk ending =>
      cases ending with
      | crash => rfl
      | error failure => rfl
      | ok loaded =>
          have load : (loading codec parseUrl host files).2 = .ok loaded := by rw [ran]
          show (effects.during faults (wizard codec parseUrl host (originalDocument host files) loaded
            lines) disk.files).2 = disk.files
          unfold wizard
          cases reviewed : review parseUrl host.environment host.now host.payload loaded lines with
          | error failure => cases faults <;> rfl
          | ok asked =>
              obtain ⟨config | config, rest⟩ := asked
              · cases faults <;> rfl
              · exact absurd ⟨load, reviewed⟩ (unconfirmed loaded config rest)

/-- A host with a running binary where nothing has been set up yet. -/
def freshHost : Host where
  directory := "/home"
  home := some "/users"
  source := some "/opt/syspilot"
  environment := fun _ => none
  pid := 7
  now := 0
  payload := .ok .null

def acceptedLines : List Line := [.ok "\n", .ok "\n", .ok "y\n"]

theorem freshHost_apart : Apart freshHost := by
  intro path source
  obtain rfl := Option.some.inj source
  have name : fileName "/opt/syspilot" = "syspilot".toList := by decide
  refine ⟨not_own_of_name name, fun home _ same => ?_⟩
  rw [same, fileName_binaryTemporary, String.toList_append] at name
  cases name

theorem fresh_loading :
    loading recordCodec anyUrl freshHost freshFiles = (⟨freshFiles, 0⟩, .ok {}) := by
  have holds : Holds recordCodec "/home" freshFiles {} := .inl ⟨by decide, rfl⟩
  have read : runtimeConfig anyUrl freshHost.environment freshFiles {} = .ok {} := rfl
  refine (holds.load _ 0).trans ?_
  rw [read]

theorem fresh_confirms : Confirms recordCodec anyUrl freshHost freshFiles acceptedLines {}
    (offline (disable {})) [] :=
  ⟨by rw [fresh_loading], rfl⟩

end Setup

end SystemPilot.Setup
