import SystemPilot.Setup.Files

/-!
# The user binary

`replace_binary` fills a temporary file of its process and renames it over the binary.
Any number of processes may install at once, each from its own running binary or from
the one they all replace, and any call may fail.
-/

set_option autoImplicit false

namespace SystemPilot.Setup

open SystemPilot.Library
open SystemPilot.Library.CrashFiles (File Files)
open SystemPilot.Configuration

/-! ## The functions -/

/-- The directory and the path of `user_binary_path`. -/
def binDirectory (home : String) : String := joinPath (joinPath home ".local") "bin"

def binaryPath (home : String) : String := joinPath (binDirectory home) "syspilot"

def binaryTemporary (home : String) (pid : Nat) : String :=
  joinPath (binDirectory home) (".syspilot-install-" ++ Nat.repr pid)

def executable : Nat := 0o755

/-- The copy, its mode and the rename, as far as they succeed. -/
def putBinary (home source : String) (pid : Nat) : Script Bool := do
  if ← call (.copy source (binaryTemporary home pid)) then
    if ← call (.setMode (binaryTemporary home pid) executable) then
      call (.rename (binaryTemporary home pid) (binaryPath home))
    else pure false
  else pure false

def replaceBinary (home source : String) (pid : Nat) : Script Bool := do
  if ← call (.createDir (binDirectory home)) then
    if ← putBinary home source pid then pure true
    else
      let _ ← call (.remove (binaryTemporary home pid))
      pure false
  else pure false

/-- `source` is none when the running binary cannot be located. -/
def installFrom (home : String) (source : Option String) (pid : Nat) : Script Bool :=
  match source with
  | none => pure false
  | some source => replaceBinary home source pid

/-- `install_user_binary`; `home` is none without a home directory. -/
def installUserBinary (home source : Option String) (force : Bool) (pid : Nat) : Script Bool :=
  match home with
  | none => pure false
  | some home => do
      let there ← call (.present (binaryPath home))
      if there && !force then pure true
      else installFrom home source pid

def removeUserBinary (home : Option String) : Script Bool :=
  match home with
  | none => pure false
  | some home => do
      if ← call (.present (binaryPath home)) then call (.remove (binaryPath home))
      else pure true

/-! ## The binary is whole -/

theorem binaryTemporary_inj {home : String} {left right : Nat}
    (same : binaryTemporary home left = binaryTemporary home right) : left = right := by
  have names := joinPath_inj same
  exact SystemPilot.Text.repr_injective (String.append_right_inj ".syspilot-install-" |>.mp names)

theorem binaryTemporary_ne (home : String) (pid : Nat) :
    binaryTemporary home pid ≠ binaryPath home := by
  have diverge : Diverge ".syspilot-install-" "syspilot" := by decide
  intro same
  apply diverge.joined_ne (binDirectory home) (Nat.repr pid) ""
  rw [String.append_empty]
  exact same

theorem fileName_binaryPath (home : String) : fileName (binaryPath home) = "syspilot".toList :=
  fileName_joinPath _ (by decide)

theorem fileName_binaryTemporary (home : String) (pid : Nat) :
    fileName (binaryTemporary home pid) = (".syspilot-install-" ++ Nat.repr pid).toList := by
  refine fileName_joinPath _ ?_
  rw [String.toList_append, List.mem_append, not_or]
  exact ⟨by decide, slashless_repr pid⟩

section Concurrent

variable (home : String) (source : Nat → String) (start : Files)

/-- The content of a running binary when the first process starts. -/
def Binary (content : List UInt8) : Prop :=
  ∃ pid file, start[source pid]? = some file ∧ file.content = content

/-- A whole binary stands there, put by one of the processes. -/
def Placed (files : Files) : Prop :=
  ∃ content, Binary source start content ∧ files[binaryPath home]? = some ⟨content, executable⟩

/-- The binary is the one from before, or a whole one; the running binaries are as they
were. -/
structure Good (files : Files) : Prop where
  binary : files[binaryPath home]? = start[binaryPath home]? ∨ Placed home source start files
  sources : ∀ pid, source pid ≠ binaryPath home → files[source pid]? = start[source pid]?

/-- What a process relies on. -/
def Relies (pid : Nat) (files later : Files) : Prop :=
  later[binaryTemporary home pid]? = files[binaryTemporary home pid]? ∧
    (Good home source start files → Good home source start later) ∧
    (Placed home source start files → Placed home source start later)

/-- What a process guarantees. -/
def Guarantees (pid : Nat) (files later : Files) : Prop :=
  (∀ other, other ≠ pid →
    later[binaryTemporary home other]? = files[binaryTemporary home other]?) ∧
    (Good home source start files → Good home source start later) ∧
    (Placed home source start files → Placed home source start later)

variable {home source start}

theorem relies_refl (pid : Nat) (files : Files) : Relies home source start pid files files :=
  ⟨rfl, id, id⟩

theorem relies_trans (pid : Nat) (first middle last : Files)
    (before : Relies home source start pid first middle)
    (after : Relies home source start pid middle last) :
    Relies home source start pid first last :=
  ⟨after.1.trans before.1, fun good => after.2.1 (before.2.1 good),
    fun placed => after.2.2 (before.2.2 placed)⟩

theorem guarantees_relied (pid other : Nat) (distinct : pid ≠ other) (files later : Files)
    (guaranteed : Guarantees home source start pid files later) :
    Relies home source start other files later :=
  ⟨guaranteed.1 other distinct.symm, guaranteed.2⟩

/-- A call that touches only the temporary file of its process. -/
theorem guarantees_own {pid : Nat} (apart : ∀ other, source other ≠ binaryTemporary home pid)
    (op : FileOp) (own : ∀ path ∈ op.touched, path = binaryTemporary home pid) (fault : Fault)
    (files : Files) : Guarantees home source start pid files (effects.perform op fault files).2 := by
  have same : ∀ path, path ≠ binaryTemporary home pid →
      (perform op fault files).2[path]? = files[path]? :=
    fun path elsewhere => perform_other op fault files fun touched => elsewhere (own path touched)
  have binary := same _ (binaryTemporary_ne home pid).symm
  refine ⟨?_, ?_, ?_⟩
  · exact fun other distinct => same _ fun named => distinct (binaryTemporary_inj named)
  · intro good
    refine ⟨?_, fun other elsewhere => (same _ (apart other)).trans (good.sources other elsewhere)⟩
    rcases good.binary with kept | ⟨content, known, placed⟩
    · exact .inl (binary.trans kept)
    · exact .inr ⟨content, known, binary.trans placed⟩
  · intro held
    obtain ⟨content, known, placed⟩ := held
    exact ⟨content, known, binary.trans placed⟩

/-- What is read from a running binary is one of the whole ones. -/
theorem Good.read {files : Files} (good : Good home source start files) {pid : Nat} {file : File}
    (found : files[source pid]? = some file) : Binary source start file.content := by
  by_cases replaced : source pid = binaryPath home
  · rw [replaced] at found
    rcases good.binary with kept | ⟨content, known, placed⟩
    · exact ⟨pid, file, by rw [replaced, ← kept, found], rfl⟩
    · rw [found] at placed
      rw [Option.some.inj placed]
      exact known
  · exact ⟨pid, file, by rw [← good.sources pid replaced, found], rfl⟩

/-- What a process of its own running binary ends with. -/
def Installs (home : String) (source : Nat → String) (start : Files) (installed : Bool)
    (files : Files) : Prop :=
  installed = true → Placed home source start files

section Install

variable {pid : Nat} {files : Files}

/-- A process that has failed removes its temporary file. -/
theorem cleanup_secure (apart : ∀ other, source other ≠ binaryTemporary home pid) :
    effects.Secure (Relies home source start pid) (Guarantees home source start pid)
      (Installs home source start)
      (call (.remove (binaryTemporary home pid)) >>= fun _ => pure false) files := by
  intro later _ fault
  refine ⟨guarantees_own apart _ (by simp [FileOp.touched]) fault later, ?_⟩
  intro last _ impossible
  cases impossible

/-- The whole binary in the temporary file takes the place of the other. -/
theorem rename_guaranteed (apart : ∀ other, source other ≠ binaryTemporary home pid)
    {content : List UInt8} (known : Binary source start content)
    (filled : files[binaryTemporary home pid]? = some ⟨content, executable⟩) (fault : Fault) :
    Guarantees home source start pid files
        (perform (.rename (binaryTemporary home pid) (binaryPath home)) fault files).2 ∧
      ((perform (.rename (binaryTemporary home pid) (binaryPath home)) fault files).1 = true →
        Placed home source start
          (perform (.rename (binaryTemporary home pid) (binaryPath home)) fault files).2) := by
  simp only [perform, filled]
  by_cases fails : fault.fails = true
  · rw [if_pos fails]
    exact ⟨⟨fun _ _ => rfl, id, id⟩, by simp⟩
  · rw [if_neg fails]
    have placed : Placed home source start (((files.erase (binaryTemporary home pid)).insert
        (binaryPath home) ⟨content, executable⟩)) :=
      ⟨content, known, Std.ExtTreeMap.getElem?_insert_self⟩
    refine ⟨⟨?_, ?_, fun _ => placed⟩, fun _ => placed⟩
    · intro other distinct
      rw [SortedMap.getElem?_insert_of_ne _ _ (binaryTemporary_ne home other).symm,
        SortedMap.getElem?_erase_of_ne _ fun same => distinct (binaryTemporary_inj same).symm]
    · intro good
      refine ⟨.inr placed, fun other elsewhere => ?_⟩
      rw [SortedMap.getElem?_insert_of_ne _ _ elsewhere.symm,
        SortedMap.getElem?_erase_of_ne _ (apart other).symm]
      exact good.sources other elsewhere

/-- A program that has done nothing. -/
theorem idle_secure : effects.Secure (Relies home source start pid)
    (Guarantees home source start pid) (Installs home source start) (.done false) files := by
  intro later _ impossible
  cases impossible

theorem putBinary_secure (apart : ∀ other, source other ≠ binaryTemporary home pid)
    (good : Good home source start files) :
    effects.Secure (Relies home source start pid) (Guarantees home source start pid)
      (Installs home source start) (putBinary home (source pid) pid) files := by
  intro first relied fault
  have goodFirst := relied.2.1 good
  refine ⟨guarantees_own apart _ (by simp [FileOp.touched]) fault first, ?_⟩
  show effects.Secure _ _ _
    (if (perform (.copy (source pid) (binaryTemporary home pid)) fault first).1 = true then _ else _)
    (perform (.copy (source pid) (binaryTemporary home pid)) fault first).2
  cases found : first[source pid]? with
  | none =>
      simp only [perform, found]
      exact idle_secure
  | some file =>
      have known := goodFirst.read found
      by_cases fails : fault.fails = true
      · simp only [perform, found, if_pos fails]
        exact idle_secure
      · simp only [perform, found, if_neg fails, if_true]
        -- the copy is there, and only this process touches it
        intro second relied fault
        have filled : second[binaryTemporary home pid]? = some file :=
          relied.1.trans Std.ExtTreeMap.getElem?_insert_self
        refine ⟨guarantees_own apart _ (by simp [FileOp.touched]) fault second, ?_⟩
        show effects.Secure _ _ _
          (if (perform (.setMode (binaryTemporary home pid) executable) fault second).1 = true then _
            else _) (perform (.setMode (binaryTemporary home pid) executable) fault second).2
        by_cases fails : fault.fails = true
        · simp only [perform, filled, if_pos fails]
          exact idle_secure
        · simp only [perform, filled, if_neg fails, if_true]
          intro third relied fault
          have whole : third[binaryTemporary home pid]? = some ⟨file.content, executable⟩ :=
            relied.1.trans Std.ExtTreeMap.getElem?_insert_self
          obtain ⟨guaranteed, placed⟩ := rename_guaranteed apart known whole fault
          refine ⟨guaranteed, ?_⟩
          intro last relied renamed
          exact relied.2.2 (placed renamed)

theorem replaceBinary_secure (apart : ∀ other, source other ≠ binaryTemporary home pid)
    (good : Good home source start files) :
    effects.Secure (Relies home source start pid) (Guarantees home source start pid)
      (Installs home source start) (replaceBinary home (source pid) pid) files := by
  intro first relied fault
  refine ⟨guarantees_own apart _ (by simp [FileOp.touched]) fault first, ?_⟩
  show effects.Secure _ _ _ (if (!fault.fails) = true then _ else _) first
  cases fault.fails with
  | true => exact idle_secure
  | false =>
      refine Effects.secure_bind (putBinary_secure apart (relied.2.1 good)) ?_
      intro replaced files installed
      cases replaced with
      | false => exact cleanup_secure apart
      | true => exact installed

/-- A process told not to replace the binary may find the one from before. -/
def Present (home : String) (source : Nat → String) (start : Files) (force installed : Bool)
    (files : Files) : Prop :=
  installed = true → binaryPath home ∈ files ∧
    (force = true ∨ binaryPath home ∉ start → Placed home source start files)

theorem Placed.present (placed : Placed home source start files) : binaryPath home ∈ files := by
  obtain ⟨content, -, found⟩ := placed
  rw [Std.ExtTreeMap.mem_iff_isSome_getElem?, found]
  rfl

theorem Installs.present {force installed : Bool}
    (installs : Installs home source start installed files) :
    Present home source start force installed files :=
  fun done => ⟨(installs done).present, fun _ => installs done⟩

theorem installUserBinary_secure (apart : ∀ other, source other ≠ binaryTemporary home pid)
    (good : Good home source start files) (force : Bool) :
    effects.Secure (Relies home source start pid) (Guarantees home source start pid)
      (Present home source start force)
      (installUserBinary (some home) (some (source pid)) force pid) files := by
  intro first relied fault
  have goodFirst := relied.2.1 good
  refine ⟨guarantees_own apart _ (by simp [FileOp.touched]) fault first, ?_⟩
  show effects.Secure _ _ _
    (if (decide (binaryPath home ∈ first) && !force) = true then _ else _) first
  by_cases kept : (decide (binaryPath home ∈ first) && !force) = true
  · rw [if_pos kept]
    simp only [Bool.and_eq_true, decide_eq_true_eq, Bool.not_eq_true'] at kept
    intro last relied _
    rcases goodFirst.binary with before | placed
    · -- the binary from before, which stays there or is replaced by a whole one
      have there : binaryPath home ∈ start := by
        rw [Std.ExtTreeMap.mem_iff_isSome_getElem?, ← before]
        exact Std.ExtTreeMap.mem_iff_isSome_getElem?.mp kept.1
      refine ⟨?_, fun asked => ?_⟩
      · rcases (relied.2.1 goodFirst).binary with same | placed
        · rw [Std.ExtTreeMap.mem_iff_isSome_getElem?, same]
          exact Std.ExtTreeMap.mem_iff_isSome_getElem?.mp there
        · exact placed.present
      · rcases asked with forced | absent
        · rw [kept.2] at forced
          cases forced
        · exact absurd there absent
    · have still := relied.2.2 placed
      exact ⟨still.present, fun _ => still⟩
  · rw [if_neg kept]
    exact (replaceBinary_secure apart goodFirst).mono fun _ _ installs => installs.present

end Install

/-- Any number of processes install a binary at once. -/
def installers (home : String) (source : Nat → String) (force : Nat → Bool) (start : Files) :
    Effects.Processes FileOp.Result Files Bool Nat where
  programs pid := installUserBinary (some home) (some (source pid)) (force pid) pid
  state := start

/-- However the calls of processes that install interleave, fail and stop, the binary is at
every moment the one from before or a whole executable one, and a process that reports
success leaves one that is there, a whole new one if it was told to replace it. -/
theorem binary_whole (source : Nat → String) (force : Nat → Bool) (start : Files)
    (apart : ∀ pid other, source other ≠ binaryTemporary home pid)
    (events : List (Nat × Fault)) :
    Good home source start
        (Machine.run effects.advance (installers home source force start) events).state ∧
      ∀ pid, (Machine.run effects.advance (installers home source force start) events).programs
          pid = .done true →
        Present home source start (force pid) true
          (Machine.run effects.advance (installers home source force start) events).state := by
  have initial : Good home source start start := ⟨.inl rfl, fun _ _ => rfl⟩
  have every : Effects.AllSecure effects (Relies home source start) (Guarantees home source start)
      (fun pid => Present home source start (force pid)) (installers home source force start) :=
    fun pid => installUserBinary_secure (apart pid) initial (force pid)
  obtain ⟨secure, good⟩ := Effects.run_secure relies_refl relies_trans
    (fun pid other distinct => guarantees_relied pid other distinct)
    (fun _ _ _ guaranteed => guaranteed.2.1) every initial events
  exact ⟨good, fun pid finished => secure.ended relies_refl finished⟩

/-- A running binary where none is installed. -/
def freshFiles : Files := (∅ : Files).insert "/opt/syspilot" ⟨[1], executable⟩

/-- Two processes that install at once, the first of which ends after its copy. -/
def twoInstalls : List (Nat × Fault) :=
  [(1, ⟨false, none⟩), (2, ⟨false, none⟩), (1, ⟨false, none⟩), (1, ⟨false, none⟩),
    (2, ⟨false, none⟩), (2, ⟨false, none⟩), (2, ⟨false, none⟩), (2, ⟨false, none⟩)]

theorem binary_whole_two :
    Good "/users" (fun _ => "/opt/syspilot") freshFiles (Machine.run effects.advance
        (installers "/users" (fun _ => "/opt/syspilot") (fun _ => true) freshFiles)
        twoInstalls).state ∧
      Placed "/users" (fun _ => "/opt/syspilot") freshFiles (Machine.run effects.advance
        (installers "/users" (fun _ => "/opt/syspilot") (fun _ => true) freshFiles)
        twoInstalls).state := by
  have apart : ∀ pid other : Nat, (fun _ => "/opt/syspilot") other ≠
      binaryTemporary "/users" pid := by
    intro pid _ same
    have name : fileName "/opt/syspilot" = "syspilot".toList := by decide
    rw [show "/opt/syspilot" = binaryTemporary "/users" pid from same, fileName_binaryTemporary,
      String.toList_append] at name
    cases name
  obtain ⟨good, done⟩ := @binary_whole "/users" (fun _ => "/opt/syspilot") (fun _ => true)
    freshFiles apart twoInstalls
  exact ⟨good, (done 2 rfl rfl).2 (.inl rfl)⟩

end Concurrent

end SystemPilot.Setup
