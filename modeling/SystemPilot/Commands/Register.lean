import SystemPilot.Commands.Edits
import SystemPilot.Library.Simulation

/-!
# The configuration as a register

A run of commands, any of which may end at any of its writes, is explained by a register
that holds one configuration: a command leaves it, changes a key in it, or moves it on to
what it has saved.
-/

set_option autoImplicit false

namespace SystemPilot.Commands

open SystemPilot.Text
open SystemPilot.Json
open SystemPilot.Telemetry
open SystemPilot.Library
open SystemPilot.Library.CrashFiles
open SystemPilot.Configuration

/-! ## The register -/

/-- `validate` passes. -/
def accepts (parseUrl : UrlParser) (config : Config) : Bool :=
  match validate parseUrl config with
  | .ok _ => true
  | .error _ => false

theorem accepts_iff {parseUrl : UrlParser} {config : Config} :
    accepts parseUrl config = true ↔ validate parseUrl config = .ok () := by
  unfold accepts
  cases validate parseUrl config with
  | ok done => simp
  | error failure => simp

/-- Where a secret of this name is stored. -/
def secretPath (directory name : String) : String :=
  joinPath (joinPath directory "credentials") name

/-- What can stand in the register once a command has begun, the last when it ends. -/
def stages (parseUrl : UrlParser) (directory : String) (config : Config) : Edit → List Config
  | .refuse _ | .leaves => [config]
  | .saves _ configs => config :: configs.takeWhile (accepts parseUrl)
  | .stores _ _ name value next =>
      if isBlank value then [config]
      else
        let path := secretPath directory name
        [config, config.swapped path value] ++
          match next (.file path) with
          | .ok next => if accepts parseUrl next then [next.swapped path value] else []
          | .error _ => []

/-- The command ends with exit code 0. -/
def succeeds (parseUrl : UrlParser) (directory : String) : Edit → Bool
  | .refuse _ => false
  | .leaves => true
  | .saves _ configs => configs.all (accepts parseUrl)
  | .stores _ _ name value next =>
      !isBlank value && match next (.file (secretPath directory name)) with
        | .ok next => accepts parseUrl next
        | .error _ => false

/-- The exit code of this edit says how the edit went. -/
def tells : Edit → Bool
  | .leaves => false
  | _ => true

/-- What is added to the exits when the command comes to its end. -/
def answer (parseUrl : UrlParser) (directory : String) (asked : Edit) : List Bool :=
  if tells asked then [succeeds parseUrl directory asked] else []

structure Register where
  config : Config
  exits : List Bool := []

/-- What a command makes of the register: all of it, or where the process ended in it a
stage of it. -/
def Took (parseUrl : UrlParser) (directory : String) (lower : String → String)
    (environment : Environment) (register : Register) (call : Invocation) (next : Register) :
    Prop :=
  let asked := edit lower parseUrl environment call.input register.config call.arguments
  (some next.config = (stages parseUrl directory register.config asked).getLast? ∧
    next.exits = register.exits ++ answer parseUrl directory asked) ∨
  (call.crash.isSome ∧ next.exits = register.exits ∧
    next.config ∈ stages parseUrl directory register.config asked)

/-! ## Places of a process -/

/-- No temporary file of this process is left over. -/
def Fresh (directory : String) (id : Nat) (files : Files) : Prop :=
  ∀ slot : Slot, ∀ temporary ∈ (slot.target directory).temporary, files[temporary id]? = none

section Places

variable {directory : String} {files : Files} {id : Nat}

theorem Fresh.insert_path (fresh : Fresh directory id files) (slot : Slot) (file : File) :
    Fresh directory id (files.insert (slot.target directory).path file) := by
  intro other temporary member
  rw [SortedMap.getElem?_insert_of_ne]
  · exact fresh other temporary member
  · intro same
    by_cases equal : other = slot
    · subst equal
      exact ((other.target_own directory) temporary member).1 id same.symm
    · exact Slot.target_apart directory equal id id _ (.inr ⟨temporary, member, rfl⟩) (.inl same.symm)

theorem Fresh.insert_temporary (fresh : Fresh directory id files) {slot : Slot}
    {temporary : Nat → String} (named : temporary ∈ (slot.target directory).temporary)
    {process : Nat} (distinct : process ≠ id) (file : File) :
    Fresh directory id (files.insert (temporary process) file) := by
  intro other temporary' member
  rw [SortedMap.getElem?_insert_of_ne]
  · exact fresh other temporary' member
  · intro same
    by_cases equal : other = slot
    · subst equal
      obtain rfl : temporary' = temporary := Option.some.inj (member.symm.trans named)
      exact distinct (((other.target_own directory) temporary' member).2 same)
    · exact Slot.target_apart directory equal id process _ (.inr ⟨temporary', member, rfl⟩)
        (.inr ⟨temporary, named, same.symm⟩)

theorem temporary_ne_config {slot : Slot} {temporary : Nat → String}
    (named : temporary ∈ (slot.target directory).temporary) :
    temporary id ≠ configFile directory := by
  intro same
  by_cases equal : slot = .config
  · subst equal
    exact ((Slot.target_own directory .config) temporary named).1 id same
  · exact Slot.target_apart directory equal id id _ (.inr ⟨temporary, named, rfl⟩) (.inl same)

end Places

/-! ## One write of a process -/

section Writes

variable {process : Process} {disk : CrashFiles.Disk} {temporary : Nat → String} {path : String}
  {content : List UInt8} {mode : Nat} {taken : ConfigError}

/-- A write nothing stands in the way of is done, or the process ends at it with at most
a part of the temporary file there. -/
theorem attempt_cases (free : disk.files[temporary process.id]? = none) :
    (Write.installed temporary path content mode taken).attempt process disk =
        (⟨disk.files.insert path ⟨content, mode⟩, disk.calls + 1⟩, .ok ()) ∨
      process.crash.isSome ∧ ∃ after,
        (Write.installed temporary path content mode taken).attempt process disk =
          (after, .crash) ∧
        (after.files = disk.files ∨
          ∃ file, after.files = disk.files.insert (temporary process.id) file) := by
  rw [Write.attempt, Program.bind_apply]
  unfold Program.install
  by_cases before : process.crash = some (.before disk.calls)
  · rw [if_pos before]
    exact .inr ⟨by rw [before]; rfl, _, rfl, .inl rfl⟩
  · rw [if_neg before, free]
    dsimp only
    cases cut : process.cut disk.calls with
    | none => exact .inl rfl
    | some written =>
        refine .inr ⟨?_, _, rfl, .inr ⟨_, rfl⟩⟩
        cases crash : process.crash with
        | some point => rfl
        | none => simp [Process.cut, crash] at cut

end Writes

/-! ## What an edit takes its keys from -/

/-- The names secrets are stored under, with their slots. -/
def secretSlots : List (String × Slot) :=
  [("gemini-api-key", .gemini), ("syspilot-api-key", .syspilot), ("telemetry-token", .telemetry),
    ("fleet-token", .fleet)]

/-- The record is complete, and its keys are old ones, none, or the one just stored. -/
structure Drawn (config next : Config) (stored : List (CredentialRef × String)) : Prop where
  embedding : next.embeddingProvider ∈ embeddingProviders
  fits : next.Fits
  keys : ∀ pair ∈ next.credentials, Known config pair ∨ pair ∈ stored

/-- An edit makes up no key. -/
def Tame (directory : String) (config : Config) : Edit → Prop
  | .refuse _ | .leaves => True
  | .saves _ configs => ∀ next ∈ configs, Drawn config next []
  | .stores _ _ name value next => (∃ slot, (name, slot) ∈ secretSlots) ∧
      ∀ saved, next (.file (secretPath directory name)) = .ok saved →
        Drawn config saved [(.file (secretPath directory name), value)]

section Runs

variable {floats : FloatText} {codec : ConfigCodec floats} {parseUrl : UrlParser}
  {directory : String} {environment : Environment} {process : Process} {disk : CrashFiles.Disk}
  {context : String} {config : Config}

def configTemporary (directory : String) (id : Nat) : String :=
  joinPath directory (".config-migration-" ++ Nat.repr id ++ ".tmp")

theorem configTemporary_mem : configTemporary directory ∈ (Slot.config.target directory).temporary :=
  rfl

theorem reported_ok {α : Type} {program : Program ConfigError α} {after : CrashFiles.Disk}
    {value : α}
    (ran : program process disk = (after, .ok value)) :
    reported context program process disk = (after, .ok value) := by
  rw [reported, ran]

theorem reported_error {α : Type} {program : Program ConfigError α} {after : CrashFiles.Disk}
    {failure : ConfigError} (ran : program process disk = (after, .error failure)) :
    reported context program process disk = (after, .error (.failed context failure)) := by
  rw [reported, ran]

theorem reported_crash {α : Type} {program : Program ConfigError α} {after : CrashFiles.Disk}
    (ran : program process disk = (after, .crash)) :
    reported context program process disk = (after, .crash) := by
  rw [reported, ran]

/-- A save that is not refused writes the document, or the process ends in it. -/
theorem save_cases (fresh : Fresh directory process.id disk.files) :
    (accepts parseUrl config = false ∧
      ∃ failure, reported context (save codec parseUrl directory config) process disk =
        (disk, .error failure)) ∨
    accepts parseUrl config = true ∧
      ((∃ after, reported context (save codec parseUrl directory config) process disk =
          (after, .ok ()) ∧
        after.files = disk.files.insert (configFile directory)
          ⟨bytesOf (codec.encode config), ownerOnly⟩) ∨
      process.crash.isSome ∧ ∃ after,
        reported context (save codec parseUrl directory config) process disk = (after, .crash) ∧
        (after.files = disk.files ∨
          ∃ file, after.files = disk.files.insert (configTemporary directory process.id) file)) := by
  cases checked : validate parseUrl config with
  | error failure =>
      have ran : save codec parseUrl directory config process disk = (disk, .error failure) := by
        rw [save, checked]
        rfl
      exact .inl ⟨by rw [accepts, checked], _, reported_error ran⟩
  | ok done =>
      refine .inr ⟨by rw [accepts, checked], ?_⟩
      have attempted : save codec parseUrl directory config =
          (atomicWrite directory (bytesOf (codec.encode config))).attempt := by
        rw [save, checked]
      have free : disk.files[configTemporary directory process.id]? = none :=
        fresh .config _ configTemporary_mem
      rw [attempted]
      rcases @attempt_cases process disk (configTemporary directory) (configFile directory)
        (bytesOf (codec.encode config)) ownerOnly
        (.io "could not create temporary migrated configuration") free with
        written | ⟨crash, after, ended, left⟩
      · exact .inl ⟨_, reported_ok written, rfl⟩
      · exact .inr ⟨crash, after, reported_crash ended, left⟩

/-- Where a secret of this name is stored, and the temporary file of the store. -/
def secretTemporary (directory name : String) (id : Nat) : String :=
  joinPath (joinPath directory "credentials") ("." ++ name ++ "-" ++ Nat.repr id ++ ".tmp")

theorem secret_target {name : String} {slot : Slot} (member : (name, slot) ∈ secretSlots) :
    slot.target directory =
      ⟨secretPath directory name, some (secretTemporary directory name)⟩ := by
  simp only [secretSlots, List.mem_cons, Prod.mk.injEq, List.not_mem_nil, or_false] at member
  rcases member with ⟨rfl, rfl⟩ | ⟨rfl, rfl⟩ | ⟨rfl, rfl⟩ | ⟨rfl, rfl⟩ <;> rfl

theorem secret_named {name : String} {slot : Slot} (member : (name, slot) ∈ secretSlots) :
    validateName name = .ok () := by
  simp only [secretSlots, List.mem_cons, Prod.mk.injEq, List.not_mem_nil, or_false] at member
  rcases member with ⟨rfl, _⟩ | ⟨rfl, _⟩ | ⟨rfl, _⟩ | ⟨rfl, _⟩ <;> decide

theorem secret_ne_config {name : String} {slot : Slot} (member : (name, slot) ∈ secretSlots) :
    slot ≠ .config := by
  simp only [secretSlots, List.mem_cons, Prod.mk.injEq, List.not_mem_nil, or_false] at member
  rcases member with ⟨-, rfl⟩ | ⟨-, rfl⟩ | ⟨-, rfl⟩ | ⟨-, rfl⟩ <;> decide

theorem store_blank {name value : String} {slot : Slot} (member : (name, slot) ∈ secretSlots)
    (blank : isBlank value = true) :
    ∃ failure, reported context
      (storeOwnerSecret (joinPath directory "credentials") name value).run process disk =
        (disk, .error failure) := by
  have ran : (storeOwnerSecret (joinPath directory "credentials") name value).run process disk =
      (disk, .error (.validation "credential must not be empty")) := by
    rw [storeOwnerSecret_blank (secret_named member) blank]
    rfl
  exact ⟨_, reported_error ran⟩

/-- A secret that is not blank is stored, or the process ends in it. -/
theorem store_cases {name value : String} {slot : Slot} (member : (name, slot) ∈ secretSlots)
    (filled : isBlank value = false) (fresh : Fresh directory process.id disk.files) :
    (∃ after, reported context
        (storeOwnerSecret (joinPath directory "credentials") name value).run process disk =
          (after, .ok (.file (secretPath directory name))) ∧
      after.files = disk.files.insert (secretPath directory name) ⟨bytesOf value, ownerOnly⟩) ∨
    process.crash.isSome ∧ ∃ after, reported context
        (storeOwnerSecret (joinPath directory "credentials") name value).run process disk =
          (after, .crash) ∧
      (after.files = disk.files ∨
        ∃ file, after.files = disk.files.insert (secretTemporary directory name process.id) file) := by
  have target := @secret_target directory name slot member
  have free : disk.files[secretTemporary directory name process.id]? = none :=
    fresh slot _ (by rw [target]; rfl)
  have planned : (storeOwnerSecret (joinPath directory "credentials") name value).run =
      (Write.installed (secretTemporary directory name) (secretPath directory name)
        (bytesOf value) ownerOnly (ConfigError.io "create temporary credential")).attempt >>=
          fun _ => pure (.file (secretPath directory name)) := by
    rw [storeOwnerSecret_eq (secret_named member) filled, Plan.run, performs,
      CrashFiles.Program.bind_assoc]
    rfl
  rcases @attempt_cases process disk (secretTemporary directory name) (secretPath directory name)
    (bytesOf value) ownerOnly (.io "create temporary credential") free with
    written | ⟨crash, after, ended, left⟩
  · have ran : (storeOwnerSecret (joinPath directory "credentials") name value).run process disk =
        (⟨disk.files.insert (secretPath directory name) ⟨bytesOf value, ownerOnly⟩, disk.calls + 1⟩,
          .ok (.file (secretPath directory name))) := by
      rw [planned, Program.bind_apply, written]
      rfl
    exact .inl ⟨_, reported_ok ran, rfl⟩
  · have ran : (storeOwnerSecret (joinPath directory "credentials") name value).run process disk =
        (after, .crash) := by
      rw [planned, Program.bind_apply, ended]
    exact .inr ⟨crash, after, reported_crash ran, left⟩

/-! ## One edit -/

/-- The process leaves no temporary file of another one. -/
def Kept (directory : String) (process : Process) (files after : Files) : Prop :=
  ∀ id, id ≠ process.id → Fresh directory id files → Fresh directory id after

/-- What holds before an edit goes on: a configuration stands, and the keys the edit draws
on can be resolved. -/
structure Ground (codec : ConfigCodec floats) (parseUrl : UrlParser) (directory : String)
    (environment : Environment) (process : Process) (files : Files) (current : Config)
    (drawn : CredentialRef × String → Prop) : Prop where
  stands : Stands codec parseUrl directory environment files current
  keys : ∀ pair, drawn pair →
    Resolves environment files pair ∧ pair.1 ≠ .file (configFile directory)
  fresh : Fresh directory process.id files

section Steps

variable {files : Files} {current written next : Config} {drawn : CredentialRef × String → Prop}

/-- A process that ends in a write leaves what stood before it. -/
theorem Ground.torn (ground : Ground codec parseUrl directory environment process files current drawn)
    (plain : Plain environment) {slot : Slot} {temporary : Nat → String}
    (named : temporary ∈ (slot.target directory).temporary) {after : Files}
    (left : after = files ∨ ∃ file, after = files.insert (temporary process.id) file) :
    Stands codec parseUrl directory environment after current ∧
      Kept directory process files after := by
  rcases left with rfl | ⟨file, rfl⟩
  · exact ⟨ground.stands, fun _ _ fresh => fresh⟩
  · refine ⟨ground.stands.torn plain file (ground.fresh slot temporary named)
      (temporary_ne_config named), ?_⟩
    intro id distinct fresh
    exact fresh.insert_temporary named distinct.symm file

/-- A save is refused, moves the configuration on, or ends its process. -/
theorem Ground.save (ground : Ground codec parseUrl directory environment process files current drawn)
    (plain : Plain environment) (same : written.stored = next.stored) (fits : written.Fits)
    (embedding : next.embeddingProvider ∈ embeddingProviders)
    (valid : accepts parseUrl written = true → validate parseUrl next = .ok ())
    (keys : ∀ pair ∈ next.credentials, drawn pair) (calls : Nat) :
    (accepts parseUrl written = false ∧
      ∃ failure, reported context (save codec parseUrl directory written) process ⟨files, calls⟩ =
        (⟨files, calls⟩, .error failure)) ∨
    accepts parseUrl written = true ∧
      ((∃ after, reported context (save codec parseUrl directory written) process ⟨files, calls⟩ =
          (after, .ok ()) ∧
        Ground codec parseUrl directory environment process after.files next drawn ∧
        Kept directory process files after.files) ∨
      process.crash.isSome ∧ ∃ after,
        reported context (save codec parseUrl directory written) process ⟨files, calls⟩ =
          (after, .crash) ∧
        Stands codec parseUrl directory environment after.files current ∧
        Kept directory process files after.files) := by
  rcases @save_cases floats codec parseUrl directory process ⟨files, calls⟩ context written
    ground.fresh with refused | ⟨accepted, ⟨after, ran, placed⟩ | ⟨crash, after, ran, left⟩⟩
  · exact .inl refused
  · refine .inr ⟨accepted, .inl ⟨after, ran, ⟨?_, ?_, ?_⟩, ?_⟩⟩
    · rw [placed]
      exact stands_saved plain same fits (valid accepted) embedding
        (fun pair member => ground.keys pair (keys pair member)) ownerOnly
    · intro pair member
      obtain ⟨resolves, apart⟩ := ground.keys pair member
      refine ⟨resolves.congr plain ?_, apart⟩
      intro path named
      rw [placed]
      refine (SortedMap.getElem?_insert_of_ne _ _ ?_).symm
      rintro rfl
      exact apart named
    · rw [placed]
      exact ground.fresh.insert_path .config _
    · intro id _ fresh
      rw [placed]
      exact fresh.insert_path .config _
  · exact .inr ⟨accepted, .inr ⟨crash, after, ran, ground.torn plain configTemporary_mem left⟩⟩

/-- How a program ends that goes through stages: at the last one, or with its process at
some one. -/
structure Ended (codec : ConfigCodec floats) (parseUrl : UrlParser) (directory : String)
    (environment : Environment) (process : Process) (files : Files) (stages : List Config)
    (succeeds : Bool) {α : Type} (value : α) (finish : CrashFiles.Disk × Ending CommandFailure α) :
    Prop where
  kept : Kept directory process files finish.1.files
  stands :
    (∃ last, stages.getLast? = some last ∧
      Stands codec parseUrl directory environment finish.1.files last ∧
      (if succeeds then finish.2 = .ok value else ∃ failure, finish.2 = .error failure)) ∨
    (process.crash.isSome ∧ finish.2 = .crash ∧
      ∃ stage ∈ stages, Stands codec parseUrl directory environment finish.1.files stage)

/-- What a program ends with does not matter to what it leaves. -/
theorem Ended.andThen {stages : List Config} {succeeds : Bool} {α β : Type} {value : α}
    {disk : CrashFiles.Disk}
    {program : Program CommandFailure α}
    (ended : Ended codec parseUrl directory environment process files stages succeeds value
      (program process disk)) (other : β) :
    Ended codec parseUrl directory environment process files stages succeeds other
      ((program >>= fun _ => pure other) process disk) := by
  rw [Program.bind_apply]
  obtain ⟨kept, stands⟩ := ended
  cases ran : program process disk with
  | mk after ending =>
      rw [ran] at kept stands
      dsimp only at kept stands
      cases ending with
      | ok done =>
          refine ⟨kept, ?_⟩
          rcases stands with ⟨last, final, held, exit⟩ | ⟨_, crashed, _⟩
          · refine .inl ⟨last, final, held, ?_⟩
            cases succeeds with
            | true => rfl
            | false =>
                obtain ⟨failure, same⟩ := exit
                cases same
          · cases crashed
      | error failure =>
          refine ⟨kept, ?_⟩
          rcases stands with ⟨last, final, held, exit⟩ | ⟨_, crashed, _⟩
          · refine .inl ⟨last, final, held, ?_⟩
            cases succeeds with
            | true => cases exit
            | false => exact ⟨failure, rfl⟩
          · cases crashed
      | crash =>
          refine ⟨kept, ?_⟩
          rcases stands with ⟨last, _, _, exit⟩ | ⟨crash, _, stage, member, held⟩
          · cases succeeds with
            | true => cases exit
            | false =>
                obtain ⟨failure, same⟩ := exit
                cases same
          · exact .inr ⟨crash, rfl, stage, member, held⟩

theorem saveAll_ended (plain : Plain environment) (configs : List Config) :
    ∀ (files : Files) (current : Config) (calls : Nat),
      Ground codec parseUrl directory environment process files current drawn →
      (∀ next ∈ configs, next.embeddingProvider ∈ embeddingProviders ∧ next.Fits ∧
        ∀ pair ∈ next.credentials, drawn pair) →
      Ended codec parseUrl directory environment process files
        (current :: configs.takeWhile (accepts parseUrl)) (configs.all (accepts parseUrl)) ()
        (saveAll codec parseUrl directory context configs process ⟨files, calls⟩) := by
  induction configs with
  | nil =>
      intro files current calls ground _
      exact ⟨fun _ _ fresh => fresh, .inl ⟨current, rfl, ground.stands, rfl⟩⟩
  | cons next rest inductionHypothesis =>
      intro files current calls ground tame
      obtain ⟨⟨embedding, fits, keys⟩, others⟩ := List.forall_mem_cons.mp tame
      rw [saveAll, Program.bind_apply]
      rcases @Ground.save floats codec parseUrl directory environment process context files current
        next next drawn ground plain rfl fits embedding accepts_iff.mp keys calls with
        ⟨refused, failure, ran⟩ | ⟨accepted, ⟨after, ran, moved, kept⟩ | ⟨crash, after, ran, stands, kept⟩⟩
      · rw [ran, List.takeWhile_cons, if_neg (by simp [refused]), List.all_cons, refused]
        exact ⟨fun _ _ fresh => fresh, .inl ⟨current, rfl, ground.stands, failure, rfl⟩⟩
      · rw [ran, List.takeWhile_cons, if_pos accepted, List.all_cons, accepted, Bool.true_and]
        dsimp only
        have later := inductionHypothesis after.files next after.calls moved others
        refine ⟨fun id distinct fresh => later.kept id distinct (kept id distinct fresh), ?_⟩
        rcases later.stands with ⟨last, final, stands, ended⟩ | ⟨crash, ended, stage, member, stands⟩
        · exact .inl ⟨last, by rw [List.getLast?_cons_cons]; exact final, stands, ended⟩
        · exact .inr ⟨crash, ended, stage, List.mem_cons_of_mem _ member, stands⟩
      · rw [ran]
        exact ⟨kept, .inr ⟨crash, rfl, current, List.mem_cons_self, stands⟩⟩

/-- After its secret is stored, the keys of the record to be saved are what they resolve to. -/
theorem swapped_keys (stands : Stands codec parseUrl directory environment files current)
    (plain : Plain environment) {path value : String} (filled : isBlank value = false)
    (elsewhere : path ≠ configFile directory) (drawn : Drawn current next [(.file path, value)]) :
    ∀ pair ∈ (next.swapped path value).credentials,
      Resolves environment (files.insert path ⟨bytesOf value, ownerOnly⟩) pair ∧
        pair.1 ≠ .file (configFile directory) := by
  intro pair member
  rw [credentials_swapped] at member
  obtain ⟨⟨reference, key⟩, listed, rfl⟩ := List.mem_map.mp member
  dsimp only
  by_cases named : reference = .file path
  · rw [if_pos named, named]
    refine ⟨⟨_, resolve_stored environment Std.ExtTreeMap.getElem?_insert_self filled, rfl⟩, ?_⟩
    intro same
    exact elsewhere (CredentialRef.file.inj same)
  · rw [if_neg named]
    rcases drawn.keys _ listed with known | stored
    · obtain ⟨resolves, apart⟩ := stands.known known
      refine ⟨resolves.congr plain ?_, apart⟩
      intro other reference
      refine (SortedMap.getElem?_insert_of_ne _ _ ?_).symm
      rintro rfl
      exact named reference
    · exact absurd (congrArg Prod.fst (List.mem_singleton.mp stored)) named

theorem edit_ended (plain : Plain environment)
    (stands : Stands codec parseUrl directory environment files current)
    (fresh : Fresh directory process.id files) (asked : Edit) (tame : Tame directory current asked)
    (calls : Nat) :
    Ended codec parseUrl directory environment process files (stages parseUrl directory current asked)
      (succeeds parseUrl directory asked) (tells asked)
      (asked.run codec parseUrl directory process ⟨files, calls⟩) := by
  cases asked with
  | refuse failure =>
      exact ⟨fun _ _ fresh => fresh, .inl ⟨current, rfl, stands, failure, rfl⟩⟩
  | leaves => exact ⟨fun _ _ fresh => fresh, .inl ⟨current, rfl, stands, rfl⟩⟩
  | saves context configs =>
      have ground : Ground codec parseUrl directory environment process files current (Known current) :=
        ⟨stands, fun pair known => stands.known known, fresh⟩
      have ended := @saveAll_ended floats codec parseUrl directory environment process context
        (Known current) plain configs files current calls ground (by
          intro next member
          have drawn := tame next member
          exact ⟨drawn.embedding, drawn.fits, fun pair listed =>
            (drawn.keys pair listed).resolve_right (by simp)⟩)
      exact ended.andThen true
  | stores storing saving name value next =>
      obtain ⟨⟨slot, named⟩, tame⟩ := tame
      have elsewhere : secretPath directory name ≠ configFile directory := by
        intro same
        have target := @secret_target directory name slot named
        exact Slot.target_apart directory (secret_ne_config named) 0 0 _ (.inl rfl)
          (.inl (by rw [target]; exact same))
      have temporary : secretTemporary directory name ∈ (slot.target directory).temporary := by
        rw [secret_target named]
        rfl
      rw [Edit.run, Program.bind_apply, stages, succeeds]
      cases blank : isBlank value with
      | true =>
          obtain ⟨failure, ran⟩ := @store_blank directory process ⟨files, calls⟩ storing name value
            slot named blank
          rw [ran]
          exact ⟨fun _ _ fresh => fresh, .inl ⟨current, rfl, stands, failure, rfl⟩⟩
      | false =>
          rcases @store_cases directory process ⟨files, calls⟩ storing name value slot named blank
            fresh with ⟨after, ran, placed⟩ | ⟨crash, after, ran, left⟩
          · rw [ran]
            dsimp only
            have stored : Stands codec parseUrl directory environment after.files
                (current.swapped (secretPath directory name) value) := by
              rw [placed]
              exact stands.stored plain blank elsewhere
            have untouched : Kept directory process files after.files := by
              intro id _ fresh
              rw [placed]
              have kept := fresh.insert_path slot ⟨bytesOf value, ownerOnly⟩
              rwa [secret_target named] at kept
            cases given : next (.file (secretPath directory name)) with
            | error failure =>
                refine ⟨untouched, .inl ⟨_, rfl, stored, ?_⟩⟩
                exact ⟨_, rfl⟩
            | ok saved =>
                have drawn := tame saved given
                have keys := swapped_keys stands plain blank elsewhere drawn
                rw [← placed] at keys
                have clean : Fresh directory process.id after.files := by
                  rw [placed]
                  have kept := fresh.insert_path slot ⟨bytesOf value, ownerOnly⟩
                  rwa [secret_target named] at kept
                have ground : Ground codec parseUrl directory environment process after.files
                    (current.swapped (secretPath directory name) value)
                    (fun pair =>
                      pair ∈ (saved.swapped (secretPath directory name) value).credentials) :=
                  ⟨stored, keys, clean⟩
                dsimp only
                rw [Program.bind_apply]
                have valid : accepts parseUrl saved = true →
                    validate parseUrl (saved.swapped (secretPath directory name) value) = .ok () :=
                  fun accepted => swapped_valid blank (accepts_iff.mp accepted)
                rcases @Ground.save floats codec parseUrl directory environment process saving
                  after.files (current.swapped (secretPath directory name) value) saved
                  (saved.swapped (secretPath directory name) value) _ ground plain rfl drawn.fits
                  drawn.embedding valid (fun _ member => member) after.calls with
                  ⟨refused, failure, ended⟩ |
                  ⟨accepted, ⟨last, ended, moved, kept⟩ | ⟨crash, last, ended, held, kept⟩⟩
                · rw [ended, refused]
                  exact ⟨untouched, .inl ⟨_, rfl, stored, failure, rfl⟩⟩
                · rw [ended, accepted]
                  refine ⟨?_, .inl ⟨_, rfl, moved.stands, rfl⟩⟩
                  exact fun id distinct fresh => kept id distinct (untouched id distinct fresh)
                · rw [ended]
                  refine ⟨?_, .inr ⟨crash, rfl, _, ?_, held⟩⟩
                  · exact fun id distinct fresh => kept id distinct (untouched id distinct fresh)
                  · simp
          · rw [ran]
            have ground : Ground codec parseUrl directory environment process files current
                (Known current) := ⟨stands, fun pair known => stands.known known, fresh⟩
            obtain ⟨held, kept⟩ := ground.torn plain temporary left
            exact ⟨kept, .inr ⟨crash, rfl, current, by simp, held⟩⟩

end Steps

end Runs

/-! ## The commands are tame -/

section Tame

variable {lower : String → String} {parseUrl : UrlParser} {environment : Environment}
  {input : Input} {directory : String} {config next : Config}

/-- A record with the keys it had. -/
theorem drawn_same (embedding : next.embeddingProvider ∈ embeddingProviders) (fits : next.Fits)
    (same : next.credentials = config.credentials) : Drawn config next [] :=
  ⟨embedding, fits, fun _ member => .inl (.inl (same ▸ member))⟩

theorem tame_one {context : String} (drawn : Drawn config next []) :
    Tame directory config (.saves context [next]) := by
  intro other member
  rwa [List.mem_singleton.mp member]

variable (embedding : config.embeddingProvider ∈ embeddingProviders) (fits : config.Fits)

include embedding fits

theorem editProvider_tame (arguments : List String) :
    Tame directory config (editProvider lower config arguments) := by
  cases arguments with
  | nil => trivial
  | cons name rest =>
      unfold editProvider
      dsimp only
      split
      · trivial
      · exact tame_one (drawn_same embedding fits rfl)

theorem editModel_tame (arguments : List String) :
    Tame directory config (editModel config arguments) := by
  cases arguments with
  | nil => trivial
  | cons model rest =>
      unfold editModel
      apply tame_one
      split
      · exact drawn_same embedding fits rfl
      · split
        · exact drawn_same embedding fits rfl
        · split
          · exact drawn_same embedding fits rfl
          · exact drawn_same embedding fits rfl

omit embedding fits in
theorem activated_drawn {model : String} {setActive : Bool} {base : Config}
    (drawn : Drawn config base []) :
    ∀ other ∈ activated input model setActive base, Drawn config other [] := by
  intro other member
  unfold activated at member
  split at member
  · rw [List.mem_singleton.mp member]
    exact ⟨drawn.embedding, drawn.fits, drawn.keys⟩
  · cases member

theorem editPull_tame (arguments : List String) :
    Tame directory config (editPull lower input config arguments) := by
  have same : Drawn config config [] := drawn_same embedding fits rfl
  have switched : Drawn config { config with activeProvider := "ollama" } [] :=
    drawn_same embedding fits rfl
  cases arguments with
  | nil => trivial
  | cons model rest =>
      unfold editPull
      dsimp only
      split
      · exact activated_drawn same
      · cases input.confirmation with
        | error reason => trivial
        | ok answer =>
            cases answer with
            | none => trivial
            | some line =>
                dsimp only
                split
                · intro other member
                  cases member
                · intro other member
                  rcases List.mem_cons.mp member with rfl | later
                  · exact switched
                  · exact activated_drawn switched other later

theorem exporting_drawn (endpoint nodeId token : String) (reference : CredentialRef) :
    Drawn config (exporting config endpoint nodeId token reference) [(reference, token)] := by
  refine ⟨embedding, fits, ?_⟩
  intro pair member
  simp only [Config.credentials, exporting, List.mem_cons, List.not_mem_nil, or_false] at member
  simp only [Known, Config.credentials, List.mem_cons, List.not_mem_nil, or_false]
  tauto

theorem editTelemetry_tame (arguments : List String) :
    Tame directory config (editTelemetry environment input config arguments) := by
  have closed : ∀ endpoint nodeId : String,
      Drawn config (exporting config endpoint nodeId "" .none) [] := by
    intro endpoint nodeId
    refine ⟨embedding, fits, fun pair member => ?_⟩
    rcases (exporting_drawn embedding fits endpoint nodeId "" .none).keys pair member with known | fresh
    · exact .inl known
    · exact .inl (.inr (List.mem_singleton.mp fresh))
  cases arguments with
  | nil => trivial
  | cons action rest =>
      unfold editTelemetry
      dsimp only
      split
      · unfold editTelemetryEnable
        split
        · split
          · trivial
          · split
            · exact tame_one (closed _ _)
            · refine ⟨⟨.telemetry, by decide⟩, ?_⟩
              intro saved same
              cases same
              exact exporting_drawn embedding fits _ _ _ _
        · trivial
      · split
        · apply tame_one
          refine ⟨embedding, fits, fun pair member => ?_⟩
          simp only [Config.credentials, List.mem_cons, List.not_mem_nil, or_false] at member
          simp only [Known, Config.credentials, List.mem_cons, List.not_mem_nil, or_false]
          tauto
        · split
          · trivial
          · trivial

theorem editAlert_tame (arguments : List String) :
    Tame directory config (editAlert config arguments) := by
  have added : ∀ rules, Drawn config (withRules config rules) [] :=
    fun rules => drawn_same embedding fits rfl
  cases arguments with
  | nil => trivial
  | cons action rest =>
      unfold editAlert
      dsimp only
      split
      · unfold editAlertAdd
        split
        · dsimp only
          split
          · split
            · trivial
            · exact tame_one (added _)
          · split
            · split
              · trivial
              · exact tame_one (added _)
            · trivial
        · trivial
      · split
        · unfold editAlertRemove
          split
          · trivial
          · dsimp only
            split
            · trivial
            · exact tame_one (added _)
        · split
          · trivial
          · trivial

theorem editSetKey_tame (arguments : List String) :
    Tame directory config (editSetKey lower environment input config arguments) := by
  unfold editSetKey
  split
  · dsimp only
    split
    · trivial
    · split
      · refine ⟨⟨.gemini, by decide⟩, ?_⟩
        intro saved same
        cases same
        refine ⟨embedding, fits, fun pair member => ?_⟩
        simp only [Config.credentials, List.mem_cons, List.not_mem_nil, or_false] at member
        simp only [Known, Config.credentials, List.mem_cons, List.not_mem_nil, or_false]
        tauto
      · split
        · refine ⟨⟨.syspilot, by decide⟩, ?_⟩
          intro saved same
          cases same
          refine ⟨embedding, fits, fun pair member => ?_⟩
          simp only [Config.credentials, List.mem_cons, List.not_mem_nil, or_false] at member
          simp only [Known, Config.credentials, List.mem_cons, List.not_mem_nil, or_false]
          tauto
        · trivial
  · trivial

theorem editSetUrl_tame (arguments : List String) :
    Tame directory config (editSetUrl lower config arguments) := by
  unfold editSetUrl
  split
  · dsimp only
    split
    · trivial
    · exact tame_one (drawn_same embedding fits rfl)
  · trivial

theorem editSet_tame (arguments : List String) :
    Tame directory config (editSet lower config arguments) := by
  unfold editSet
  split
  · dsimp only
    split
    · split
      · trivial
      · exact tame_one (drawn_same embedding fits rfl)
    · split
      · exact tame_one (drawn_same embedding fits rfl)
      · split
        · split
          · trivial
          · rename_i known
            exact tame_one (drawn_same (not_not.mp known) fits rfl)
        · trivial
  · trivial

theorem editFleet_tame (arguments : List String) :
    Tame directory config (editFleet parseUrl environment input config arguments) := by
  unfold editFleet
  split
  · unfold editEnroll
    dsimp only
    split
    · trivial
    · split
      · trivial
      · refine ⟨⟨.fleet, by decide⟩, ?_⟩
        intro saved enrolled
        unfold enrollWithReference at enrolled
        dsimp only at enrolled
        split at enrolled
        · rename_i same
          split at same
          · cases same
          · cases enrolled
            obtain ⟨-, rfl⟩ := Prod.mk.inj same
            refine ⟨embedding, ?_, fun pair member => ?_⟩
            · obtain ⟨schema, request, connect, batch, flush, queue, backoff, retries, timeout, bytes,
                age, -, -⟩ := fits
              exact ⟨schema, request, connect, batch, flush, queue, backoff, retries, timeout, bytes,
                age, input.now.toNat_lt, by simp [Config.enrolled, enrollment]⟩
            · simp only [Config.credentials, Config.enrolled, enrollment, List.mem_cons,
                List.not_mem_nil, or_false] at member
              simp only [Known, Config.credentials, List.mem_cons, List.not_mem_nil, or_false]
              tauto
        · cases enrolled
  · trivial
  · apply tame_one
    have same : (disable config).Fits := by
      unfold disable
      dsimp only
      split <;> exact fits
    refine ⟨embedding, same, fun pair member => ?_⟩
    unfold disable at member
    simp only [Config.credentials, List.mem_cons, List.not_mem_nil, or_false] at member
    simp only [Known, Config.credentials, List.mem_cons, List.not_mem_nil, or_false]
    split at member <;> tauto
  · trivial

theorem edit_tame (arguments : List String) :
    Tame directory config (edit lower parseUrl environment input config arguments) := by
  unfold edit
  split
  · exact editProvider_tame embedding fits _
  · exact editModel_tame embedding fits _
  · exact editPull_tame embedding fits _
  · unfold editConfig
    split
    · trivial
    · split
      · exact editTelemetry_tame embedding fits _
      · split
        · exact editAlert_tame embedding fits _
        · split
          · exact editSetKey_tame embedding fits _
          · split
            · exact editSetUrl_tame embedding fits _
            · split
              · exact editSet_tame embedding fits _
              · trivial
  · exact editFleet_tame embedding fits _
  · trivial

end Tame

/-! ## Runs -/

section Run

variable {floats : FloatText} {codec : ConfigCodec floats} {parseUrl : UrlParser}
  {directory : String} {lower : String → String} {environment : Environment}

/-- What the home and the register have in common before the processes still to come. -/
structure Related (codec : ConfigCodec floats) (parseUrl : UrlParser) (directory : String)
    (environment : Environment) (later : List Invocation) (home : Home) (register : Register) :
    Prop where
  stands : Stands codec parseUrl directory environment home.files register.config
  exits : home.exits = register.exits
  fresh : ∀ call ∈ later, Fresh directory call.id home.files
  distinct : (later.map Invocation.id).Nodup

theorem record_files (home : Home) (finish : CrashFiles.Disk × Ending CommandFailure Bool) :
    (home.record finish).files = finish.1.files := by
  obtain ⟨disk, edited | failure | _⟩ := finish <;> rfl

/-- What is recorded of an edit that came to its end. -/
theorem record_answer (home : Home) (asked : Edit)
    {finish : CrashFiles.Disk × Ending CommandFailure Bool}
    (exit : if succeeds parseUrl directory asked then finish.2 = .ok (tells asked)
      else ∃ failure, finish.2 = .error failure) :
    (home.record finish).exits = home.exits ++ answer parseUrl directory asked := by
  obtain ⟨disk, ending⟩ := finish
  by_cases good : succeeds parseUrl directory asked = true
  · rw [if_pos good] at exit
    obtain rfl : ending = .ok (tells asked) := exit
    show (if tells asked then home.exits ++ [true] else home.exits) = _
    rw [answer, good]
    split <;> simp
  · rw [if_neg good] at exit
    obtain ⟨failure, same⟩ := exit
    obtain rfl : ending = .error failure := same
    have told : tells asked = true := by
      cases asked with
      | leaves => exact absurd rfl good
      | refuse _ | saves _ _ | stores _ _ _ _ _ => rfl
    rw [answer, if_pos told, Bool.eq_false_iff.mpr good]
    rfl

theorem took_step (plain : Plain environment) (call : Invocation) (rest : List Invocation)
    (home : Home) (register : Register)
    (related : Related codec parseUrl directory environment (call :: rest) home register) :
    ∃ next, Took parseUrl directory lower environment register call next ∧
      Related codec parseUrl directory environment rest
        (home.step codec parseUrl directory lower environment call) next := by
  obtain ⟨stands, exits, fresh, distinct⟩ := related
  obtain ⟨mine, others⟩ := List.forall_mem_cons.mp fresh
  rw [List.map_cons, List.nodup_cons] at distinct
  have tame := @edit_tame lower parseUrl environment call.input directory register.config
    stands.embedding stands.fits call.arguments
  have ended := @edit_ended floats codec parseUrl directory environment ⟨call.id, call.crash⟩
    home.files register.config plain stands mine _ tame 0
  have ran : command codec parseUrl directory lower environment call.arguments call.input
      ⟨call.id, call.crash⟩ ⟨home.files, 0⟩ =
      (edit lower parseUrl environment call.input register.config call.arguments).run codec parseUrl
        directory ⟨call.id, call.crash⟩ ⟨home.files, 0⟩ := by
    rw [command, Program.bind_apply, reported_ok (stands.load plain _ _)]
  have kept : ∀ other ∈ rest, Fresh directory other.id
      ((edit lower parseUrl environment call.input register.config call.arguments).run codec parseUrl
        directory ⟨call.id, call.crash⟩ ⟨home.files, 0⟩).1.files := by
    intro other member
    refine ended.kept other.id ?_ (others other member)
    intro same
    exact distinct.1 (List.mem_map.mpr ⟨other, member, same⟩)
  rw [Home.step, ran]
  have files := record_files home
    ((edit lower parseUrl environment call.input register.config call.arguments).run codec parseUrl
      directory ⟨call.id, call.crash⟩ ⟨home.files, 0⟩)
  rcases ended.stands with ⟨last, final, held, exit⟩ | ⟨crash, crashed, stage, member, held⟩
  · refine ⟨⟨last, register.exits ++ answer parseUrl directory
      (edit lower parseUrl environment call.input register.config call.arguments)⟩,
      .inl ⟨final.symm, rfl⟩, ?_, ?_, ?_, distinct.2⟩
    · rw [files]
      exact held
    · rw [record_answer home _ exit, exits]
    · rw [files]
      exact kept
  · refine ⟨⟨stage, register.exits⟩, .inr ⟨crash, rfl, member⟩, ?_, ?_, ?_, distinct.2⟩
    · rw [files]
      exact held
    · rw [← exits]
      generalize (edit lower parseUrl environment call.input register.config call.arguments).run
        codec parseUrl directory ⟨call.id, call.crash⟩ ⟨home.files, 0⟩ = finish at crashed
      obtain ⟨disk, ending⟩ := finish
      obtain rfl : ending = .crash := crashed
      rfl
    · rw [files]
      exact kept

theorem fresh_default (id : Nat) : Fresh "/home" id defaultFiles := by
  intro slot temporary named
  have elsewhere := @temporary_ne_config "/home" id slot temporary named
  rw [defaultFiles, SortedMap.getElem?_insert_of_ne _ _ elsewhere.symm]
  rfl

/-- A process that stores a key, and one that ends inside its save. -/
def twoCalls : List Invocation := [
  { id := 8, crash := none, arguments := ["config", "set-key", "gemini"],
    input := { typed := .line (.ok "key\n"), confirmation := .ok none, pulled := false, now := 0 } },
  { id := 9, crash := some (.inside 0 5), arguments := ["provider", "disabled"],
    input := { typed := .line (.ok ""), confirmation := .ok none, pulled := false, now := 0 } }]

end Run

end SystemPilot.Commands
