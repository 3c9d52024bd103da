import Mathlib.Tactic
import SystemPilot.Library.SortedMap

/-!
# Files under a process that may crash

Programs over files named by paths.  A program reads, and makes writing calls of
two kinds: a file is created that must not exist, or a temporary file is filled
and renamed over its target.  A crash point ends the process before one of its
calls, or inside it with a part of the content in the file the call has created.
The rules say which files a program leaves alone, and when a list of writes that
crashed can be run again.
-/

set_option autoImplicit false

namespace SystemPilot.Library.CrashFiles

structure File where
  content : List UInt8
  mode : Nat
  deriving DecidableEq, Repr

abbrev Files := Std.ExtTreeMap String File

/-- Writing calls are numbered from zero. -/
inductive CrashPoint where
  | before (call : Nat)
  | inside (call written : Nat)
  deriving DecidableEq, Repr

structure Process where
  id : Nat
  crash : Option CrashPoint := none
  deriving DecidableEq, Repr

/-- The bytes written before the process ends inside this call. -/
def Process.cut (process : Process) (call : Nat) : Option Nat :=
  match process.crash with
  | some (.inside point written) => if point = call then some written else none
  | _ => none

theorem Process.cut_inside {process : Process} {call written : Nat}
    (crash : process.crash = some (.inside call written)) : process.cut call = some written := by
  simp [cut, crash]

theorem Process.cut_spared {process : Process} {call : Nat}
    (spared : ∀ written, process.crash ≠ some (.inside call written)) : process.cut call = none := by
  unfold cut
  split
  · rename_i point written crash
    refine if_neg ?_
    rintro rfl
    exact spared written crash
  · rfl

/-- The files with the number of writing calls the process has made. -/
structure Disk where
  files : Files
  calls : Nat := 0

inductive Ending (ε α : Type) where
  | ok (value : α)
  | error (failure : ε)
  | crash
  deriving DecidableEq, Repr

def Program (ε α : Type) := Process → Disk → Disk × Ending ε α

variable {ε α β : Type}

namespace Program

def bind (first : Program ε α) (next : α → Program ε β) : Program ε β := fun process disk =>
  match first process disk with
  | (disk, .ok value) => next value process disk
  | (disk, .error failure) => (disk, .error failure)
  | (disk, .crash) => (disk, .crash)

instance instMonadProgram : Monad (Program ε) where
  pure value := fun _ disk => (disk, .ok value)
  bind := Program.bind

def fail (failure : ε) : Program ε α := fun _ disk => (disk, .error failure)

def read (path : String) : Program ε (Option File) := fun _ disk =>
  (disk, .ok disk.files[path]?)

/-- All files as they stand. -/
def present : Program ε Files := fun _ disk => (disk, .ok disk.files)

/-- Opening with `create_new`, then one write; false when the file exists. -/
def createNew (path : String) (content : List UInt8) (mode : Nat) : Program ε Bool :=
  fun process disk =>
    if process.crash = some (.before disk.calls) then (disk, .crash)
    else
      match disk.files[path]? with
      | some _ => (⟨disk.files, disk.calls + 1⟩, .ok false)
      | none =>
          match process.cut disk.calls with
          | some written =>
              (⟨disk.files.insert path ⟨content.take written, mode⟩, disk.calls + 1⟩, .crash)
          | none => (⟨disk.files.insert path ⟨content, mode⟩, disk.calls + 1⟩, .ok true)

/-- A temporary file is created and written, then renamed; false when it exists. -/
def install (temporary : Nat → String) (path : String) (content : List UInt8) (mode : Nat) :
    Program ε Bool :=
  fun process disk =>
    if process.crash = some (.before disk.calls) then (disk, .crash)
    else
      match disk.files[temporary process.id]? with
      | some _ => (⟨disk.files, disk.calls + 1⟩, .ok false)
      | none =>
          match process.cut disk.calls with
          | some written =>
              (⟨disk.files.insert (temporary process.id) ⟨content.take written, mode⟩,
                disk.calls + 1⟩, .crash)
          | none => (⟨disk.files.insert path ⟨content, mode⟩, disk.calls + 1⟩, .ok true)

/-! ## Sequencing -/

theorem bind_apply (first : Program ε α) (next : α → Program ε β) (process : Process)
    (disk : Disk) :
    (first >>= next) process disk =
      match first process disk with
      | (disk, .ok value) => next value process disk
      | (disk, .error failure) => (disk, .error failure)
      | (disk, .crash) => (disk, .crash) := rfl

@[simp] theorem pure_apply (value : α) (process : Process) (disk : Disk) :
    (pure value : Program ε α) process disk = (disk, .ok value) := rfl

@[simp] theorem fail_apply (failure : ε) (process : Process) (disk : Disk) :
    (fail failure : Program ε α) process disk = (disk, .error failure) := rfl

@[simp] theorem read_apply (path : String) (process : Process) (disk : Disk) :
    (read path : Program ε (Option File)) process disk = (disk, .ok disk.files[path]?) := rfl

theorem bind_assoc {γ : Type} (first : Program ε α) (second : α → Program ε β)
    (third : β → Program ε γ) :
    (first >>= second) >>= third = first >>= fun value => second value >>= third := by
  funext process disk
  simp only [bind_apply]
  rcases first process disk with ⟨after, value | failure | _⟩ <;> rfl

end Program

/-! ## Writes -/

/-- A sealed file is written once and is not to change; an installed file
replaces what stood at its path.  Each carries the error of the call that finds
a file in its way. -/
inductive Write (ε : Type) where
  | sealed (path : String) (content : List UInt8) (mode : Nat) (conflict : ε)
  | installed (temporary : Nat → String) (path : String) (content : List UInt8) (mode : Nat)
      (taken : ε)

namespace Write

def path : Write ε → String
  | sealed path _ _ _ => path
  | installed _ path _ _ _ => path

def content : Write ε → List UInt8
  | sealed _ content _ _ => content
  | installed _ _ content _ _ => content

def failure : Write ε → ε
  | sealed _ _ _ conflict => conflict
  | installed _ _ _ _ taken => taken

/-- A sealed file that is there already must hold the same bytes. -/
def attempt : Write ε → Program ε Unit
  | sealed path content mode conflict => do
      if ← Program.createNew path content mode then pure ()
      else match ← Program.read path with
        | some file => if file.content = content then pure () else Program.fail conflict
        | none => Program.fail conflict
  | installed temporary path content mode taken => do
      if ← Program.install temporary path content mode then pure () else Program.fail taken

/-- Nothing stands in the way of a write by this process. -/
def Ready (id : Nat) (files : Files) : Write ε → Prop
  | sealed path content _ _ => ∀ file, files[path]? = some file → file.content = content
  | installed temporary _ _ _ _ => files[temporary id]? = none

instance decidableReady (id : Nat) (files : Files) (write : Write ε) :
    Decidable (write.Ready id files) :=
  match write with
  | sealed path content _ _ =>
      match found : files[path]? with
      | none => isTrue (by intro file present; rw [found] at present; cases present)
      | some file =>
          if same : file.content = content then
            isTrue (by intro other present; rw [found] at present; cases present; exact same)
          else isFalse (fun ready => same (ready file found))
  | installed temporary _ _ _ _ => inferInstanceAs (Decidable (files[temporary id]? = none))

def put (files : Files) : Write ε → Files
  | sealed path content mode _ =>
      if path ∈ files then files else files.insert path ⟨content, mode⟩
  | installed _ path content mode _ => files.insert path ⟨content, mode⟩

/-- The files when the process ends inside the write, with `written` bytes done. -/
def torn (id written : Nat) (files : Files) : Write ε → Files
  | sealed path content mode _ => files.insert path ⟨content.take written, mode⟩
  | installed temporary _ content mode _ =>
      files.insert (temporary id) ⟨content.take written, mode⟩

/-- The process creates a file in this write. -/
def Creates (files : Files) : Write ε → Prop
  | sealed path _ _ _ => path ∉ files
  | installed _ _ _ _ _ => True

instance decidableCreates (files : Files) (write : Write ε) : Decidable (write.Creates files) :=
  match write with
  | sealed path _ _ _ => inferInstanceAs (Decidable (path ∉ files))
  | installed _ _ _ _ _ => inferInstanceAs (Decidable True)

section Attempt

variable (write : Write ε) (process : Process) (disk : Disk)

theorem attempt_before (crash : process.crash = some (.before disk.calls)) :
    write.attempt process disk = (disk, .crash) := by
  cases write <;> simp [attempt, Program.bind_apply, Program.createNew, Program.install, crash]

theorem attempt_inside {written : Nat} (crash : process.crash = some (.inside disk.calls written))
    (ready : write.Ready process.id disk.files) (creates : write.Creates disk.files) :
    write.attempt process disk =
      (⟨write.torn process.id written disk.files, disk.calls + 1⟩, .crash) := by
  have cut := Process.cut_inside crash
  cases write with
  | sealed path content mode conflict =>
      have absent : disk.files[path]? = none := Std.ExtTreeMap.getElem?_eq_none creates
      simp [attempt, Program.bind_apply, Program.createNew, crash, cut, absent, torn]
  | installed temporary path content mode taken =>
      have absent : disk.files[temporary process.id]? = none := ready
      simp [attempt, Program.bind_apply, Program.install, crash, cut, absent, torn]

/-- The crash point lies outside this write. -/
def Spared (process : Process) (disk : Disk) (write : Write ε) : Prop :=
  process.crash ≠ some (.before disk.calls) ∧
    (write.Creates disk.files → ∀ written, process.crash ≠ some (.inside disk.calls written))

variable {write process disk}

theorem attempt_ready (spared : Spared process disk write)
    (ready : write.Ready process.id disk.files) :
    write.attempt process disk = (⟨write.put disk.files, disk.calls + 1⟩, .ok ()) := by
  obtain ⟨before, inside⟩ := spared
  cases write with
  | sealed path content mode conflict =>
      by_cases present : path ∈ disk.files
      · have found := Std.ExtTreeMap.getElem?_eq_some_getElem present
        have same := ready _ found
        simp [attempt, Program.bind_apply, Program.createNew, before, put, present, same]
      · have absent : disk.files[path]? = none := Std.ExtTreeMap.getElem?_eq_none present
        have cut := Process.cut_spared (inside present)
        simp [attempt, Program.bind_apply, Program.createNew, before, cut, put, present]
  | installed temporary path content mode taken =>
      have absent : disk.files[temporary process.id]? = none := ready
      have cut := Process.cut_spared (inside trivial)
      simp [attempt, Program.bind_apply, Program.install, before, absent, cut, put]

theorem attempt_blocked (alive : process.crash ≠ some (.before disk.calls))
    (blocked : ¬ write.Ready process.id disk.files) :
    write.attempt process disk = (⟨disk.files, disk.calls + 1⟩, .error write.failure) := by
  cases write with
  | sealed path content mode conflict =>
      cases found : disk.files[path]? with
      | none =>
          refine absurd ?_ blocked
          intro file present
          rw [found] at present
          cases present
      | some file =>
          have differs : file.content ≠ content := by
            intro same
            refine blocked ?_
            intro other present
            rw [found] at present
            cases present
            exact same
          simp [attempt, Program.bind_apply, Program.createNew, alive, found, differs, failure]
  | installed temporary path content mode taken =>
      cases found : disk.files[temporary process.id]? with
      | none => exact absurd found blocked
      | some file =>
          simp [attempt, Program.bind_apply, Program.install, alive, found, failure]

/-- A write without a crash. -/
theorem attempt_run (write : Write ε) (id : Nat) (disk : Disk) :
    write.attempt ⟨id, none⟩ disk =
      if write.Ready id disk.files then (⟨write.put disk.files, disk.calls + 1⟩, .ok ())
      else (⟨disk.files, disk.calls + 1⟩, .error write.failure) := by
  split
  · rename_i ready
    exact attempt_ready ⟨by simp, by simp⟩ ready
  · rename_i blocked
    exact attempt_blocked (by simp) blocked

end Attempt

/-! ### Places -/

/-- The paths a write of process `id` creates or replaces. -/
def Touches (id : Nat) (place : String) : Write ε → Prop
  | sealed path _ _ _ => place = path
  | installed temporary path _ _ _ => place = path ∨ place = temporary id

def Apart (left right : Write ε) : Prop :=
  ∀ first second place, left.Touches first place → ¬ right.Touches second place

/-- Temporary files stand beside their target and are named after the process. -/
def Own : Write ε → Prop
  | sealed _ _ _ _ => True
  | installed temporary path _ _ _ => (∀ id, temporary id ≠ path) ∧ Function.Injective temporary

theorem touches_path (write : Write ε) (id : Nat) : write.Touches id write.path := by
  cases write with
  | sealed path content mode conflict => rfl
  | installed temporary path content mode taken => exact Or.inl rfl

theorem put_other (write : Write ε) (files : Files) {place : String} (apart : place ≠ write.path) :
    (write.put files)[place]? = files[place]? := by
  cases write with
  | sealed path content mode conflict =>
      simp only [put]
      split
      · rfl
      · exact SortedMap.getElem?_insert_of_ne files _ (Ne.symm apart)
  | installed temporary path content mode taken =>
      exact SortedMap.getElem?_insert_of_ne files _ (Ne.symm apart)

/-- A write of what is there already changes nothing. -/
theorem put_congr (write : Write ε) {files others : Files}
    (same : files[write.path]? = others[write.path]?) :
    (write.put files)[write.path]? = (write.put others)[write.path]? := by
  cases write with
  | sealed path content mode conflict =>
      have alike : path ∈ files ↔ path ∈ others := by
        rw [← Std.ExtTreeMap.isSome_getElem?_iff_mem, ← Std.ExtTreeMap.isSome_getElem?_iff_mem]
        exact iff_of_eq (congrArg (fun found : Option File => found.isSome = true) same)
      by_cases present : path ∈ files
      · simpa only [put, if_pos present, if_pos (alike.mp present)] using same
      · simp [put, Write.path, present, mt alike.mpr present]
  | installed temporary path content mode taken => simp [put, Write.path]

theorem put_twice (write : Write ε) (files : Files) :
    (write.put (write.put files))[write.path]? = (write.put files)[write.path]? := by
  cases write with
  | sealed path content mode conflict =>
      by_cases present : path ∈ files
      · simp [put, present]
      · simp [put, present, Write.path]
  | installed temporary path content mode taken => simp [put, Write.path]

/-- A sealed file holds its content once it is written. -/
theorem put_sealed {path : String} {content : List UInt8} {mode : Nat} {conflict : ε} {id : Nat}
    {files : Files} (ready : (sealed path content mode conflict).Ready id files) :
    ∃ file, ((sealed path content mode conflict).put files)[path]? = some file ∧
      file.content = content := by
  by_cases present : path ∈ files
  · have found := Std.ExtTreeMap.getElem?_eq_some_getElem present
    exact ⟨files[path], by rw [put, if_pos present, found], ready _ found⟩
  · exact ⟨⟨content, mode⟩, by rw [put, if_neg present, Std.ExtTreeMap.getElem?_insert_self], rfl⟩

theorem torn_other (write : Write ε) (id written : Nat) (files : Files) {place : String}
    (apart : ¬ write.Touches id place) : (write.torn id written files)[place]? = files[place]? := by
  cases write with
  | sealed path content mode conflict => exact SortedMap.getElem?_insert_of_ne files _ (Ne.symm apart)
  | installed temporary path content mode taken =>
      exact SortedMap.getElem?_insert_of_ne files _ fun same => apart (Or.inr same.symm)

theorem ready_congr (write : Write ε) (id : Nat) {files others : Files}
    (same : ∀ place, write.Touches id place → files[place]? = others[place]?) :
    write.Ready id files ↔ write.Ready id others := by
  cases write with
  | sealed path content mode conflict => simp only [Ready, same path rfl]
  | installed temporary path content mode taken =>
      simp only [Ready, same (temporary id) (Or.inr rfl)]

theorem creates_congr (write : Write ε) {files others : Files}
    (same : files[write.path]? = others[write.path]?) :
    write.Creates files ↔ write.Creates others := by
  cases write with
  | sealed path content mode conflict =>
      have alike : files[path]?.isSome = others[path]?.isSome := congrArg Option.isSome same
      rw [Creates, Creates, ← Std.ExtTreeMap.isSome_getElem?_iff_mem,
        ← Std.ExtTreeMap.isSome_getElem?_iff_mem, alike]
  | installed temporary path content mode taken => exact Iff.rfl

/-- After a write its own file is in the way of no later run. -/
theorem ready_put {write : Write ε} {id : Nat} {files : Files} (own : write.Own)
    (ready : write.Ready id files) : write.Ready id (write.put files) := by
  cases write with
  | sealed path content mode conflict =>
      intro file found
      by_cases present : path ∈ files
      · rw [put, if_pos present] at found
        exact ready file found
      · rw [put, if_neg present, Std.ExtTreeMap.getElem?_insert_self] at found
        cases found
        rfl
  | installed temporary path content mode taken =>
      rw [Ready, put, SortedMap.getElem?_insert_of_ne files _ (Ne.symm (own.1 id))]
      exact ready

end Write

/-! ## Lists of writes -/

def performs : List (Write ε) → Program ε Unit
  | [] => pure ()
  | write :: rest => do
      write.attempt
      performs rest

def outcome (files : Files) (writes : List (Write ε)) : Files := writes.foldl Write.put files

/-- No two writes share a file. -/
structure Separate (writes : List (Write ε)) : Prop where
  apart : writes.Pairwise Write.Apart
  own : ∀ write ∈ writes, write.Own

theorem performs_append (first second : List (Write ε)) :
    performs (first ++ second) = performs first >>= fun _ => performs second := by
  induction first with
  | nil => rfl
  | cons write rest inductionHypothesis =>
      show (write.attempt >>= fun _ => performs (rest ++ second)) = _
      rw [inductionHypothesis, performs, Program.bind_assoc]

/-- Where a write goes: its path, and the temporary file of an installed one. -/
structure Target where
  path : String
  temporary : Option (Nat → String)

def Write.target : Write ε → Target
  | .sealed path _ _ _ => ⟨path, none⟩
  | .installed temporary path _ _ _ => ⟨path, some temporary⟩

def Target.Touches (id : Nat) (place : String) (target : Target) : Prop :=
  place = target.path ∨ ∃ temporary ∈ target.temporary, place = temporary id

def Target.Own (target : Target) : Prop :=
  ∀ temporary ∈ target.temporary, (∀ id, temporary id ≠ target.path) ∧ Function.Injective temporary

def Target.Apart (left right : Target) : Prop :=
  ∀ first second place, left.Touches first place → ¬ right.Touches second place

theorem Write.touches_target {write : Write ε} {id : Nat} {place : String}
    (touched : write.Touches id place) : write.target.Touches id place := by
  cases write with
  | sealed path content mode conflict => exact Or.inl touched
  | installed temporary path content mode taken =>
      exact touched.imp_right fun same => ⟨temporary, rfl, same⟩

theorem Write.own_of_target {write : Write ε} (own : write.target.Own) : write.Own := by
  cases write with
  | sealed path content mode conflict => trivial
  | installed temporary path content mode taken => exact own temporary rfl

/-- Writes to some of a list of separate targets are separate. -/
theorem separate_of_targets {writes : List (Write ε)} {targets : List Target}
    (among : (writes.map Write.target).Sublist targets) (apart : targets.Pairwise Target.Apart)
    (own : ∀ target ∈ targets, target.Own) : Separate writes where
  apart := by
    refine (List.pairwise_map.mp (apart.sublist among)).imp ?_
    intro left right distinct first second place mine theirs
    exact distinct first second place (Write.touches_target mine) (Write.touches_target theirs)
  own write member :=
    Write.own_of_target (own write.target (among.subset (List.mem_map_of_mem member)))

section Lists

variable {write : Write ε} {rest writes : List (Write ε)} {files : Files}

theorem Separate.tail (separate : Separate (write :: rest)) : Separate rest :=
  ⟨(List.pairwise_cons.mp separate.apart).2, fun other member => separate.own other (by simp [member])⟩

theorem Separate.head (separate : Separate (write :: rest)) {other : Write ε}
    (member : other ∈ rest) : write.Apart other :=
  (List.pairwise_cons.mp separate.apart).1 other member

theorem Write.Apart.path_ne {left right : Write ε} (apart : left.Apart right) :
    left.path ≠ right.path :=
  fun same => apart 0 0 left.path (left.touches_path 0) (same ▸ right.touches_path 0)

theorem outcome_other {place : String} (elsewhere : ∀ write ∈ writes, place ≠ write.path) :
    (outcome files writes)[place]? = files[place]? := by
  induction writes generalizing files with
  | nil => rfl
  | cons write rest inductionHypothesis =>
      rw [outcome, List.foldl_cons, ← outcome,
        inductionHypothesis fun other member => elsewhere other (by simp [member]),
        Write.put_other write files (elsewhere write (by simp))]

/-- Each write decides its own file, whatever the others do. -/
theorem outcome_at (separate : Separate writes) (member : write ∈ writes) :
    (outcome files writes)[write.path]? = (write.put files)[write.path]? := by
  induction writes generalizing files with
  | nil => cases member
  | cons first rest inductionHypothesis =>
      rw [outcome, List.foldl_cons, ← outcome]
      rcases List.mem_cons.mp member with rfl | later
      · exact outcome_other fun other present => (separate.head present).path_ne
      · rw [inductionHypothesis separate.tail later]
        exact write.put_congr (first.put_other files (separate.head later).path_ne.symm)

/-- A write of the list is as ready after the others as before them. -/
theorem ready_put_iff (separate : Separate (write :: rest)) {other : Write ε}
    (member : other ∈ rest) (id : Nat) :
    other.Ready id (write.put files) ↔ other.Ready id files := by
  refine other.ready_congr id fun place touched => write.put_other files ?_
  rintro rfl
  exact separate.head member id id _ (write.touches_path id) touched

theorem creates_put_iff (separate : Separate (write :: rest)) {other : Write ε}
    (member : other ∈ rest) : other.Creates (write.put files) ↔ other.Creates files :=
  other.creates_congr (write.put_other files (separate.head member).path_ne.symm)

/-- The run of a process whose crash point lies in none of these writes. -/
theorem performs_ready (files : Files) (separate : Separate writes) (process : Process) (calls : Nat)
    (spared : ∀ index < writes.length, process.crash ≠ some (.before (calls + index)))
    (whole : ∀ index write, writes[index]? = some write → write.Creates files →
      ∀ written, process.crash ≠ some (.inside (calls + index) written))
    (ready : ∀ write ∈ writes, write.Ready process.id files) :
    performs writes process ⟨files, calls⟩ = (⟨outcome files writes, calls + writes.length⟩, .ok ()) := by
  induction writes generalizing files calls with
  | nil => rfl
  | cons write rest inductionHypothesis =>
      have here : Write.Spared process ⟨files, calls⟩ write :=
        ⟨spared 0 (by simp), whole 0 write rfl⟩
      have first := Write.attempt_ready here (ready write (by simp))
      rw [performs, Program.bind_apply, first]
      dsimp only
      rw [inductionHypothesis _ separate.tail (calls + 1) ?_ ?_ ?_]
      · simp only [outcome, List.foldl_cons, List.length_cons, Nat.add_assoc, Nat.add_comm 1]
      · intro index below
        have later := spared (index + 1) (by simpa using below)
        rwa [Nat.add_assoc, Nat.add_comm 1 index]
      · intro index other found creates written
        have later := whole (index + 1) other found
          ((creates_put_iff separate (List.mem_of_getElem? found)).mp creates) written
        rwa [Nat.add_assoc, Nat.add_comm 1 index]
      · intro other member
        exact (ready_put_iff separate member process.id).mpr (ready other (by simp [member]))

/-- Without a crash a list of writes succeeds when nothing stands in its way. -/
theorem performs_ok_iff (files : Files) (separate : Separate writes) (id calls : Nat) :
    (performs writes ⟨id, none⟩ ⟨files, calls⟩).2 = .ok () ↔
      ∀ write ∈ writes, write.Ready id files := by
  induction writes generalizing files calls with
  | nil => simp [performs]
  | cons write rest inductionHypothesis =>
      rw [performs, Program.bind_apply]
      rw [Write.attempt_run]
      by_cases ready : write.Ready id files
      · rw [if_pos ready]
        dsimp only
        rw [inductionHypothesis _ separate.tail, List.forall_mem_cons, and_iff_right ready]
        exact forall₂_congr fun other member => ready_put_iff separate member id
      · rw [if_neg ready]
        simp [ready]

/-- Without a crash the writes done are a front part of the list. -/
theorem performs_front (writes : List (Write ε)) (files : Files) (id calls : Nat) :
    ∃ front rest, writes = front ++ rest ∧
      (performs writes ⟨id, none⟩ ⟨files, calls⟩).1.files = outcome files front ∧
      ((performs writes ⟨id, none⟩ ⟨files, calls⟩).2 = .ok () ↔ rest = []) := by
  induction writes generalizing files calls with
  | nil => exact ⟨[], [], rfl, rfl, by simp [performs]⟩
  | cons write rest inductionHypothesis =>
      rw [performs, Program.bind_apply]
      rw [Write.attempt_run]
      by_cases ready : write.Ready id files
      · obtain ⟨front, left, parts, after, ending⟩ :=
          inductionHypothesis (write.put files) (calls + 1)
        rw [if_pos ready]
        exact ⟨write :: front, left, by rw [parts, List.cons_append], after, ending⟩
      · rw [if_neg ready]
        exact ⟨[], write :: rest, rfl, rfl, by simp⟩

end Lists

/-! ## Running again after a crash -/

section Rerun

variable {finished rest : List (Write ε)} {write : Write ε} {files : Files} {first second : Nat}

theorem Write.Apart.symm {left right : Write ε} (apart : left.Apart right) : right.Apart left :=
  fun first second place touched other => apart second first place other touched

theorem Separate.done_apart (separate : Separate (finished ++ write :: rest)) {other : Write ε}
    (member : other ∈ finished) : other.Apart write :=
  (List.pairwise_append.mp separate.apart).2.2 other member write (by simp)

theorem Separate.rest_apart (separate : Separate (finished ++ write :: rest)) {other : Write ε}
    (member : other ∈ rest) : write.Apart other :=
  (List.pairwise_cons.mp (List.pairwise_append.mp separate.apart).2.1).1 other member

theorem Separate.front (separate : Separate (finished ++ write :: rest)) : Separate finished :=
  ⟨(List.pairwise_append.mp separate.apart).1,
    fun other member => separate.own other (by simp [member])⟩

/-- The writes before `write` do not touch its files. -/
theorem outcome_untouched (separate : Separate (finished ++ write :: rest)) (id : Nat) {place : String}
    (touched : write.Touches id place) : (outcome files finished)[place]? = files[place]? := by
  apply outcome_other
  rintro other member rfl
  exact separate.done_apart member id id _ (other.touches_path id) touched

theorem ready_outcome_iff (separate : Separate (finished ++ write :: rest)) (id : Nat) :
    write.Ready id (outcome files finished) ↔ write.Ready id files :=
  write.ready_congr id fun _ touched => outcome_untouched separate id touched

theorem creates_outcome_iff (separate : Separate (finished ++ write :: rest)) :
    write.Creates (outcome files finished) ↔ write.Creates files :=
  write.creates_congr (outcome_untouched separate 0 (write.touches_path 0))

/-- The files of a process that ends before this write. -/
theorem performs_crash_before (separate : Separate (finished ++ write :: rest)) {process : Process}
    (crash : process.crash = some (.before finished.length))
    (ready : ∀ other ∈ finished, other.Ready process.id files) :
    performs (finished ++ write :: rest) process ⟨files, 0⟩ =
      (⟨outcome files finished, finished.length⟩, .crash) := by
  have before := performs_ready files separate.front process 0
    (by
      intro index below same
      rw [crash, Option.some.injEq, CrashPoint.before.injEq] at same
      omega)
    (by intro index other _ _ written same; rw [crash] at same; cases same) ready
  rw [performs_append, Program.bind_apply, before]
  dsimp only
  rw [performs, Program.bind_apply, Write.attempt_before write process _ (by simpa using crash)]
  simp

/-- The files of a process that ends inside this write. -/
theorem performs_crash_inside (separate : Separate (finished ++ write :: rest)) {process : Process}
    {written : Nat} (crash : process.crash = some (.inside finished.length written))
    (ready : ∀ other ∈ finished ++ [write], other.Ready process.id files)
    (creates : write.Creates files) :
    performs (finished ++ write :: rest) process ⟨files, 0⟩ =
      (⟨write.torn process.id written (outcome files finished), finished.length + 1⟩, .crash) := by
  have before := performs_ready files separate.front process 0
    (by intro index below same; rw [crash] at same; cases same)
    (by
      intro index other found _ written same
      rw [crash, Option.some.injEq, CrashPoint.inside.injEq] at same
      have := (List.getElem?_eq_some_iff.mp found).1
      omega)
    (fun other member => ready other (by simp [member]))
  have here := Write.attempt_inside write process ⟨outcome files finished, 0 + finished.length⟩
    (by simpa using crash)
    ((ready_outcome_iff separate process.id).mpr (ready write (by simp)))
    ((creates_outcome_iff separate).mpr creates)
  rw [performs_append, Program.bind_apply, before]
  dsimp only
  rw [performs, Program.bind_apply, here]
  simp

/-- What stands in the file after a crash inside the write does not stop process
`second`: the sealed file is whole, or the temporary one is not its own. -/
def Write.Recovers (first second written : Nat) : Write ε → Prop
  | .sealed _ content _ _ => content.length ≤ written
  | .installed _ _ _ _ _ => second ≠ first

instance Write.decidableRecovers (first second written : Nat) (write : Write ε) :
    Decidable (write.Recovers first second written) :=
  match write with
  | .sealed _ content _ _ => inferInstanceAs (Decidable (content.length ≤ written))
  | .installed _ _ _ _ _ => inferInstanceAs (Decidable (second ≠ first))

theorem ready_torn_iff {written : Nat} (own : write.Own) (ready : write.Ready second files) :
    write.Ready second (write.torn first written files) ↔ write.Recovers first second written := by
  cases write with
  | sealed path content mode conflict =>
      rw [Write.Ready, Write.torn, Std.ExtTreeMap.getElem?_insert_self, Write.Recovers,
        ← List.take_eq_self_iff]
      constructor
      · intro holds
        exact holds _ rfl
      · intro whole file found
        cases found
        exact whole
  | installed temporary path content mode taken =>
      rw [Write.Ready, Write.torn, SortedMap.getElem?_insert, Write.Recovers]
      constructor
      · rintro free rfl
        simp at free
      · intro apart
        rw [if_neg fun same => apart (own.2 same).symm]
        exact ready

theorem put_torn {written : Nat} (creates : write.Creates files)
    (recovers : write.Recovers first second written) :
    (write.put (write.torn first written files))[write.path]? = (write.put files)[write.path]? := by
  cases write with
  | sealed path content mode conflict =>
      have whole : content.take written = content := List.take_of_length_le recovers
      have absent : path ∉ files := creates
      simp [Write.put, Write.torn, Write.path, absent, whole]
  | installed temporary path content mode taken => simp [Write.put, Write.path]

/-- The earlier writes of the list are in the way of no later run. -/
theorem ready_done (separate : Separate finished) {other : Write ε} (member : other ∈ finished) (id : Nat)
    (ready : other.Ready id files) : other.Ready id (outcome files finished) := by
  refine (other.ready_congr id ?_).mp (Write.ready_put (separate.own other member) ready)
  intro place touched
  by_cases own : place = other.path
  · rw [own, outcome_at separate member]
  · rw [other.put_other files own, outcome_other]
    rintro write present rfl
    by_cases same : other = write
    · exact own (by rw [same])
    · have symmetric : Std.Symm (Write.Apart (ε := ε)) := ⟨fun _ _ => Write.Apart.symm⟩
      have apart : other.Apart write := separate.apart.forall member present same
      exact apart id id _ touched (write.touches_path id)

theorem ready_after (separate : Separate (finished ++ write :: rest)) {other : Write ε}
    (member : other ∈ finished ∨ other ∈ rest) (id : Nat) (ready : other.Ready id files) :
    other.Ready id (outcome files finished) := by
  rcases member with earlier | later
  · exact ready_done separate.front earlier id ready
  · refine (other.ready_congr id fun place touched => outcome_other ?_).mpr ready
    rintro before present rfl
    have apart : before.Apart other :=
      (List.pairwise_append.mp separate.apart).2.2 before present other (by simp [later])
    exact apart id id _ (before.touches_path id) touched

theorem apart_of_other (separate : Separate (finished ++ write :: rest)) {other : Write ε}
    (member : other ∈ finished ∨ other ∈ rest) : other.Apart write := by
  rcases member with earlier | later
  · exact separate.done_apart earlier
  · exact (separate.rest_apart later).symm

theorem outcome_rerun_other (separate : Separate (finished ++ write :: rest)) {crashed : Files}
    {other : Write ε} (member : other ∈ finished ∨ other ∈ rest)
    (left : crashed[other.path]? = (outcome files finished)[other.path]?) :
    (outcome crashed (finished ++ write :: rest))[other.path]? =
      (outcome files (finished ++ write :: rest))[other.path]? := by
  have present : other ∈ finished ++ write :: rest := by
    rcases member with earlier | later
    · simp [earlier]
    · simp [later]
  rw [outcome_at separate present, outcome_at separate present]
  rcases member with earlier | later
  · rw [outcome_at separate.front earlier] at left
    rw [other.put_congr left, other.put_twice]
  · refine other.put_congr (left.trans (outcome_other ?_))
    intro before earlier
    have apart : before.Apart other :=
      (List.pairwise_append.mp separate.apart).2.2 before earlier other (by simp [later])
    exact apart.path_ne.symm

/-- A run that ended between two writes can be run again, to the same files. -/
theorem rerun_before (separate : Separate (finished ++ write :: rest))
    (ready : ∀ other ∈ finished ++ write :: rest, other.Ready second files) (calls : Nat) :
    (performs (finished ++ write :: rest) ⟨second, none⟩ ⟨outcome files finished, calls⟩).2 = .ok () ∧
      outcome (outcome files finished) (finished ++ write :: rest) = outcome files (finished ++ write :: rest) := by
  constructor
  · rw [performs_ok_iff _ separate]
    intro other member
    rcases List.mem_append.mp member with earlier | later
    · exact ready_after separate (Or.inl earlier) second (ready other member)
    · rcases List.mem_cons.mp later with rfl | later
      · exact (ready_outcome_iff separate second).mpr (ready other member)
      · exact ready_after separate (Or.inr later) second (ready other member)
  · refine Std.ExtTreeMap.ext_getElem? fun place => ?_
    by_cases target : ∃ other ∈ finished ++ write :: rest, place = other.path
    · obtain ⟨other, member, rfl⟩ := target
      rcases List.mem_append.mp member with earlier | later
      · exact outcome_rerun_other separate (Or.inl earlier) rfl
      · rcases List.mem_cons.mp later with rfl | later
        · rw [outcome_at separate member, outcome_at separate member]
          exact other.put_congr (outcome_untouched separate 0 (other.touches_path 0))
        · exact outcome_rerun_other separate (Or.inr later) rfl
    · have elsewhere : ∀ other ∈ finished ++ write :: rest, place ≠ other.path :=
        fun other member same => target ⟨other, member, same⟩
      rw [outcome_other elsewhere, outcome_other elsewhere,
        outcome_other fun other member => elsewhere other (by simp [member])]

/-- A run that ended inside a write can be run again exactly when what the write
left recovers. -/
theorem rerun_inside_iff (separate : Separate (finished ++ write :: rest))
    (ready : ∀ other ∈ finished ++ write :: rest, other.Ready second files) (calls written : Nat) :
    (performs (finished ++ write :: rest) ⟨second, none⟩
        ⟨write.torn first written (outcome files finished), calls⟩).2 = .ok () ↔
      write.Recovers first second written := by
  rw [performs_ok_iff _ separate]
  have here : write.Ready second (write.torn first written (outcome files finished)) ↔
      write.Recovers first second written :=
    ready_torn_iff (separate.own write (by simp))
      ((ready_outcome_iff separate second).mpr (ready write (by simp)))
  have others : ∀ other, other ∈ finished ∨ other ∈ rest → other.Ready second files →
      other.Ready second (write.torn first written (outcome files finished)) := by
    intro other member free
    refine (other.ready_congr second ?_).mpr (ready_after separate member second free)
    intro place touched
    exact write.torn_other first written _ fun mine =>
      apart_of_other separate member second first place touched mine
  constructor
  · intro all
    exact here.mp (all write (by simp))
  · intro recovers other member
    rcases List.mem_append.mp member with earlier | later
    · exact others other (Or.inl earlier) (ready other member)
    · rcases List.mem_cons.mp later with rfl | later
      · exact here.mpr recovers
      · exact others other (Or.inr later) (ready other member)

/-- Then it ends with the same files, the temporary one apart. -/
theorem rerun_inside_files (separate : Separate (finished ++ write :: rest)) {written : Nat}
    (creates : write.Creates files) (recovers : write.Recovers first second written)
    {place : String} (kept : write.Touches first place → place = write.path) :
    (outcome (write.torn first written (outcome files finished)) (finished ++ write :: rest))[place]? =
      (outcome files (finished ++ write :: rest))[place]? := by
  by_cases target : ∃ other ∈ finished ++ write :: rest, place = other.path
  · obtain ⟨other, member, rfl⟩ := target
    have others : other ∈ finished ∨ other ∈ rest →
        (write.torn first written (outcome files finished))[other.path]? =
          (outcome files finished)[other.path]? := fun present =>
      write.torn_other first written _
        (apart_of_other separate present 0 first other.path (other.touches_path 0))
    rcases List.mem_append.mp member with earlier | later
    · exact outcome_rerun_other separate (Or.inl earlier) (others (Or.inl earlier))
    · rcases List.mem_cons.mp later with rfl | later
      · rw [outcome_at separate member, outcome_at separate member,
          put_torn ((creates_outcome_iff separate).mpr creates) recovers]
        exact other.put_congr (outcome_untouched separate 0 (other.touches_path 0))
      · exact outcome_rerun_other separate (Or.inr later) (others (Or.inr later))
  · have elsewhere : ∀ other ∈ finished ++ write :: rest, place ≠ other.path :=
      fun other member same => target ⟨other, member, same⟩
    have untouched : ¬ write.Touches first place := fun touched =>
      elsewhere write (by simp) (kept touched)
    rw [outcome_other elsewhere, outcome_other elsewhere, write.torn_other first written _ untouched,
      outcome_other fun other member => elsewhere other (by simp [member])]

/-- What a crash at this point leaves can be run again by process `second`. -/
def Recoverable (first second : Nat) (files : Files) (writes : List (Write ε)) : CrashPoint → Prop
  | .before _ => True
  | .inside call written => ∀ write, writes[call]? = some write → write.Creates files →
      write.Recovers first second written

/-- What is true of the files a crash leaves. -/
structure Interrupted (first second : Nat) (files crashed : Files) (writes : List (Write ε))
    (point : CrashPoint) : Prop where
  rerun : ∀ calls, (performs writes ⟨second, none⟩ ⟨crashed, calls⟩).2 = .ok () ↔
    Recoverable first second files writes point
  same : Recoverable first second files writes point → ∀ place,
    (∀ write ∈ writes, write.Touches first place → place = write.path) →
    (outcome crashed writes)[place]? = (outcome files writes)[place]?
  /-- The target of the last write stands until that write is done. -/
  target : ∀ place, (∀ write ∈ writes, write.Touches first place →
      writes.getLast? = some write ∧ place = write.path ∧ write.target.temporary.isSome) →
    crashed[place]? = files[place]?

/-- The last write of a list is none of those done before it is reached. -/
theorem not_last (separate : Separate (finished ++ write :: rest)) {other : Write ε}
    (member : other ∈ finished) : (finished ++ write :: rest).getLast? ≠ some other := by
  intro last
  rw [List.getLast?_append_of_ne_nil _ (List.cons_ne_nil _ _)] at last
  have later : other ∈ write :: rest := List.mem_of_getLast? last
  have apart : other.Apart other := (List.pairwise_append.mp separate.apart).2.2 other member other later
  exact apart.path_ne rfl

theorem target_before (separate : Separate (finished ++ write :: rest)) {place : String}
    (last : ∀ other ∈ finished ++ write :: rest, other.Touches first place →
      (finished ++ write :: rest).getLast? = some other ∧ place = other.path ∧
        other.target.temporary.isSome) :
    (outcome files finished)[place]? = files[place]? := by
  apply outcome_other
  rintro other member rfl
  exact not_last separate member (last other (by simp [member]) (other.touches_path first)).1

theorem torn_target {written : Nat} (own : write.Own) {place : String}
    (target : write.Touches first place → place = write.path ∧ write.target.temporary.isSome) :
    (write.torn first written files)[place]? = files[place]? := by
  by_cases touched : write.Touches first place
  · obtain ⟨rfl, installed⟩ := target touched
    cases write with
    | sealed path content mode conflict => cases installed
    | installed temporary path content mode taken =>
        exact SortedMap.getElem?_insert_of_ne files _ (own.1 first)
  · exact write.torn_other first written files touched

/-- A run with a crash point ends, or leaves files of which `Interrupted` holds. -/
theorem performs_interrupted {writes : List (Write ε)} (separate : Separate writes)
    (ready : ∀ write ∈ writes, write.Ready first files)
    (again : ∀ write ∈ writes, write.Ready second files) (point : CrashPoint) :
    (performs writes ⟨first, some point⟩ ⟨files, 0⟩ =
        (⟨outcome files writes, writes.length⟩, .ok ()) ∧
      Recoverable first second files writes point) ∨
    ∃ crashed calls, performs writes ⟨first, some point⟩ ⟨files, 0⟩ = (⟨crashed, calls⟩, .crash) ∧
      Interrupted first second files crashed writes point := by
  cases point with
  | before call =>
      by_cases reached : call < writes.length
      · obtain ⟨finished, write, rest, rfl, rfl⟩ : ∃ finished write rest,
            writes = finished ++ write :: rest ∧ call = finished.length :=
          ⟨writes.take call, writes[call], writes.drop (call + 1),
            by rw [← List.drop_eq_getElem_cons reached, List.take_append_drop],
            by rw [List.length_take]; omega⟩
        refine Or.inr ⟨_, _, performs_crash_before separate rfl
          fun other member => ready other (by simp [member]), ?_⟩
        have rerun := rerun_before separate again
        exact {
          rerun := fun calls => ⟨fun _ => trivial, fun _ => (rerun calls).1⟩
          same := fun _ place _ => by rw [(rerun 0).2]
          target := fun place last => target_before separate last }
      · refine Or.inl ⟨?_, trivial⟩
        have whole := performs_ready files separate ⟨first, some (.before call)⟩ 0
          (by
            intro index below same
            rw [Option.some.injEq, CrashPoint.before.injEq] at same
            omega)
          (by
            intro index write _ _ written same
            cases same) ready
        rwa [Nat.zero_add] at whole
  | inside call written =>
      by_cases hit : ∃ write, writes[call]? = some write ∧ write.Creates files
      · obtain ⟨write, found, creates⟩ := hit
        obtain ⟨reached, same⟩ := List.getElem?_eq_some_iff.mp found
        obtain ⟨finished, rest, rfl, rfl⟩ : ∃ finished rest,
            writes = finished ++ write :: rest ∧ call = finished.length :=
          ⟨writes.take call, writes.drop (call + 1),
            by rw [← same, ← List.drop_eq_getElem_cons reached, List.take_append_drop],
            by rw [List.length_take]; omega⟩
        have recoverable : Recoverable first second files (finished ++ write :: rest)
            (.inside finished.length written) ↔ write.Recovers first second written := by
          constructor
          · intro all
            exact all write (by simp) creates
          · intro recovers other present _
            rw [List.getElem?_append_right (le_refl _), Nat.sub_self] at present
            cases present
            exact recovers
        refine Or.inr ⟨_, _, performs_crash_inside separate rfl (fun other member => ?_) creates, ?_⟩
        · apply ready
          rcases List.mem_append.mp member with earlier | here
          · simp [earlier]
          · simp [List.mem_singleton.mp here]
        exact {
          rerun := fun calls => (rerun_inside_iff separate again calls written).trans recoverable.symm
          same := by
            intro recovers place kept
            exact rerun_inside_files separate creates (recoverable.mp recovers) (kept write (by simp))
          target := by
            intro place last
            rw [torn_target (separate.own write (by simp))
              fun touched => (last write (by simp) touched).2]
            exact target_before separate last }
      · refine Or.inl ⟨?_, ?_⟩
        · have whole := performs_ready files separate ⟨first, some (.inside call written)⟩ 0
            (by
              intro index below same
              cases same)
            (by
              intro index write found creates bytes same
              rw [Option.some.injEq, CrashPoint.inside.injEq] at same
              have here : call = index := by omega
              exact hit ⟨write, here ▸ found, creates⟩) ready
          rwa [Nat.zero_add] at whole
        · intro write found creates
          exact absurd ⟨write, found, creates⟩ hit

end Rerun

/-! ## Plans -/

/-- Writes that depend on no file, and what comes of them. -/
structure Plan (ε α : Type) where
  writes : List (Write ε)
  result : Except ε α

namespace Plan

def bind (first : Plan ε α) (next : α → Plan ε β) : Plan ε β :=
  match first.result with
  | .ok value => ⟨first.writes ++ (next value).writes, (next value).result⟩
  | .error failure => ⟨first.writes, .error failure⟩

instance instMonadPlan : Monad (Plan ε) where
  pure value := ⟨[], .ok value⟩
  bind := Plan.bind

def fail (failure : ε) : Plan ε α := ⟨[], .error failure⟩

def write (write : Write ε) : Plan ε Unit := ⟨[write], .ok ()⟩

/-- The writes in order; the first that fails ends the run. -/
def run (plan : Plan ε α) : Program ε α := do
  performs plan.writes
  match plan.result with
  | .ok value => pure value
  | .error failure => Program.fail failure

@[simp] theorem pure_writes (value : α) : (pure value : Plan ε α).writes = [] := rfl

@[simp] theorem pure_result (value : α) : (pure value : Plan ε α).result = .ok value := rfl

@[simp] theorem fail_writes (failure : ε) : (fail failure : Plan ε α).writes = [] := rfl

@[simp] theorem fail_result (failure : ε) : (fail failure : Plan ε α).result = .error failure := rfl

@[simp] theorem write_writes (first : Write ε) : (write first).writes = [first] := rfl

@[simp] theorem write_result (first : Write ε) : (write first).result = .ok () := rfl

theorem bind_ok {first : Plan ε α} {value : α} (next : α → Plan ε β)
    (ok : first.result = .ok value) :
    first >>= next = ⟨first.writes ++ (next value).writes, (next value).result⟩ := by
  show Plan.bind first next = _
  rw [Plan.bind, ok]

theorem bind_error {first : Plan ε α} {failure : ε} (next : α → Plan ε β)
    (error : first.result = .error failure) : first >>= next = ⟨first.writes, .error failure⟩ := by
  show Plan.bind first next = _
  rw [Plan.bind, error]

theorem bind_result_ok {first : Plan ε α} {next : α → Plan ε β} {value : β}
    (ok : (first >>= next).result = .ok value) :
    ∃ middle, first.result = .ok middle ∧ (next middle).result = .ok value ∧
      (first >>= next).writes = first.writes ++ (next middle).writes := by
  cases reached : first.result with
  | error failure =>
      rw [bind_error next reached] at ok
      cases ok
  | ok middle =>
      rw [bind_ok next reached] at ok ⊢
      exact ⟨middle, rfl, ok, rfl⟩

/-- The writes of both parts, those of the second only when the first succeeds. -/
theorem bind_writes_sublist {first : Plan ε α} {next : α → Plan ε β} {left right : List Target}
    (before : (first.writes.map Write.target).Sublist left)
    (after : ∀ value, ((next value).writes.map Write.target).Sublist right) :
    ((first >>= next).writes.map Write.target).Sublist (left ++ right) := by
  cases reached : first.result with
  | error failure =>
      rw [bind_error next reached]
      exact before.trans (List.sublist_append_left left right)
  | ok middle =>
      rw [bind_ok next reached, List.map_append]
      exact before.append (after middle)

variable {plan : Plan ε α} {files : Files}

/-- The run without a crash. -/
theorem run_ok_iff (separate : Separate plan.writes) (id : Nat) (value : α) :
    (plan.run ⟨id, none⟩ ⟨files, 0⟩).2 = .ok value ↔
      plan.result = .ok value ∧ ∀ write ∈ plan.writes, write.Ready id files := by
  have steps := performs_ok_iff files separate id 0
  rw [run, Program.bind_apply]
  rcases performed : performs plan.writes ⟨id, none⟩ ⟨files, 0⟩ with ⟨after, done | failure | _⟩
  · rw [performed] at steps
    dsimp only
    rw [and_iff_left (steps.mp rfl)]
    cases plan.result <;> simp
  · rw [performed] at steps
    simpa using fun _ => mt steps.mpr (by simp)
  · rw [performed] at steps
    simpa using fun _ => mt steps.mpr (by simp)

theorem run_files (separate : Separate plan.writes) (id : Nat)
    (ready : ∀ write ∈ plan.writes, write.Ready id files) :
    (plan.run ⟨id, none⟩ ⟨files, 0⟩).1.files = outcome files plan.writes := by
  have performed := performs_ready files separate ⟨id, none⟩ 0 (by simp) (by simp) ready
  rw [run, Program.bind_apply, performed]
  dsimp only
  cases plan.result <;> rfl

end Plan

/-! ## Files a program keeps -/

/-- A file stands at this place, and the program leaves it there. -/
def KeepsFile (program : Program ε α) (place : String) : Prop :=
  ∀ id disk file, disk.files[place]? = some file →
    (program ⟨id, none⟩ disk).1.files[place]? = some file

theorem KeepsFile.bind {first : Program ε α}
    {next : α → Program ε β} {place : String} (head : KeepsFile first place)
    (tail : ∀ value, KeepsFile (next value) place) : KeepsFile (first >>= next) place := by
  intro id disk file held
  have middle := head id disk file held
  rw [Program.bind_apply]
  rcases ran : first ⟨id, none⟩ disk with ⟨after, value | failure | _⟩
  · rw [ran] at middle
    exact tail value id after file middle
  · rw [ran] at middle
    exact middle
  · rw [ran] at middle
    exact middle

theorem keepsFile_pure (value : α) (place : String) :
    KeepsFile (pure value : Program ε α) place := fun _ _ _ held => held

theorem keepsFile_fail (failure : ε) (place : String) :
    KeepsFile (Program.fail failure : Program ε α) place := fun _ _ _ held => held

theorem keepsFile_read (path place : String) :
    KeepsFile (Program.read path : Program ε (Option File)) place :=
  fun _ _ _ held => held

/-- A write keeps every file but the one it installs. -/
theorem keepsFile_attempt {write : Write ε} {place : String}
    (apart : write.target.temporary.isSome → place ≠ write.path) :
    KeepsFile write.attempt place := by
  intro id disk file held
  rw [Write.attempt_run]
  split
  · cases write with
    | sealed path content mode conflict =>
        have present : place ∈ disk.files := by
          rw [← Std.ExtTreeMap.isSome_getElem?_iff_mem, held]
          rfl
        show (if path ∈ disk.files then disk.files
          else disk.files.insert path ⟨content, mode⟩)[place]? = some file
        split
        · exact held
        · rename_i absent
          rw [SortedMap.getElem?_insert_of_ne _ _ (by rintro rfl; exact absent present)]
          exact held
    | installed temporary path content mode taken =>
        exact (Write.put_other _ _ (apart rfl)).trans held
  · exact held

theorem keepsFile_performs {writes : List (Write ε)} {place : String}
    (apart : ∀ write ∈ writes, write.target.temporary.isSome → place ≠ write.path) :
    KeepsFile (performs writes) place := by
  induction writes with
  | nil => exact keepsFile_pure () place
  | cons write rest inductionHypothesis =>
      exact (keepsFile_attempt (apart write (by simp))).bind fun _ =>
        inductionHypothesis fun other member => apart other (by simp [member])

theorem keepsFile_run {plan : Plan ε α} {place : String}
    (apart : ∀ write ∈ plan.writes, write.target.temporary.isSome → place ≠ write.path) :
    KeepsFile plan.run place := by
  refine (keepsFile_performs apart).bind fun _ => ?_
  cases plan.result with
  | ok value => exact keepsFile_pure value place
  | error failure => exact keepsFile_fail failure place

/-- The program does nothing at this place. -/
def Leaves (program : Program ε α) (place : String) : Prop :=
  ∀ id disk, (program ⟨id, none⟩ disk).1.files[place]? = disk.files[place]?

/-- A program that fails has done nothing at this place. -/
def KeepsOnError (program : Program ε α) (place : String) : Prop :=
  ∀ id disk failure, (program ⟨id, none⟩ disk).2 = .error failure →
    (program ⟨id, none⟩ disk).1.files[place]? = disk.files[place]?

theorem leaves_read (path place : String) :
    Leaves (Program.read path : Program ε (Option File)) place := fun _ _ => rfl

theorem leaves_attempt {write : Write ε} {place : String} (apart : place ≠ write.path) :
    Leaves write.attempt place := by
  intro id disk
  rw [Write.attempt_run]
  split
  · exact write.put_other _ apart
  · rfl

theorem keepsOnError_pure (value : α) (place : String) :
    KeepsOnError (pure value : Program ε α) place := fun _ _ _ _ => rfl

theorem keepsOnError_fail (failure : ε) (place : String) :
    KeepsOnError (Program.fail failure : Program ε α) place := fun _ _ _ _ => rfl

theorem keepsOnError_attempt (write : Write ε) (place : String) :
    KeepsOnError write.attempt place := by
  intro id disk failure failed
  rw [Write.attempt_run] at failed ⊢
  split at failed
  · cases failed
  · rename_i blocked
    rw [if_neg blocked]

theorem Leaves.bind {first : Program ε α} {next : α → Program ε β} {place : String}
    (head : Leaves first place) (tail : ∀ value, KeepsOnError (next value) place) :
    KeepsOnError (first >>= next) place := by
  intro id disk failure failed
  have left := head id disk
  rw [Program.bind_apply] at failed ⊢
  rcases ran : first ⟨id, none⟩ disk with ⟨after, value | error | _⟩
  · rw [ran] at left failed
    exact (tail value id after failure failed).trans left
  · rw [ran] at left
    exact left
  · rw [ran] at left
    exact left

theorem KeepsOnError.map {first : Program ε α} {place : String} (head : KeepsOnError first place)
    (change : α → β) : KeepsOnError (first >>= fun value => pure (change value)) place := by
  intro id disk failure failed
  have left := head id disk
  rw [Program.bind_apply] at failed ⊢
  rcases ran : first ⟨id, none⟩ disk with ⟨after, value | error | _⟩
  · rw [ran] at failed
    cases failed
  · rw [ran] at left
    exact left error rfl
  · rw [ran] at failed
    cases failed

end SystemPilot.Library.CrashFiles
