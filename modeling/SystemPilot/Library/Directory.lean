import Mathlib.Data.List.AList
import SystemPilot.Library.Program

/-!
# A directory

Names of files and the contents of the files, which are written through the number
an open file has: a file that is renamed or removed stays open.  The operations
succeed or fail by what is there.  A listing is read at once, in an order the
environment chooses.
-/

set_option autoImplicit false

namespace SystemPilot.Library

/-- Every file there is has a number below the next one. -/
structure Disk where
  files : AList fun _ : String => Nat
  contents : Nat → List UInt8
  next : Nat
  bound : ∀ name file, files.lookup name = some file → file < next

inductive FileOp where
  | readDir
  | remove (name : String)
  | createNew (name : String)
  | write (file : Nat) (bytes : List UInt8)
  | rename (source target : String)
  | read (name : String)
  | metadata (name : String)
  | now
  deriving DecidableEq

namespace FileOp

/-- Whether the name was there, the number of the file, or what was read. -/
abbrev Result : FileOp → Type
  | readDir => List String
  | remove _ => Bool
  | createNew _ => Option Nat
  | write _ _ => Unit
  | rename _ _ => Bool
  | read _ => Option (List UInt8)
  | metadata _ => Option Nat
  | now => Int

/-- The operation makes the name. -/
def Makes (name : String) : FileOp → Prop
  | .createNew created => created = name
  | .rename _ target => target = name
  | _ => False

/-- The operation takes the name away. -/
def Takes (name : String) : FileOp → Prop
  | .remove removed => removed = name
  | .rename source _ => source = name
  | _ => False

instance (name : String) : (op : FileOp) → Decidable (op.Takes name)
  | .remove removed => inferInstanceAs (Decidable (removed = name))
  | .rename source _ => inferInstanceAs (Decidable (source = name))
  | .readDir => inferInstanceAs (Decidable False)
  | .createNew _ => inferInstanceAs (Decidable False)
  | .write _ _ => inferInstanceAs (Decidable False)
  | .read _ => inferInstanceAs (Decidable False)
  | .metadata _ => inferInstanceAs (Decidable False)
  | .now => inferInstanceAs (Decidable False)

/-- The result is not the number of a new file `file`. -/
def Spares (file : Nat) : (op : FileOp) → op.Result → Prop
  | .createNew _, created => created ≠ some file
  | _, _ => True

end FileOp

/-- The order of a listing, and the time since the epoch. -/
structure Surroundings where
  order : List String → List String
  perm : ∀ names, (order names).Perm names
  clock : Int

namespace Disk

section Bounds

variable {files : AList fun _ : String => Nat} {next : Nat}
variable (bound : ∀ name file, files.lookup name = some file → file < next)

include bound

theorem bound_erase (source : String) :
    ∀ name file, (files.erase source).lookup name = some file → file < next := by
  intro name file found
  by_cases same : name = source
  · rw [same, AList.lookup_erase] at found
    cases found
  · rw [AList.lookup_erase_ne same] at found
    exact bound name file found

theorem bound_insert (target : String) {new limit : Nat} (below : new < limit)
    (grown : next ≤ limit) :
    ∀ name file, (files.insert target new).lookup name = some file → file < limit := by
  intro name file found
  by_cases same : name = target
  · rw [same, AList.lookup_insert, Option.some.injEq] at found
    rwa [← found]
  · rw [AList.lookup_insert_ne same] at found
    exact (bound name file found).trans_le grown

end Bounds

variable (disk : Disk)

/-- The contents of a name. -/
def find (name : String) : Option (List UInt8) := (disk.files.lookup name).map disk.contents

def remove (name : String) : Disk :=
  { disk with files := disk.files.erase name, bound := bound_erase disk.bound name }

/-- A new file without contents. -/
def create (name : String) : Disk where
  files := disk.files.insert name disk.next
  contents := Function.update disk.contents disk.next []
  next := disk.next + 1
  bound := bound_insert disk.bound name disk.next.lt_succ_self disk.next.le_succ

def write (file : Nat) (bytes : List UInt8) : Disk :=
  { disk with contents := Function.update disk.contents file bytes }

/-- A file under another name, which replaces what was there. -/
def rename (source target : String) (file : Nat) (there : disk.files.lookup source = some file) :
    Disk where
  files := (disk.files.erase source).insert target file
  contents := disk.contents
  next := disk.next
  bound := bound_insert (bound_erase disk.bound source) target (disk.bound source file there) le_rfl

def move (source target : String) : Bool × Disk :=
  match there : disk.files.lookup source with
  | none => (false, disk)
  | some file => (true, disk.rename source target file there)

def perform : (op : FileOp) → Surroundings → Disk → op.Result × Disk
  | .readDir, surroundings, disk => (surroundings.order disk.files.keys, disk)
  | .remove name, _, disk => (name ∈ disk.files, disk.remove name)
  | .createNew name, _, disk =>
      if name ∈ disk.files then (none, disk) else (some disk.next, disk.create name)
  | .write file bytes, _, disk => ((), disk.write file bytes)
  | .rename source target, _, disk => disk.move source target
  | .read name, _, disk => (disk.find name, disk)
  | .metadata name, _, disk => ((disk.find name).map List.length, disk)
  | .now, surroundings, disk => (surroundings.clock, disk)

end Disk

def fileEffects : Effects FileOp.Result Surroundings Disk where
  perform := Disk.perform

namespace Disk

variable {disk : Disk}

theorem mem_order_keys (surroundings : Surroundings) {name : String} :
    name ∈ surroundings.order disk.files.keys ↔ name ∈ disk.files := by
  rw [(surroundings.perm disk.files.keys).mem_iff]
  rfl

theorem find_isSome {name : String} : (disk.find name).isSome ↔ name ∈ disk.files := by
  rw [find, Option.isSome_map, AList.lookup_isSome]

theorem lookup_remove (name other : String) :
    (disk.remove name).files.lookup other =
      if other = name then none else disk.files.lookup other := by
  change (disk.files.erase name).lookup other = _
  by_cases same : other = name
  · rw [if_pos same, same, AList.lookup_erase]
  · rw [if_neg same, AList.lookup_erase_ne same]

theorem lookup_create (name other : String) :
    (disk.create name).files.lookup other =
      if other = name then some disk.next else disk.files.lookup other := by
  change (disk.files.insert name disk.next).lookup other = _
  by_cases same : other = name
  · rw [if_pos same, same, AList.lookup_insert]
  · rw [if_neg same, AList.lookup_insert_ne same]

theorem lookup_rename {source : String} (target : String) {file : Nat}
    (there : disk.files.lookup source = some file) (other : String) :
    (disk.rename source target file there).files.lookup other =
      if other = target then some file
      else if other = source then none else disk.files.lookup other := by
  change ((disk.files.erase source).insert target file).lookup other = _
  by_cases same : other = target
  · rw [if_pos same, same, AList.lookup_insert]
  · rw [if_neg same, AList.lookup_insert_ne same]
    exact lookup_remove source other

theorem find_remove (name other : String) :
    (disk.remove name).find other = if other = name then none else disk.find other := by
  rw [find, lookup_remove]
  split
  · rfl
  · rfl

theorem find_create (name other : String) :
    (disk.create name).find other = if other = name then some [] else disk.find other := by
  rw [find, lookup_create]
  split
  · exact congrArg some (Function.update_self _ _ _)
  · rw [find]
    cases there : disk.files.lookup other with
    | none => rfl
    | some file =>
        -- no file has the number of the new one yet
        have old : file ≠ disk.next := (disk.bound other file there).ne
        exact congrArg some (Function.update_of_ne old _ _)

/-- The new file has one name. -/
theorem lookup_create_iff (name other : String) :
    (disk.create name).files.lookup other = some disk.next ↔ other = name := by
  rw [lookup_create]
  split
  · rename_i same
    simp [same]
  · rename_i apart
    refine ⟨fun there => ?_, fun same => absurd same apart⟩
    exact absurd (disk.bound other disk.next there) (lt_irrefl _)

theorem find_write {file : Nat} (bytes : List UInt8) {name : String}
    (own : ∀ other, disk.files.lookup other = some file ↔ other = name) (other : String) :
    (disk.write file bytes).find other = if other = name then some bytes else disk.find other := by
  rw [find, find]
  change (disk.files.lookup other).map (Function.update disk.contents file bytes) = _
  by_cases same : other = name
  · rw [if_pos same, (own other).mpr same]
    exact congrArg some (Function.update_self _ _ _)
  · rw [if_neg same]
    cases there : disk.files.lookup other with
    | none => rfl
    | some held =>
        have apart : held ≠ file := fun equal => same ((own other).mp (equal ▸ there))
        exact congrArg some (Function.update_of_ne apart _ _)

theorem find_rename {source : String} (target : String) {file : Nat}
    (there : disk.files.lookup source = some file) (other : String) :
    (disk.rename source target file there).find other =
      if other = target then disk.find source
      else if other = source then none else disk.find other := by
  rw [find, lookup_rename]
  split
  · rw [find, there]
    rfl
  · split
    · rfl
    · rfl

/-! ## The operations by what is there -/

theorem move_of_missing {source target : String} (missing : disk.files.lookup source = none) :
    disk.move source target = (false, disk) := by
  unfold move
  split
  · rfl
  · rename_i held found
    rw [missing] at found
    cases found

theorem perform_createNew {name : String} (free : name ∉ disk.files) (surroundings : Surroundings) :
    perform (.createNew name) surroundings disk = (some disk.next, disk.create name) :=
  if_neg free

theorem move_of_lookup {source target : String} {file : Nat}
    (there : disk.files.lookup source = some file) :
    disk.move source target = (true, disk.rename source target file there) := by
  unfold move
  split
  · rename_i missing
    rw [missing] at there
    cases there
  · rename_i held found
    obtain rfl : held = file := Option.some.inj (found.symm.trans there)
    rfl

/-! ## What an operation leaves -/

section Frame

variable {op : FileOp} {surroundings : Surroundings} {name : String} {file : Nat}

theorem move_cases (disk : Disk) (source target : String) :
    disk.move source target = (false, disk) ∨ ∃ file there,
      disk.move source target = (true, disk.rename source target file there) := by
  by_cases missing : disk.files.lookup source = none
  · exact Or.inl (move_of_missing missing)
  · obtain ⟨file, there⟩ := Option.ne_none_iff_exists'.mp missing
    exact Or.inr ⟨file, there, move_of_lookup there⟩

theorem next_le_perform : disk.next ≤ (perform op surroundings disk).2.next := by
  cases op with
  | createNew created =>
      rw [perform]
      split
      · exact le_rfl
      · exact Nat.le_succ disk.next
  | rename source target =>
      rcases move_cases disk source target with missing | ⟨file, there, moved⟩
      · rw [perform, missing]
      · rw [perform, moved]
        exact le_rfl
  | _ => exact le_rfl

/-- A new file has the number that was the next one. -/
theorem spares_perform (other : file < disk.next ∨ (perform op surroundings disk).2.next ≤ file) :
    FileOp.Spares file op (perform op surroundings disk).1 := by
  cases op with
  | createNew created =>
      rw [perform] at other ⊢
      split
      · intro impossible
        cases impossible
      · rename_i free
        rw [if_neg free] at other
        change file < disk.next ∨ disk.next + 1 ≤ file at other
        intro same
        obtain rfl : disk.next = file := Option.some.inj same
        omega
  | _ => trivial

theorem mem_of_mem_perform (made : ¬ op.Makes name)
    (there : name ∈ (perform op surroundings disk).2.files) : name ∈ disk.files := by
  rw [← find_isSome] at there ⊢
  cases op with
  | remove removed =>
      change ((disk.remove removed).find name).isSome at there
      rw [find_remove] at there
      split at there
      · cases there
      · exact there
  | createNew created =>
      rw [perform] at there
      split at there
      · exact there
      · change ((disk.create created).find name).isSome at there
        rw [find_create, if_neg (fun same => made same.symm)] at there
        exact there
  | write written bytes =>
      rw [find_isSome] at there ⊢
      exact there
  | rename source target =>
      rcases move_cases disk source target with missing | ⟨moving, held, moved⟩
      · rw [perform, missing] at there
        exact there
      · rw [perform, moved] at there
        change ((disk.rename source target moving held).find name).isSome at there
        rw [find_rename, if_neg (fun same => made same.symm)] at there
        split at there
        · cases there
        · exact there
  | _ => exact there

/-- An open file keeps its one name. -/
theorem lookup_perform_iff (held : ∀ other, disk.files.lookup other = some file ↔ other = name)
    (kept : ¬ op.Takes name) (made : ∀ source, op ≠ .rename source name) (other : String) :
    (perform op surroundings disk).2.files.lookup other = some file ↔ other = name := by
  cases op with
  | remove removed =>
      change (disk.remove removed).files.lookup other = some file ↔ _
      rw [lookup_remove]
      split
      · rename_i same
        refine ⟨fun impossible => ?_, fun equal => absurd (same.symm.trans equal) kept⟩
        cases impossible
      · exact held other
  | createNew created =>
      rw [perform]
      split
      · exact held other
      · rename_i free
        change (disk.create created).files.lookup other = some file ↔ _
        rw [lookup_create]
        have old : file < disk.next := disk.bound name file ((held name).mpr rfl)
        split
        · rename_i same
          constructor
          · intro impossible
            obtain rfl : disk.next = file := Option.some.inj impossible
            exact absurd old (lt_irrefl _)
          · rintro rfl
            refine absurd ?_ free
            rw [← same, ← AList.lookup_isSome, (held other).mpr rfl]
            rfl
        · exact held other
  | rename source target =>
      rcases move_cases disk source target with missing | ⟨moving, there, moved⟩
      · rw [perform, missing]
        exact held other
      · rw [perform, moved]
        change (disk.rename source target moving there).files.lookup other = some file ↔ _
        rw [lookup_rename]
        have apart : target ≠ name := fun same => made source (by rw [same])
        split
        · rename_i same
          constructor
          · intro equal
            -- the moved file is another one: it has another name
            obtain rfl : moving = file := Option.some.inj equal
            exact absurd ((held source).mp there) kept
          · intro equal
            exact absurd (same.symm.trans equal) apart
        · split
          · rename_i same
            refine ⟨fun impossible => ?_, fun equal => absurd (same.symm.trans equal) kept⟩
            cases impossible
          · exact held other
  | _ => exact held other

theorem contents_perform (old : file < disk.next) (apart : ∀ bytes, op ≠ .write file bytes) :
    (perform op surroundings disk).2.contents file = disk.contents file := by
  cases op with
  | createNew created =>
      rw [perform]
      split
      · rfl
      · exact Function.update_of_ne old.ne _ _
  | write written bytes =>
      refine Function.update_of_ne ?_ _ _
      rintro rfl
      exact apart bytes rfl
  | rename source target =>
      rcases move_cases disk source target with missing | ⟨moving, there, moved⟩
      · rw [perform, missing]
      · rw [perform, moved]
        rfl
  | _ => rfl

end Frame

/-! ## A file that is written under one name and moved to another -/

theorem lookup_written (source : String) (bytes : List UInt8) :
    ((disk.create source).write disk.next bytes).files.lookup source = some disk.next :=
  (lookup_create_iff source source).mpr rfl

theorem find_written (source : String) (bytes : List UInt8) (other : String) :
    ((disk.create source).write disk.next bytes).find other =
      if other = source then some bytes else disk.find other := by
  rw [find_write bytes (lookup_create_iff source), find_create]
  split
  · rfl
  · rfl

/-- The new file under its final name. -/
def place (disk : Disk) (source target : String) (bytes : List UInt8) : Disk :=
  ((disk.create source).write disk.next bytes).rename source target disk.next
    (lookup_written source bytes)

theorem move_written (source target : String) (bytes : List UInt8) :
    ((disk.create source).write disk.next bytes).move source target =
      (true, disk.place source target bytes) :=
  move_of_lookup (lookup_written source bytes)

theorem find_place (source target : String) (bytes : List UInt8) (other : String) :
    (disk.place source target bytes).find other =
      if other = target then some bytes
      else if other = source then none else disk.find other := by
  rw [place, find_rename, find_written, find_written, if_pos rfl]
  by_cases same : other = source
  · rw [if_pos same, if_pos same]
  · rw [if_neg same, if_neg same, if_neg same]

end Disk

end SystemPilot.Library
