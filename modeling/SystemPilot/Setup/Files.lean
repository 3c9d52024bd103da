import SystemPilot.Text.Fields
import SystemPilot.Configuration.Places
import SystemPilot.Library.RelyGuarantee

/-!
# File operations of an installation

The calls installing and saving make, each of which may fail, with what a failed one
leaves behind.  A process that ends does so between two calls or in a failed one.
-/

set_option autoImplicit false

namespace SystemPilot.Setup

open SystemPilot.Library
open SystemPilot.Library.CrashFiles (File Files)
open SystemPilot.Text
open SystemPilot.Configuration

inductive FileOp where
  | present (path : String)
  | createDir (path : String)
  | secureDir (path : String)
  | openDir (path : String)
  | syncDir (path : String)
  /-- `fs::write`. -/
  | write (path : String) (content : List UInt8)
  /-- Opening with `create_new`. -/
  | create (path : String) (mode : Nat)
  /-- `write_all` and `sync_all` on a file just created. -/
  | fill (path : String) (content : List UInt8)
  | copy (source target : String)
  | setMode (path : String) (mode : Nat)
  | rename (source target : String)
  | remove (path : String)
  deriving DecidableEq, Repr

/-- Every call says whether it succeeded, `present` whether the file is there. -/
abbrev FileOp.Result (_ : FileOp) : Type := Bool

/-- Whether a call fails; `written` is what a write that fails leaves of its content,
none when the file could not be opened. -/
structure Fault where
  fails : Bool
  written : Option Nat
  deriving DecidableEq, Repr

/-- The mode of a file `fs::write` creates. -/
def defaultMode : Nat := 0o644

/-- The file a write that fails leaves. -/
def torn (files : Files) (path : String) (content : List UInt8) (mode : Nat) :
    Option Nat → Files
  | none => files
  | some count => files.insert path ⟨content.take count, mode⟩

def perform (op : FileOp) (fault : Fault) (files : Files) : Bool × Files :=
  match op with
  | .present path => (path ∈ files, files)
  | .createDir _ | .secureDir _ | .openDir _ | .syncDir _ => (!fault.fails, files)
  | .write path content =>
      let mode := (files[path]?.map File.mode).getD defaultMode
      if fault.fails then (false, torn files path content mode fault.written)
      else (true, files.insert path ⟨content, mode⟩)
  | .create path mode =>
      if fault.fails || decide (path ∈ files) then (false, files)
      else (true, files.insert path ⟨[], mode⟩)
  | .fill path content =>
      match files[path]? with
      | none => (!fault.fails, files)
      | some file =>
          if fault.fails then (false, torn files path content file.mode fault.written)
          else (true, files.insert path ⟨content, file.mode⟩)
  | .copy source target =>
      match files[source]? with
      | none => (false, files)
      | some file =>
          if fault.fails then (false, torn files target file.content file.mode fault.written)
          else (true, files.insert target file)
  | .setMode path mode =>
      match files[path]? with
      | none => (false, files)
      | some file =>
          if fault.fails then (false, files) else (true, files.insert path { file with mode })
  | .rename source target =>
      match files[source]? with
      | none => (false, files)
      | some file =>
          if fault.fails then (false, files)
          else (true, (files.erase source).insert target file)
  | .remove path =>
      if fault.fails || !decide (path ∈ files) then (false, files) else (true, files.erase path)

def effects : Effects FileOp.Result Fault Files where
  perform := perform

abbrev Script (Value : Type) := Program FileOp.Result Value

instance instMonadScript : Monad Script where
  pure := .done
  bind := Program.bind

def call (op : FileOp) : Script Bool := .perform op .done

/-! ## What a call touches -/

/-- The files a call may change. -/
def FileOp.touched : FileOp → List String
  | .present _ | .createDir _ | .secureDir _ | .openDir _ | .syncDir _ => []
  | .write path _ | .create path _ | .fill path _ | .setMode path _ | .remove path => [path]
  | .copy _ target => [target]
  | .rename source target => [source, target]

theorem torn_other {files : Files} {path other : String} {content : List UInt8} {mode : Nat}
    (written : Option Nat) (elsewhere : other ≠ path) :
    (torn files path content mode written)[other]? = files[other]? := by
  cases written with
  | none => rfl
  | some count => exact SortedMap.getElem?_insert_of_ne _ _ elsewhere.symm

/-- A call leaves every other file alone. -/
theorem perform_other (op : FileOp) (fault : Fault) (files : Files) {path : String}
    (elsewhere : path ∉ op.touched) : (perform op fault files).2[path]? = files[path]? := by
  cases op with
  | present _ | createDir _ | secureDir _ | openDir _ | syncDir _ => rfl
  | write target content =>
      have apart : path ≠ target := by simpa [FileOp.touched] using elsewhere
      simp only [perform]
      split
      · exact torn_other _ apart
      · exact SortedMap.getElem?_insert_of_ne _ _ apart.symm
  | create target mode =>
      have apart : path ≠ target := by simpa [FileOp.touched] using elsewhere
      simp only [perform]
      split
      · rfl
      · exact SortedMap.getElem?_insert_of_ne _ _ apart.symm
  | fill target content =>
      have apart : path ≠ target := by simpa [FileOp.touched] using elsewhere
      simp only [perform]
      split
      · rfl
      · split
        · exact torn_other _ apart
        · exact SortedMap.getElem?_insert_of_ne _ _ apart.symm
  | copy source target =>
      have apart : path ≠ target := by simpa [FileOp.touched] using elsewhere
      simp only [perform]
      split
      · rfl
      · split
        · exact torn_other _ apart
        · exact SortedMap.getElem?_insert_of_ne _ _ apart.symm
  | setMode target mode =>
      have apart : path ≠ target := by simpa [FileOp.touched] using elsewhere
      simp only [perform]
      split
      · rfl
      · split
        · rfl
        · exact SortedMap.getElem?_insert_of_ne _ _ apart.symm
  | rename source target =>
      have apart : path ≠ source ∧ path ≠ target := by simpa [FileOp.touched] using elsewhere
      simp only [perform]
      split
      · rfl
      · split
        · rfl
        · rw [SortedMap.getElem?_insert_of_ne _ _ apart.2.symm,
            SortedMap.getElem?_erase_of_ne _ apart.1.symm]
  | remove target =>
      have apart : path ≠ target := by simpa [FileOp.touched] using elsewhere
      simp only [perform]
      split
      · rfl
      · exact SortedMap.getElem?_erase_of_ne _ apart.symm

/-- A call that touches no file changes none. -/
theorem perform_quiet {op : FileOp} (quiet : op.touched = []) (fault : Fault) (files : Files) :
    (perform op fault files).2 = files :=
  Std.ExtTreeMap.ext_getElem? fun _ => perform_other op fault files (by simp [quiet])

/-- The files a call depends on. -/
def FileOp.named : FileOp → List String
  | .present path => [path]
  | .copy source target => [source, target]
  | op => op.touched

theorem FileOp.touched_named (op : FileOp) {path : String} (touched : path ∈ op.touched) :
    path ∈ op.named := by
  cases op with
  | present _ => cases touched
  | copy source target => exact List.mem_cons_of_mem source touched
  | _ => exact touched

/-- Two file systems that have the same files within some paths. -/
def Agree (within : String → Prop) (left right : Files) : Prop :=
  ∀ path, within path → left[path]? = right[path]?

section Agreement

variable {within : String → Prop} {left right : Files}

theorem Agree.mem_iff (agree : Agree within left right) {path : String} (inside : within path) :
    path ∈ left ↔ path ∈ right := by
  rw [Std.ExtTreeMap.mem_iff_isSome_getElem?, Std.ExtTreeMap.mem_iff_isSome_getElem?,
    agree path inside]

theorem Agree.insert (agree : Agree within left right) (target : String) (file : File) :
    Agree within (left.insert target file) (right.insert target file) := by
  intro path inside
  rw [Std.ExtTreeMap.getElem?_insert, Std.ExtTreeMap.getElem?_insert, agree path inside]

theorem Agree.erase (agree : Agree within left right) (target : String) :
    Agree within (left.erase target) (right.erase target) := by
  intro path inside
  rw [Std.ExtTreeMap.getElem?_erase, Std.ExtTreeMap.getElem?_erase, agree path inside]

theorem Agree.torn (agree : Agree within left right) (path : String) (content : List UInt8)
    (mode : Nat) (written : Option Nat) :
    Agree within (torn left path content mode written) (torn right path content mode written) := by
  cases written with
  | none => exact agree
  | some count => exact agree.insert path _

/-- A call within the paths does not tell the file systems apart. -/
theorem perform_agree (op : FileOp) (fault : Fault) (inside : ∀ path ∈ op.named, within path)
    (agree : Agree within left right) :
    (perform op fault left).1 = (perform op fault right).1 ∧
      Agree within (perform op fault left).2 (perform op fault right).2 := by
  cases op with
  | createDir _ | secureDir _ | openDir _ | syncDir _ => exact ⟨rfl, agree⟩
  | present path =>
      have here : within path := inside path (by simp [FileOp.named])
      simp only [perform, agree.mem_iff here]
      exact ⟨trivial, agree⟩
  | write path content =>
      have here : within path := inside path (by simp [FileOp.named, FileOp.touched])
      simp only [perform, agree path here]
      split
      · exact ⟨rfl, agree.torn _ _ _ _⟩
      · exact ⟨rfl, agree.insert _ _⟩
  | create path mode =>
      have here : within path := inside path (by simp [FileOp.named, FileOp.touched])
      simp only [perform, agree.mem_iff here]
      split
      · exact ⟨rfl, agree⟩
      · exact ⟨rfl, agree.insert _ _⟩
  | fill path content =>
      have here : within path := inside path (by simp [FileOp.named, FileOp.touched])
      simp only [perform, agree path here]
      split
      · exact ⟨rfl, agree⟩
      · split
        · exact ⟨rfl, agree.torn _ _ _ _⟩
        · exact ⟨rfl, agree.insert _ _⟩
  | copy source target =>
      have here : within source := inside source (by simp [FileOp.named])
      simp only [perform, agree source here]
      split
      · exact ⟨rfl, agree⟩
      · split
        · exact ⟨rfl, agree.torn _ _ _ _⟩
        · exact ⟨rfl, agree.insert _ _⟩
  | setMode path mode =>
      have here : within path := inside path (by simp [FileOp.named, FileOp.touched])
      simp only [perform, agree path here]
      split
      · exact ⟨rfl, agree⟩
      · split
        · exact ⟨rfl, agree⟩
        · exact ⟨rfl, agree.insert _ _⟩
  | rename source target =>
      have here : within source := inside source (by simp [FileOp.named, FileOp.touched])
      simp only [perform, agree source here]
      split
      · exact ⟨rfl, agree⟩
      · split
        · exact ⟨rfl, agree⟩
        · exact ⟨rfl, (agree.erase source).insert _ _⟩
  | remove path =>
      have here : within path := inside path (by simp [FileOp.named, FileOp.touched])
      simp only [perform, agree.mem_iff here]
      split
      · exact ⟨rfl, agree⟩
      · exact ⟨rfl, agree.erase path⟩

end Agreement

/-! ## What a call does -/

section Calls

variable {fault : Fault} {files : Files} {path : String} {content : List UInt8} {mode : Nat}
  {file : File}

theorem perform_create : (perform (.create path mode) fault files).2 =
    if (perform (.create path mode) fault files).1 then files.insert path ⟨[], mode⟩ else files := by
  simp only [perform]
  split <;> rfl

theorem perform_write (written : (perform (.write path content) fault files).1 = true) :
    ∃ mode, (perform (.write path content) fault files).2[path]? = some ⟨content, mode⟩ := by
  simp only [perform] at written ⊢
  split at written
  · cases written
  · rename_i succeeds
    rw [if_neg succeeds]
    exact ⟨_, Std.ExtTreeMap.getElem?_insert_self⟩

theorem perform_fill (there : files[path]? = some file)
    (filled : (perform (.fill path content) fault files).1 = true) :
    (perform (.fill path content) fault files).2 = files.insert path ⟨content, file.mode⟩ := by
  simp only [perform, there] at filled ⊢
  split at filled
  · cases filled
  · rename_i succeeds
    rw [if_neg succeeds]

theorem perform_setMode (there : files[path]? = some file) :
    (perform (.setMode path mode) fault files).2 =
      if (perform (.setMode path mode) fault files).1 then files.insert path { file with mode }
      else files := by
  simp only [perform, there]
  split <;> rfl

theorem perform_rename {target : String} (there : files[path]? = some file) :
    (perform (.rename path target) fault files).2 =
      if (perform (.rename path target) fault files).1 then (files.erase path).insert target file
      else files := by
  simp only [perform, there]
  split <;> rfl

theorem perform_remove : (perform (.remove path) fault files).2 =
    if (perform (.remove path) fault files).1 then files.erase path else files := by
  simp only [perform]
  split <;> rfl

end Calls

/-! ## File names -/

/-- The characters after the last slash. -/
def fileName (path : String) : List Char := (path.toList.reverse.takeWhile (· ≠ '/')).reverse

theorem fileName_joinPath (directory : String) {name : String} (plain : '/' ∉ name.toList) :
    fileName (joinPath directory name) = name.toList := by
  have own : ∀ letter ∈ name.toList.reverse, decide (letter ≠ '/') = true := by
    intro letter member
    rw [List.mem_reverse] at member
    exact decide_eq_true fun slash => plain (slash ▸ member)
  have lead : (pathLead directory).toList.reverse.takeWhile (· ≠ '/') = [] := by
    unfold pathLead
    split
    · rename_i ends
      rcases ends with rfl | ends
      · rfl
      · obtain ⟨lead, same⟩ : "/".toList <:+ directory.toList := List.isSuffixOf_iff_suffix.mp ends
        rw [← same]
        simp
    · simp
  rw [fileName, joinPath_eq, String.toList_append, List.reverse_append,
    List.takeWhile_append_of_pos own, lead, List.append_nil, List.reverse_reverse]

theorem slashless_repr (number : Nat) : '/' ∉ (Nat.repr number).toList := by
  intro member
  have digits : (Nat.repr number).toList = Nat.toDigits 10 number := by
    rw [Nat.repr, String.toList_ofList]
  rw [digits] at member
  have digit : '/'.isDigit = true := isDigit_of_mem_toDigits member
  exact absurd digit (by decide)

end SystemPilot.Setup
