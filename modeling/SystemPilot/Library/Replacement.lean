import SystemPilot.Library.SortedMap

/-!
# Replacing a file through a temporary file

A temporary file is created where none may be, filled, synced and renamed over
its target.  Each step can fail and the process can end between any two of them;
what matters afterwards is only whether the temporary file is still there.
-/

set_option autoImplicit false

namespace SystemPilot.Library.Replacement

/-- Where a replacement is stopped.  After a failed write the temporary file is
removed, unless that fails too. -/
inductive Stop (Content : Type) where
  | create
  | write (written : Content) (removed : Bool)
  | rename
  | endBefore
  | endInside (written : Content)
  | endAfter
  deriving DecidableEq

inductive Step where
  | create
  | write
  | rename
  deriving DecidableEq, Repr

inductive Result where
  | done
  | failed (step : Step)
  | ended
  deriving DecidableEq, Repr

namespace Stop

variable {Content : Type}

/-- The temporary file stays behind. -/
def Leaves : Stop Content → Bool
  | .write _ removed => !removed
  | .rename | .endInside _ => true
  | .create | .endBefore | .endAfter => false

/-- The process is gone afterwards. -/
def Ends : Stop Content → Bool
  | .endBefore | .endInside _ | .endAfter => true
  | .create | .write _ _ | .rename => false

/-- The rename is done, also where the process ends right after it. -/
def commits : Option (Stop Content) → Bool
  | none | some .endAfter => true
  | _ => false

end Stop

section Replace

variable {κ Content : Type} [Ord κ] [Std.TransOrd κ]

/-- The replacement of one file. -/
def replace (temporary name : κ) (content : Content) (stop : Option (Stop Content))
    (files : Std.ExtTreeMap κ Content) : Std.ExtTreeMap κ Content × Result :=
  match stop with
  | some .endBefore => (files, .ended)
  | some .create => (files, .failed .create)
  | stop =>
      if temporary ∈ files then (files, .failed .create)
      else match stop with
        | some (.write written false) => (files.insert temporary written, .failed .write)
        | some (.write _ true) => (files, .failed .write)
        | some .rename => (files.insert temporary content, .failed .rename)
        | some (.endInside written) => (files.insert temporary written, .ended)
        | some .endAfter => (files.insert name content, .ended)
        | _ => (files.insert name content, .done)

/-- A replacement counts when the rename was done. -/
def settled (name : κ) (content : Content) (stop : Option (Stop Content))
    (files : Std.ExtTreeMap κ Content) : Std.ExtTreeMap κ Content :=
  if Stop.commits stop then files.insert name content else files

variable {temporary name : κ} {content : Content} {files : Std.ExtTreeMap κ Content}

theorem replace_clear (clear : temporary ∉ files) :
    replace temporary name content none files = (files.insert name content, .done) :=
  if_neg clear

theorem replace_done {stop : Option (Stop Content)}
    (done : (replace temporary name content stop files).2 = .done) :
    (replace temporary name content stop files).1 = files.insert name content := by
  by_cases clear : temporary ∉ files
  · rcases stop with _ | _ | ⟨written, _ | _⟩ | _ | _ | _ | _
    · rw [replace_clear clear]
    all_goals simp [replace, clear] at done
  · rw [not_not] at clear
    rcases stop with _ | _ | ⟨written, _ | _⟩ | _ | _ | _ | _ <;> simp [replace, clear] at done

/-- A file with the temporary name stops every later replacement. -/
theorem replace_blocked (present : temporary ∈ files) :
    replace temporary name content none files = (files, .failed .create) :=
  if_pos present

theorem replace_leaves (clear : temporary ∉ files) (stop : Stop Content)
    (leaves : stop.Leaves = true) :
    ∃ written, (replace temporary name content (some stop) files).1 =
      files.insert temporary written := by
  cases stop with
  | create => cases leaves
  | endBefore => cases leaves
  | endAfter => cases leaves
  | write written removed =>
      cases removed with
      | true => cases leaves
      | false => exact ⟨written, by rw [replace, if_neg clear]⟩
  | rename => exact ⟨content, by rw [replace, if_neg clear]⟩
  | endInside written => exact ⟨written, by rw [replace, if_neg clear]⟩

/-- Where no temporary file stays behind the replacement was made or was not. -/
theorem replace_tidy (clear : temporary ∉ files) (stop : Option (Stop Content))
    (tidy : ∀ point, stop = some point → point.Leaves = false) :
    (replace temporary name content stop files).1 = settled name content stop files := by
  cases stop with
  | none =>
      rw [replace_clear clear]
      rfl
  | some stop =>
      have gone := tidy stop rfl
      cases stop with
      | create => rfl
      | endBefore => rfl
      | rename => cases gone
      | endInside written => cases gone
      | endAfter =>
          rw [replace, if_neg clear]
          rfl
      | write written removed =>
          cases removed with
          | true =>
              rw [replace, if_neg clear]
              rfl
          | false => cases gone

/-- A replacement that fails changes at most its temporary file. -/
theorem replace_failed {stop : Option (Stop Content)} {step : Step}
    (failed : (replace temporary name content stop files).2 = .failed step) :
    (replace temporary name content stop files).1 = files ∨
      ∃ written, (replace temporary name content stop files).1 =
        files.insert temporary written := by
  by_cases clear : temporary ∉ files
  · cases stop with
    | none =>
        rw [replace_clear clear] at failed
        cases failed
    | some stop =>
        cases leaves : stop.Leaves with
        | true => exact Or.inr (replace_leaves clear stop leaves)
        | false =>
            rw [replace_tidy clear (some stop) (by rintro _ ⟨⟩; exact leaves), settled]
            split
            · rename_i commits
              cases stop <;> cases commits
              rw [replace, if_neg clear] at failed
              cases failed
            · exact Or.inl rfl
  · rw [not_not] at clear
    refine Or.inl ?_
    unfold replace
    split
    · rfl
    · rfl
    · rw [if_pos clear]

/-- The call returns an error exactly when one of its steps fails: the process
goes on, and a step was stopped or the temporary file was there already. -/
theorem replace_failed_iff (stop : Option (Stop Content)) :
    (∃ step, (replace temporary name content stop files).2 = .failed step) ↔
      (∃ point, stop = some point ∧ point.Ends = false) ∨
        (temporary ∈ files ∧ stop ≠ some .endBefore) := by
  by_cases present : temporary ∈ files
  · rcases stop with _ | _ | ⟨written, _ | _⟩ | _ | _ | _ | _ <;>
      simp [replace, present, Stop.Ends]
  · rcases stop with _ | _ | ⟨written, _ | _⟩ | _ | _ | _ | _ <;>
      simp [replace, present, Stop.Ends]

end Replace

end SystemPilot.Library.Replacement
