import Mathlib.Tactic
import SystemPilot.Configuration.Migration

/-!
# The files of a configuration directory

Every file a migration or a rollback writes, and the temporary file beside each.
No two of them share a path.
-/

set_option autoImplicit false

namespace SystemPilot.Configuration

open SystemPilot.Text
open SystemPilot.Library.CrashFiles

/-! ## Joined paths -/

/-- What stands before a name joined to this directory. -/
def pathLead (directory : String) : String :=
  if directory = "" ∨ endsWith directory "/" then directory else directory ++ "/"

theorem joinPath_eq (directory name : String) :
    joinPath directory name = pathLead directory ++ name := by
  unfold joinPath pathLead
  split <;> rfl

theorem joinPath_credentials (directory name : String) :
    joinPath (joinPath directory "credentials") name = joinPath directory ("credentials/" ++ name) := by
  have characters : (joinPath directory "credentials").toList.reverse =
      "credentials".toList.reverse ++ (pathLead directory).toList.reverse := by
    rw [joinPath_eq, String.toList_append, List.reverse_append]
  have nonempty : joinPath directory "credentials" ≠ "" := by
    intro same
    rw [same] at characters
    simp at characters
  have final : endsWith (joinPath directory "credentials") "/" = false := by
    rw [endsWith, List.isSuffixOf, characters]
    rfl
  have lead : pathLead (joinPath directory "credentials") = joinPath directory "credentials" ++ "/" := by
    rw [pathLead, if_neg]
    simp [nonempty, final]
  rw [joinPath_eq, lead, joinPath_eq, joinPath_eq]
  apply String.toList_inj.mp
  simp

/-- Two texts neither of which starts the other. -/
def Diverge (left right : String) : Prop :=
  ¬ left.toList <+: right.toList ∧ ¬ right.toList <+: left.toList

instance decidableDiverge (left right : String) : Decidable (Diverge left right) :=
  inferInstanceAs (Decidable (_ ∧ _))

theorem Diverge.joined_ne {left right : String} (diverge : Diverge left right)
    (directory first second : String) :
    joinPath directory (left ++ first) ≠ joinPath directory (right ++ second) := by
  intro same
  rw [joinPath_eq, joinPath_eq] at same
  have names : left.toList ++ first.toList = right.toList ++ second.toList := by
    have characters := congrArg String.toList same
    simpa using characters
  have left' : left.toList <+: right.toList ++ second.toList := ⟨first.toList, names⟩
  have right' : right.toList <+: right.toList ++ second.toList := List.prefix_append _ _
  rcases List.prefix_or_prefix_of_prefix left' right' with shorter | longer
  · exact diverge.1 shorter
  · exact diverge.2 longer

theorem joinPath_inj {directory left right : String}
    (same : joinPath directory left = joinPath directory right) : left = right := by
  rw [joinPath_eq, joinPath_eq] at same
  exact String.append_right_inj (pathLead directory) |>.mp same

/-! ## Slots -/

/-- The files a configuration directory is made of. -/
inductive Slot where
  | preV1
  | preV2
  | gemini
  | syspilot
  | telemetry
  | fleet
  | config
  | preRollback
  deriving DecidableEq, Repr

def secretTarget (directory name : String) : Target :=
  ⟨joinPath directory name, some fun id => joinPath directory ("." ++ name ++ "-" ++ Nat.repr id ++ ".tmp")⟩

namespace Slot

def target (directory : String) : Slot → Target
  | preV1 => ⟨joinPath directory preV1Backup, none⟩
  | preV2 => ⟨joinPath directory preV2Backup, none⟩
  | gemini => secretTarget (joinPath directory "credentials") "gemini-api-key"
  | syspilot => secretTarget (joinPath directory "credentials") "syspilot-api-key"
  | telemetry => secretTarget (joinPath directory "credentials") "telemetry-token"
  | fleet => secretTarget (joinPath directory "credentials") "fleet-token"
  | config => (atomicWrite directory []).target
  | preRollback => ⟨joinPath directory preRollbackBackup, none⟩

/-- How the names of a slot start. -/
def stems : Slot → List String
  | preV1 => [preV1Backup]
  | preV2 => [preV2Backup]
  | gemini => ["credentials/gemini-api-key", "credentials/.gemini-api-key-"]
  | syspilot => ["credentials/syspilot-api-key", "credentials/.syspilot-api-key-"]
  | telemetry => ["credentials/telemetry-token", "credentials/.telemetry-token-"]
  | fleet => ["credentials/fleet-token", "credentials/.fleet-token-"]
  | config => ["config.json", ".config-migration-"]
  | preRollback => [preRollbackBackup]

/-- The slots a migration may write, in its order. -/
def migrated : List Slot := [preV1, preV2, gemini, syspilot, telemetry, fleet, config]

theorem stems_diverge {left right : Slot} (distinct : left ≠ right) :
    ∀ first ∈ left.stems, ∀ second ∈ right.stems, Diverge first second := by
  cases left <;> cases right <;> first | exact absurd rfl distinct | decide

theorem secret_touches {directory name place : String} {id : Nat}
    (touched : (secretTarget (joinPath directory "credentials") name).Touches id place) :
    ∃ stem ∈ ["credentials/" ++ name, "credentials/." ++ name ++ "-"], ∃ rest,
      place = joinPath directory (stem ++ rest) := by
  rcases touched with rfl | ⟨temporary, ⟨⟩, rfl⟩
  · exact ⟨"credentials/" ++ name, by simp, "", by simp [secretTarget, joinPath_credentials]⟩
  · refine ⟨"credentials/." ++ name ++ "-", by simp, Nat.repr id ++ ".tmp", ?_⟩
    dsimp only
    rw [joinPath_credentials]
    apply congrArg
    apply String.toList_inj.mp
    simp

theorem touches_stem {directory place : String} {slot : Slot} {id : Nat}
    (touched : (slot.target directory).Touches id place) :
    ∃ stem ∈ slot.stems, ∃ rest, place = joinPath directory (stem ++ rest) := by
  cases slot with
  | preV1 =>
      rcases touched with rfl | ⟨temporary, ⟨⟩, rfl⟩
      exact ⟨preV1Backup, by simp [stems], "", by simp [target]⟩
  | preV2 =>
      rcases touched with rfl | ⟨temporary, ⟨⟩, rfl⟩
      exact ⟨preV2Backup, by simp [stems], "", by simp [target]⟩
  | preRollback =>
      rcases touched with rfl | ⟨temporary, ⟨⟩, rfl⟩
      exact ⟨preRollbackBackup, by simp [stems], "", by simp [target]⟩
  | gemini | syspilot | telemetry | fleet => exact secret_touches touched
  | config =>
      rcases touched with rfl | ⟨temporary, ⟨⟩, rfl⟩
      · exact ⟨"config.json", by simp [stems], "", by simp [target, atomicWrite, Write.target, configFile]⟩
      · refine ⟨".config-migration-", by simp [stems], Nat.repr id ++ ".tmp", ?_⟩
        apply congrArg
        apply String.toList_inj.mp
        simp

theorem target_apart (directory : String) {left right : Slot} (distinct : left ≠ right) :
    (left.target directory).Apart (right.target directory) := by
  intro first second place mine theirs
  obtain ⟨stem, member, rest, named⟩ := touches_stem mine
  obtain ⟨other, present, tail, also⟩ := touches_stem theirs
  exact (stems_diverge distinct stem member other present).joined_ne directory rest tail
    (named.symm.trans also)

/-- A temporary file is not its target, and each process has its own. -/
theorem own_of_diverge {start name : String} (diverge : Diverge start name) (directory : String) :
    (⟨joinPath directory name,
      some fun id => joinPath directory (start ++ Nat.repr id ++ ".tmp")⟩ : Target).Own := by
  rintro temporary ⟨⟩
  constructor
  · intro id same
    apply diverge.joined_ne directory (Nat.repr id ++ ".tmp") ""
    rw [String.append_empty, ← String.append_assoc]
    exact same
  · intro left right same
    have characters := congrArg String.toList (joinPath_inj same)
    rw [String.toList_append, String.toList_append, String.toList_append, String.toList_append,
      List.append_left_inj, List.append_right_inj] at characters
    exact repr_injective (String.toList_inj.mp characters)

theorem target_own (directory : String) (slot : Slot) : (slot.target directory).Own := by
  cases slot with
  | preV1 | preV2 | preRollback => rintro temporary ⟨⟩
  | gemini =>
      have diverge : Diverge ("." ++ "gemini-api-key" ++ "-") "gemini-api-key" := by decide
      exact own_of_diverge diverge _
  | syspilot =>
      have diverge : Diverge ("." ++ "syspilot-api-key" ++ "-") "syspilot-api-key" := by decide
      exact own_of_diverge diverge _
  | telemetry =>
      have diverge : Diverge ("." ++ "telemetry-token" ++ "-") "telemetry-token" := by decide
      exact own_of_diverge diverge _
  | fleet =>
      have diverge : Diverge ("." ++ "fleet-token" ++ "-") "fleet-token" := by decide
      exact own_of_diverge diverge _
  | config => exact own_of_diverge (by decide) _

end Slot

/-- Writes to slots of a configuration directory, each written once. -/
theorem separate_of_slots {writes : List (Write ConfigError)} {directory : String}
    {slots : List Slot} (distinct : slots.Nodup)
    (among : (writes.map Write.target).Sublist (slots.map (Slot.target directory))) :
    Separate writes := by
  refine separate_of_targets among (List.pairwise_map.mpr ?_) ?_
  · exact distinct.imp fun apart => Slot.target_apart directory apart
  · intro target member
    obtain ⟨slot, _, rfl⟩ := List.mem_map.mp member
    exact slot.target_own directory

end SystemPilot.Configuration
