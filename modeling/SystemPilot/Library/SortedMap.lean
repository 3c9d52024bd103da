import Mathlib.Tactic

/-!
# Sorted maps

Facts about `Std.ExtTreeMap` over a lawful order, in the form the developments
use them: lookups decided by equality of keys, a map rebuilt from its listing,
and how many keys of a kind a map holds.
-/

set_option autoImplicit false

namespace SystemPilot.Library.SortedMap

section Lookup

variable {κ ν : Type} [Ord κ] [Std.TransOrd κ] [Std.LawfulEqOrd κ] [DecidableEq κ]

theorem getElem?_insert (entries : Std.ExtTreeMap κ ν) (key other : κ) (value : ν) :
    (entries.insert key value)[other]? = if key = other then some value else entries[other]? := by
  rw [Std.ExtTreeMap.getElem?_insert]
  simp only [Std.LawfulEqOrd.compare_eq_iff_eq]

theorem getElem?_insert_of_ne (entries : Std.ExtTreeMap κ ν) {key other : κ} (value : ν)
    (distinct : key ≠ other) : (entries.insert key value)[other]? = entries[other]? := by
  rw [getElem?_insert, if_neg distinct]

theorem getElem?_erase (entries : Std.ExtTreeMap κ ν) (key other : κ) :
    (entries.erase key)[other]? = if key = other then none else entries[other]? := by
  rw [Std.ExtTreeMap.getElem?_erase]
  simp only [Std.LawfulEqOrd.compare_eq_iff_eq]

theorem getElem?_erase_of_ne (entries : Std.ExtTreeMap κ ν) {key other : κ}
    (distinct : key ≠ other) : (entries.erase key)[other]? = entries[other]? := by
  rw [getElem?_erase, if_neg distinct]

omit [DecidableEq κ] in
theorem mem_keys_iff (entries : Std.ExtTreeMap κ ν) (key : κ) :
    key ∈ entries.keys ↔ ∃ value, entries[key]? = some value := by
  rw [Std.ExtTreeMap.mem_keys, Std.ExtTreeMap.mem_iff_isSome_getElem?, Option.isSome_iff_exists]

omit [DecidableEq κ] in
theorem ofList_toList (entries : Std.ExtTreeMap κ ν) :
    Std.ExtTreeMap.ofList entries.toList = entries := by
  apply Std.ExtTreeMap.ext_getElem?
  intro key
  cases found : entries[key]? with
  | some value =>
      exact Std.ExtTreeMap.getElem?_ofList_of_mem (Std.LawfulEqOrd.compare_eq_iff_eq.mpr rfl)
        Std.ExtTreeMap.distinct_keys_toList
        (Std.ExtTreeMap.mem_toList_iff_getElem?_eq_some.mpr found)
  | none =>
      classical
      apply Std.ExtTreeMap.getElem?_ofList_of_contains_eq_false
      rw [Std.ExtTreeMap.map_fst_toList_eq_keys, ← Bool.not_eq_true, List.contains_iff_mem,
        mem_keys_iff]
      simp [found]

end Lookup

/-! ## Counting the keys of a kind -/

section Count

variable {κ ν : Type} [Ord κ] [Std.TransOrd κ] [Std.LawfulEqOrd κ] [DecidableEq κ]

/-- How many keys of the map satisfy `kind`. -/
def countKeys (kind : κ → Bool) (entries : Std.ExtTreeMap κ ν) : Nat :=
  (entries.keys.filter kind).length

omit [DecidableEq κ] [Std.LawfulEqOrd κ] in
@[simp] theorem countKeys_empty (kind : κ → Bool) :
    countKeys kind (∅ : Std.ExtTreeMap κ ν) = 0 := by
  have noKeys : (∅ : Std.ExtTreeMap κ ν).keys = [] :=
    List.eq_nil_of_length_eq_zero (by simp)
  simp [countKeys, noKeys]

omit [DecidableEq κ] [Std.LawfulEqOrd κ] in
theorem countKeys_eq_size (kind : κ → Bool) (entries : Std.ExtTreeMap κ ν) :
    countKeys kind entries = (entries.filter fun key _ => kind key).size := by
  rw [countKeys, ← Std.ExtTreeMap.keys_filter_key, Std.ExtTreeMap.length_keys]

theorem filter_insert (kind : κ → Bool) (entries : Std.ExtTreeMap κ ν) (key : κ) (value : ν) :
    (entries.insert key value).filter (fun name _ => kind name) =
      if kind key then (entries.filter fun name _ => kind name).insert key value
      else entries.filter fun name _ => kind name := by
  apply Std.ExtTreeMap.ext_getElem?
  intro other
  rw [Std.ExtTreeMap.getElem?_filter', getElem?_insert]
  by_cases kept : kind key = true
  · rw [if_pos kept, getElem?_insert, Std.ExtTreeMap.getElem?_filter']
    by_cases same : key = other
    · subst same
      simp [kept]
    · simp [same]
  · rw [if_neg kept, Std.ExtTreeMap.getElem?_filter']
    by_cases same : key = other
    · subst same
      simp [kept]
    · simp [same]

theorem filter_erase (kind : κ → Bool) (entries : Std.ExtTreeMap κ ν) (key : κ) :
    (entries.erase key).filter (fun name _ => kind name) =
      (entries.filter fun name _ => kind name).erase key := by
  apply Std.ExtTreeMap.ext_getElem?
  intro other
  rw [Std.ExtTreeMap.getElem?_filter', getElem?_erase, getElem?_erase,
    Std.ExtTreeMap.getElem?_filter']
  by_cases same : key = other <;> simp [same]

theorem countKeys_insert_fresh (kind : κ → Bool) (entries : Std.ExtTreeMap κ ν) (key : κ)
    (value : ν) (kept : kind key = true) (fresh : entries[key]? = none) :
    countKeys kind (entries.insert key value) = countKeys kind entries + 1 := by
  have absent : key ∉ entries.filter fun name _ => kind name := by
    rw [Std.ExtTreeMap.mem_iff_isSome_getElem?, Std.ExtTreeMap.getElem?_filter', fresh]
    simp
  rw [countKeys_eq_size, countKeys_eq_size, filter_insert, if_pos kept,
    Std.ExtTreeMap.size_insert, if_neg (mt Std.ExtTreeMap.contains_iff_mem.mp absent)]

theorem countKeys_insert_other (kind : κ → Bool) (entries : Std.ExtTreeMap κ ν) (key : κ)
    (value : ν) (other : kind key = false) :
    countKeys kind (entries.insert key value) = countKeys kind entries := by
  rw [countKeys_eq_size, countKeys_eq_size, filter_insert, if_neg (by simp [other])]

theorem countKeys_erase_present (kind : κ → Bool) (entries : Std.ExtTreeMap κ ν) (key : κ)
    (value : ν) (kept : kind key = true) (found : entries[key]? = some value) :
    countKeys kind (entries.erase key) + 1 = countKeys kind entries := by
  have present : key ∈ entries.filter fun name _ => kind name := by
    rw [Std.ExtTreeMap.mem_iff_isSome_getElem?, Std.ExtTreeMap.getElem?_filter', found]
    simp [kept]
  have positive : 0 < (entries.filter fun name _ => kind name).size := by
    apply Nat.pos_of_ne_zero
    intro empty
    rw [Std.ExtTreeMap.eq_empty_iff_size_eq_zero.mpr empty] at present
    exact Std.ExtTreeMap.not_mem_empty present
  rw [countKeys_eq_size, countKeys_eq_size, filter_erase, Std.ExtTreeMap.size_erase,
    if_pos (Std.ExtTreeMap.contains_iff_mem.mpr present)]
  omega

end Count

end SystemPilot.Library.SortedMap
