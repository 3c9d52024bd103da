import Mathlib.Tactic

/-!
# Tables

A table is the list of its rows in the order of insertion.  Three operations
change one: a row is appended, the rows of a key are updated, or a row is
inserted unless its key is taken.  The lemmas say what each leaves of the rows
of another kind and of the keys.
-/

set_option autoImplicit false

namespace SystemPilot.Library.Table

variable {Row : Type}

/-- `UPDATE … WHERE`. -/
def update (selects : Row → Bool) (change : Row → Row) (rows : List Row) : List Row :=
  rows.map fun row => if selects row then change row else row

/-- `INSERT … ON CONFLICT DO UPDATE`; `conflicts` tells the rows with the key of
`row`. -/
def upsert (conflicts : Row → Bool) (change : Row → Row) (row : Row) (rows : List Row) :
    List Row :=
  if rows.any conflicts then update conflicts change rows else rows ++ [row]

/-- `INSERT … ON CONFLICT DO NOTHING`. -/
def insertNew (conflicts : Row → Bool) (row : Row) (rows : List Row) : List Row :=
  if rows.any conflicts then rows else rows ++ [row]

theorem mem_update {selects : Row → Bool} {change : Row → Row} {rows : List Row} {row : Row} :
    row ∈ update selects change rows ↔
      (row ∈ rows ∧ selects row = false) ∨ ∃ old ∈ rows, selects old = true ∧ change old = row := by
  simp only [update, List.mem_map]
  constructor
  · rintro ⟨old, member, changed⟩
    split at changed
    · rename_i selected
      exact Or.inr ⟨old, member, selected, changed⟩
    · rename_i kept
      subst changed
      exact Or.inl ⟨member, by simpa using kept⟩
  · rintro (⟨member, kept⟩ | ⟨old, member, selected, changed⟩)
    · exact ⟨row, member, by simp [kept]⟩
    · exact ⟨old, member, by simp [selected, changed]⟩

theorem update_eq_self {selects : Row → Bool} {change : Row → Row} {rows : List Row}
    (untouched : ∀ row ∈ rows, selects row = true → change row = row) :
    update selects change rows = rows := by
  unfold update
  conv_rhs => rw [← List.map_id rows]
  apply List.map_congr_left
  intro row member
  split
  · rename_i selected
    exact untouched row member selected
  · rfl

/-! ## Rows of another kind -/

/-- An update that selects no row of a kind and makes none leaves that kind. -/
theorem filter_update_of_foreign {selects keeps : Row → Bool} {change : Row → Row}
    {rows : List Row}
    (foreign : ∀ row ∈ rows, selects row = true →
      keeps row = false ∧ keeps (change row) = false) :
    (update selects change rows).filter keeps = rows.filter keeps := by
  induction rows with
  | nil => rfl
  | cons row rest inductionHypothesis =>
      have tail := inductionHypothesis fun other member => foreign other (by simp [member])
      simp only [update, List.map_cons, List.filter_cons] at tail ⊢
      by_cases selected : selects row = true
      · obtain ⟨before, after⟩ := foreign row (by simp) selected
        simp [selected, before, after, tail]
      · simp [selected, tail]

theorem filter_upsert_of_foreign {conflicts keeps : Row → Bool} {change : Row → Row} {row : Row}
    {rows : List Row} (rowForeign : keeps row = false)
    (foreign : ∀ old ∈ rows, conflicts old = true →
      keeps old = false ∧ keeps (change old) = false) :
    (upsert conflicts change row rows).filter keeps = rows.filter keeps := by
  unfold upsert
  split
  · exact filter_update_of_foreign foreign
  · simp [List.filter_append, rowForeign]

theorem filter_insertNew_of_foreign {conflicts keeps : Row → Bool} {row : Row} {rows : List Row}
    (rowForeign : keeps row = false) :
    (insertNew conflicts row rows).filter keeps = rows.filter keeps := by
  unfold insertNew
  split
  · rfl
  · simp [List.filter_append, rowForeign]

/-! ## Rows of one owner

A change that selects rows of an owner only, and keeps their owner, acts on the
owner's rows as on a table of their own. -/

theorem any_filter_of_owned {selects keeps : Row → Bool} {rows : List Row}
    (owned : ∀ row ∈ rows, selects row = true → keeps row = true) :
    (rows.filter keeps).any selects = rows.any selects := by
  rw [List.any_filter, Bool.eq_iff_iff, List.any_eq_true, List.any_eq_true]
  refine exists_congr fun row => and_congr_right fun member => ?_
  rw [Bool.and_eq_true]
  exact ⟨fun both => both.2, fun selected => ⟨owned row member selected, selected⟩⟩

theorem find?_filter_of_owned {selects keeps : Row → Bool} {rows : List Row}
    (owned : ∀ row ∈ rows, selects row = true → keeps row = true) :
    (rows.filter keeps).find? selects = rows.find? selects := by
  induction rows with
  | nil => rfl
  | cons row rest inductionHypothesis =>
      have tail := inductionHypothesis fun other member => owned other (by simp [member])
      rw [List.filter_cons, List.find?_cons]
      by_cases selected : selects row = true
      · simp [owned row (by simp) selected, selected]
      · split
        · simp [selected, tail]
        · simp [selected, tail]

theorem filter_update_of_owned {selects keeps : Row → Bool} {change : Row → Row}
    {rows : List Row}
    (keepsOwner : ∀ row, selects row = true → keeps (change row) = keeps row) :
    (update selects change rows).filter keeps = update selects change (rows.filter keeps) := by
  induction rows with
  | nil => rfl
  | cons row rest inductionHypothesis =>
      simp only [update, List.map_cons, List.filter_cons] at inductionHypothesis ⊢
      by_cases selected : selects row = true
      · by_cases own : keeps row = true
        · simp [selected, own, keepsOwner row selected, inductionHypothesis]
        · simp [selected, own, keepsOwner row selected, inductionHypothesis]
      · by_cases own : keeps row = true
        · simp [selected, own, inductionHypothesis]
        · simp [selected, own, inductionHypothesis]

theorem filter_upsert_of_owned {conflicts keeps : Row → Bool} {change : Row → Row} {row : Row}
    {rows : List Row} (own : keeps row = true)
    (owned : ∀ old ∈ rows, conflicts old = true → keeps old = true)
    (keepsOwner : ∀ old, conflicts old = true → keeps (change old) = keeps old) :
    (upsert conflicts change row rows).filter keeps =
      upsert conflicts change row (rows.filter keeps) := by
  unfold upsert
  rw [any_filter_of_owned owned]
  split
  · exact filter_update_of_owned keepsOwner
  · simp [List.filter_append, own]

theorem filter_insertNew_of_owned {conflicts keeps : Row → Bool} {row : Row} {rows : List Row}
    (own : keeps row = true)
    (owned : ∀ old ∈ rows, conflicts old = true → keeps old = true) :
    (insertNew conflicts row rows).filter keeps = insertNew conflicts row (rows.filter keeps) := by
  unfold insertNew
  rw [any_filter_of_owned owned]
  split
  · rfl
  · simp [List.filter_append, own]

/-! ## Columns that are forgotten -/

section Forget

variable {forget : Row → Row}

theorem any_map_of_blind {selects : Row → Bool} {rows : List Row}
    (blind : ∀ row, selects (forget row) = selects row) :
    (rows.map forget).any selects = rows.any selects := by
  rw [List.any_map]
  congr 1
  exact funext blind

theorem any_update_of_blind {selects probe : Row → Bool} {change : Row → Row} {rows : List Row}
    (blind : ∀ row, probe (change row) = probe row) :
    (update selects change rows).any probe = rows.any probe := by
  unfold update
  rw [List.any_map]
  congr 1
  funext row
  simp only [Function.comp_apply]
  split
  · exact blind row
  · rfl

theorem any_update_of_foreign {selects probe : Row → Bool} {change : Row → Row}
    {rows : List Row}
    (foreign : ∀ row ∈ rows, selects row = true →
      probe row = false ∧ probe (change row) = false) :
    (update selects change rows).any probe = rows.any probe := by
  rw [Bool.eq_iff_iff, List.any_eq_true, List.any_eq_true]
  constructor
  · rintro ⟨row, member, found⟩
    rcases mem_update.mp member with ⟨old, _⟩ | ⟨old, oldMember, selected, rfl⟩
    · exact ⟨row, old, found⟩
    · rw [(foreign old oldMember selected).2] at found
      contradiction
  · rintro ⟨row, member, found⟩
    refine ⟨row, mem_update.mpr (Or.inl ⟨member, ?_⟩), found⟩
    rw [← Bool.not_eq_true]
    intro selected
    rw [(foreign row member selected).1] at found
    contradiction

theorem map_update_of_blind {selects : Row → Bool} {change change' : Row → Row}
    {rows : List Row} (blind : ∀ row, selects (forget row) = selects row)
    (commutes : ∀ row, forget (change row) = change' (forget row)) :
    (update selects change rows).map forget = update selects change' (rows.map forget) := by
  unfold update
  rw [List.map_map, List.map_map]
  apply List.map_congr_left
  intro row _
  simp only [Function.comp_apply, blind]
  split
  · exact commutes row
  · rfl

theorem map_upsert_of_blind {conflicts : Row → Bool} {change change' : Row → Row} {row : Row}
    {rows : List Row} (blind : ∀ old, conflicts (forget old) = conflicts old)
    (commutes : ∀ old, forget (change old) = change' (forget old)) :
    (upsert conflicts change row rows).map forget =
      upsert conflicts change' (forget row) (rows.map forget) := by
  unfold upsert
  rw [any_map_of_blind blind]
  split
  · exact map_update_of_blind blind commutes
  · simp

theorem map_insertNew_of_blind {conflicts : Row → Bool} {row : Row} {rows : List Row}
    (blind : ∀ old, conflicts (forget old) = conflicts old) :
    (insertNew conflicts row rows).map forget =
      insertNew conflicts (forget row) (rows.map forget) := by
  unfold insertNew
  rw [any_map_of_blind blind]
  split
  · rfl
  · simp

end Forget

/-! ## The row of a key -/

theorem find?_update_self {selects : Row → Bool} {change : Row → Row} {rows : List Row}
    (keeps : ∀ row, selects row = true → selects (change row) = true) :
    (update selects change rows).find? selects = (rows.find? selects).map change := by
  induction rows with
  | nil => rfl
  | cons row rest inductionHypothesis =>
      simp only [update, List.map_cons, List.find?_cons] at inductionHypothesis ⊢
      by_cases selected : selects row = true
      · simp [selected, keeps row selected]
      · simp [selected, inductionHypothesis]

theorem find?_update_of_foreign {selects probe : Row → Bool} {change : Row → Row}
    {rows : List Row}
    (foreign : ∀ row, selects row = true → probe row = false ∧ probe (change row) = false) :
    (update selects change rows).find? probe = rows.find? probe := by
  induction rows with
  | nil => rfl
  | cons row rest inductionHypothesis =>
      simp only [update, List.map_cons, List.find?_cons] at inductionHypothesis ⊢
      by_cases selected : selects row = true
      · simp [selected, foreign row selected, inductionHypothesis]
      · simp [selected, inductionHypothesis]

/-- After an upsert the key is held by the changed row, or by the new one. -/
theorem find?_upsert_self {conflicts : Row → Bool} {change : Row → Row} {row : Row}
    {rows : List Row} (own : conflicts row = true)
    (keeps : ∀ old, conflicts old = true → conflicts (change old) = true) :
    (upsert conflicts change row rows).find? conflicts =
      some ((rows.find? conflicts).elim row change) := by
  unfold upsert
  split
  · rename_i taken
    rw [find?_update_self keeps]
    cases found : rows.find? conflicts with
    | none =>
        obtain ⟨old, member, conflict⟩ := List.any_eq_true.mp taken
        exact absurd conflict (List.find?_eq_none.mp found old member)
    | some old => rfl
  · rename_i free
    have none : rows.find? conflicts = none := by
      rw [List.find?_eq_none]
      intro old member conflict
      exact free (List.any_eq_true.mpr ⟨old, member, conflict⟩)
    simp [List.find?_append, none, own]

theorem any_upsert_self {conflicts : Row → Bool} {change : Row → Row} {row : Row}
    {rows : List Row} (own : conflicts row = true)
    (keeps : ∀ old, conflicts old = true → conflicts (change old) = true) :
    (upsert conflicts change row rows).any conflicts = true := by
  have found : (upsert conflicts change row rows).find? conflicts = _ :=
    find?_upsert_self own keeps
  exact List.any_eq_true.mpr ⟨_, List.mem_of_find?_eq_some found, List.find?_some found⟩

theorem find?_upsert_of_foreign {conflicts probe : Row → Bool} {change : Row → Row} {row : Row}
    {rows : List Row} (rowForeign : probe row = false)
    (foreign : ∀ old, conflicts old = true → probe old = false ∧ probe (change old) = false) :
    (upsert conflicts change row rows).find? probe = rows.find? probe := by
  unfold upsert
  split
  · exact find?_update_of_foreign foreign
  · simp [List.find?_append, rowForeign]

/-! ## One row for each key -/

section Keys

variable {Key : Type} (key : Row → Key)

/-- Two rows of the table never share a key. -/
def KeysUnique (rows : List Row) : Prop := (rows.map key).Nodup

theorem KeysUnique.append {rows : List Row} {row : Row} (unique : KeysUnique key rows)
    (fresh : ∀ old ∈ rows, key old ≠ key row) : KeysUnique key (rows ++ [row]) := by
  rw [KeysUnique, List.map_append, List.map_singleton]
  refine List.Nodup.append unique (List.nodup_singleton _) ?_
  intro value old new
  obtain ⟨other, member, rfl⟩ := List.mem_map.mp old
  exact fresh other member (List.mem_singleton.mp new)

theorem KeysUnique.update {rows : List Row} {selects : Row → Bool} {change : Row → Row}
    (unique : KeysUnique key rows) (keeps : ∀ row, key (change row) = key row) :
    KeysUnique key (update selects change rows) := by
  have keys : (Table.update selects change rows).map key = rows.map key := by
    rw [Table.update, List.map_map]
    apply List.map_congr_left
    intro row _
    simp only [Function.comp_apply]
    split
    · exact keeps row
    · rfl
  rw [KeysUnique, keys]
  exact unique

theorem KeysUnique.eq_of_mem {rows : List Row} (unique : KeysUnique key rows) {left right : Row}
    (leftMember : left ∈ rows) (rightMember : right ∈ rows) (same : key left = key right) :
    left = right :=
  List.inj_on_of_nodup_map unique leftMember rightMember same

end Keys

end SystemPilot.Library.Table
