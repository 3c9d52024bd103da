import Mathlib.Data.List.Basic
import Mathlib.Algebra.BigOperators.Group.List.Basic
import Mathlib.Tactic.Ring

/-!
# Retention

A list that is swept once from its oldest end: an item goes when it is old or when
what is left is too large.
-/

set_option autoImplicit false

namespace SystemPilot.Library.Retention

section Sweep

variable {Item : Type} (old : Item → Prop) [DecidablePred old] (size : Item → Nat) (limit : Nat)

/-- The size of some items. -/
def total (items : List Item) : Nat := (items.map size).sum

/-- What stays. -/
def retained : List Item → Nat → List Item
  | [], _ => []
  | item :: items, left =>
      if old item ∨ limit < left then retained items (left - size item)
      else item :: retained items left

/-- What goes. -/
def discarded : List Item → Nat → List Item
  | [], _ => []
  | item :: items, left =>
      if old item ∨ limit < left then item :: discarded items (left - size item)
      else discarded items left

theorem total_cons (item : Item) (items : List Item) :
    total size (item :: items) = size item + total size items := List.sum_cons

theorem perm_discarded_retained (items : List Item) (left : Nat) :
    (discarded old size limit items left ++ retained old size limit items left).Perm items := by
  induction items generalizing left with
  | nil => exact List.Perm.nil
  | cons item items inductionHypothesis =>
      rw [discarded, retained]
      split
      · exact (inductionHypothesis _).cons item
      · exact List.perm_middle.trans ((inductionHypothesis _).cons item)

/-- Nothing more goes once what is left is small enough. -/
theorem retained_of_le {items : List Item} (new : ∀ item ∈ items, ¬ old item) {left : Nat}
    (fits : left ≤ limit) : retained old size limit items left = items := by
  induction items with
  | nil => rfl
  | cons item items inductionHypothesis =>
      rw [retained, if_neg (not_or.mpr ⟨new item (by simp), fits.not_gt⟩),
        inductionHypothesis fun other member => new other (by simp [member])]

/-- The old items are at the old end. -/
def OldFirst (items : List Item) : Prop := items.Pairwise fun before after => old after → old before

variable {old}

theorem OldFirst.filter_suffix {items : List Item} (ordered : OldFirst old items) :
    items.filter (fun item => ¬ old item) <:+ items := by
  induction items with
  | nil => exact List.suffix_rfl
  | cons item items inductionHypothesis =>
      obtain ⟨first, rest⟩ := List.pairwise_cons.mp ordered
      by_cases aged : old item
      · rw [List.filter_cons_of_neg (by simpa using aged)]
        exact (inductionHypothesis rest).trans (List.suffix_cons item items)
      · have new : ∀ other ∈ item :: items, ¬ old other := by
          intro other member
          rcases List.mem_cons.mp member with rfl | later
          · exact aged
          · exact fun other_old => aged (first other later other_old)
        exact ⟨[], List.filter_eq_self.mpr (by simpa using new)⟩

/-- What stays are the items that are not old without the fewest of the oldest that
make the rest fit. -/
theorem retained_total {items : List Item} (ordered : OldFirst old items) :
    ∃ count, retained old size limit items (total size items) =
        (items.filter fun item => ¬ old item).drop count ∧
      total size ((items.filter fun item => ¬ old item).drop count) ≤ limit ∧
      ∀ fewer < count, limit < total size ((items.filter fun item => ¬ old item).drop fewer) := by
  induction items with
  | nil => exact ⟨0, rfl, Nat.zero_le _, fun _ below => absurd below (Nat.not_lt_zero _)⟩
  | cons item items inductionHypothesis =>
      obtain ⟨first, rest⟩ := List.pairwise_cons.mp ordered
      obtain ⟨count, same, fits, fewest⟩ := inductionHypothesis rest
      have remaining : total size (item :: items) - size item = total size items := by
        rw [total_cons, Nat.add_sub_cancel_left]
      by_cases aged : old item
      · rw [List.filter_cons_of_neg (by simpa using aged), retained, if_pos (Or.inl aged), remaining]
        exact ⟨count, same, fits, fewest⟩
      · have new : ∀ other ∈ items, ¬ old other :=
          fun other member other_old => aged (first other member other_old)
        have whole : items.filter (fun item => ¬ old item) = items :=
          List.filter_eq_self.mpr (by simpa using new)
        rw [whole] at same fits fewest
        rw [List.filter_cons_of_pos (by simpa using aged), whole]
        by_cases large : limit < total size (item :: items)
        · rw [retained, if_pos (Or.inr large), remaining]
          refine ⟨count + 1, same, fits, ?_⟩
          intro fewer below
          cases fewer with
          | zero => exact large
          | succ fewer => exact fewest fewer (by omega)
        · refine ⟨0, ?_, not_lt.mp large, fun _ below => absurd below (Nat.not_lt_zero _)⟩
          rw [retained, if_neg (not_or.mpr ⟨aged, large⟩),
            retained_of_le old size limit new (not_lt.mp large), List.drop_zero]

end Sweep

end SystemPilot.Library.Retention
