import Mathlib.Tactic
import Mathlib.Data.List.Sort
import Mathlib.Data.List.TakeWhile

/-!
# Stable rankings

Items sorted by a key, equal ones in the order they came in.  What stands before
an item of an owner is known without sorting, and so is whether the first few
items of a ranking belong to as many owners as they could.
-/

set_option autoImplicit false

namespace SystemPilot.Library.Ranking

variable {Item Key : Type} [LinearOrder Key]

/-- `sort_by_key`. -/
def ascending (key : Item → Key) (items : List Item) : List Item :=
  items.insertionSort fun before after => key before ≤ key after

/-- `sort_by_key` with `Reverse`. -/
def descending (key : Item → Key) (items : List Item) : List Item :=
  items.insertionSort fun before after => key after ≤ key before

/-! ## Stability -/

/-- Items that may stand in either order keep theirs. -/
theorem filter_insertionSort (order : Item → Item → Prop) [DecidableRel order]
    (selects : Item → Bool) (alike : ∀ before after, selects before = true →
      selects after = true → order before after) (items : List Item) :
    (items.insertionSort order).filter selects = items.filter selects := by
  induction items with
  | nil => rfl
  | cons item items inductionHypothesis =>
      rw [List.insertionSort_cons_eq_take_drop, List.filter_append, List.filter_cons,
        List.filter_cons]
      have split := congrArg (List.filter selects)
        (List.takeWhile_append_dropWhile (l := items.insertionSort order)
          (p := fun other => decide ¬order item other))
      rw [List.filter_append, inductionHypothesis] at split
      by_cases selected : selects item = true
      · have none : ((items.insertionSort order).takeWhile
            fun other => decide ¬order item other).filter selects = [] := by
          rw [List.filter_eq_nil_iff]
          intro other member chosen
          have stays := List.mem_takeWhile_imp member
          simp only [decide_eq_true_eq] at stays
          exact stays (alike item other selected chosen)
        rw [none, List.nil_append] at split ⊢
        rw [if_pos selected, if_pos selected, split]
      · rw [if_neg selected, if_neg selected, split]

section Rank

variable (key : Item → Key)

theorem filter_ascending (value : Key) (items : List Item) :
    (ascending key items).filter (fun item => key item = value) =
      items.filter fun item => key item = value := by
  refine filter_insertionSort _ _ ?_ items
  intro before after same other
  rw [decide_eq_true_eq] at same other
  exact (same.trans other.symm).le

theorem filter_descending (value : Key) (items : List Item) :
    (descending key items).filter (fun item => key item = value) =
      items.filter fun item => key item = value := by
  refine filter_insertionSort _ _ ?_ items
  intro before after same other
  rw [decide_eq_true_eq] at same other
  exact (other.trans same.symm).le

theorem perm_ascending (items : List Item) : (ascending key items).Perm items :=
  List.perm_insertionSort _ items

theorem perm_descending (items : List Item) : (descending key items).Perm items :=
  List.perm_insertionSort _ items

theorem pairwise_ascending (items : List Item) :
    (ascending key items).Pairwise fun before after => key before ≤ key after := by
  have total : Std.Total fun before after : Item => key before ≤ key after :=
    ⟨fun before after => le_total (key before) (key after)⟩
  have trans : IsTrans Item fun before after => key before ≤ key after :=
    ⟨fun _ _ _ first second => le_trans first second⟩
  exact List.pairwise_insertionSort _ items

theorem pairwise_descending (items : List Item) :
    (descending key items).Pairwise fun before after => key after ≤ key before := by
  have total : Std.Total fun before after : Item => key after ≤ key before :=
    ⟨fun before after => le_total (key after) (key before)⟩
  have trans : IsTrans Item fun before after => key after ≤ key before :=
    ⟨fun _ _ _ first second => le_trans second first⟩
  exact List.pairwise_insertionSort _ items

/-- A ranking is known from the items of each key. -/
theorem eq_of_filter_eq {left right : List Item}
    (leftSorted : left.Pairwise fun before after => key before ≤ key after)
    (rightSorted : right.Pairwise fun before after => key before ≤ key after)
    (same : ∀ value, left.filter (fun item => key item = value) =
      right.filter fun item => key item = value) : left = right := by
  have member : ∀ item, item ∈ left ↔ item ∈ right := by
    intro item
    have classes : item ∈ left.filter (fun other => key other = key item) ↔
        item ∈ right.filter fun other => key other = key item := by rw [same (key item)]
    simpa using classes
  induction left generalizing right with
  | nil =>
      cases right with
      | nil => rfl
      | cons other right => exact absurd ((member other).mpr (by simp)) (by simp)
  | cons item left inductionHypothesis =>
      cases right with
      | nil => exact absurd ((member item).mp (by simp)) (by simp)
      | cons other right =>
          rw [List.pairwise_cons] at leftSorted rightSorted
          have keys : key item = key other := by
            refine le_antisymm ?_ ?_
            · rcases List.mem_cons.mp ((member other).mpr (by simp)) with rfl | later
              · exact le_rfl
              · exact leftSorted.1 other later
            · rcases List.mem_cons.mp ((member item).mp (by simp)) with rfl | later
              · exact le_rfl
              · exact rightSorted.1 item later
          have first := same (key item)
          simp only [List.filter_cons, keys, decide_true, if_true, List.cons.injEq] at first
          obtain ⟨rfl, -⟩ := first
          have rest : ∀ value, left.filter (fun entry => key entry = value) =
              right.filter fun entry => key entry = value := by
            intro value
            have whole := same value
            by_cases equal : key item = value
            · simpa [List.filter_cons, equal] using whole
            · simpa [List.filter_cons, equal] using whole
          rw [inductionHypothesis leftSorted.2 rightSorted.2 rest]
          intro entry
          have classes : entry ∈ left.filter (fun other => key other = key entry) ↔
              entry ∈ right.filter fun other => key other = key entry := by rw [rest (key entry)]
          simpa using classes

theorem ascending_descending (items : List Item) :
    ascending key (descending key items) = ascending key items := by
  refine eq_of_filter_eq key (pairwise_ascending key _) (pairwise_ascending key _) fun value => ?_
  rw [filter_ascending, filter_ascending, filter_descending]

end Rank

/-! ## What stands before an owner -/

section Owners

variable {Owner : Type} [DecidableEq Owner] (key : Item → Key) (owner : Item → Owner)

/-- The items before the first one of an owner. -/
def before (name : Owner) (items : List Item) : List Item :=
  items.takeWhile fun item => owner item ≠ name

/-- The items that go before an owner whose items have the given key: those of a
higher key, and those of the same key that came in earlier. -/
def ahead (name : Owner) (value : Key) (items : List Item) : List Item :=
  items.filter (fun item => value < key item) ++
    (before owner name items).filter fun item => key item = value

/-- How many owners there are. -/
def owners (items : List Item) : Nat := (items.map owner).toFinset.card

variable {owner}

theorem owners_le_length (items : List Item) : owners owner items ≤ items.length := by
  have card := (items.map owner).toFinset_card_le
  rwa [List.length_map] at card

theorem owners_mono {left right : List Item}
    (inside : ∀ item ∈ left, owner item ∈ right.map owner) :
    owners owner left ≤ owners owner right := by
  refine Finset.card_le_card ?_
  intro name
  rw [List.mem_toFinset, List.mem_toFinset]
  intro present
  obtain ⟨item, member, rfl⟩ := List.mem_map.mp present
  exact inside item member

theorem owners_perm {left right : List Item} (same : left.Perm right) :
    owners owner left = owners owner right := by
  rw [owners, owners, List.toFinset_eq_of_perm _ _ (same.map owner)]

theorem owner_ne_of_mem_before {name : Owner} {items : List Item} {item : Item}
    (member : item ∈ before owner name items) : owner item ≠ name := by
  simpa using List.mem_takeWhile_imp member

theorem before_append_cons {items rest : List Item} {item : Item}
    (others : ∀ other ∈ items, owner other ≠ owner item) :
    before owner (owner item) (items ++ item :: rest) = items := by
  rw [before, List.takeWhile_append_of_pos (by simpa using others), List.takeWhile_cons,
    if_neg (by simp), List.append_nil]

/-- Whether the first items belong to as many owners as they could is known from
what stands before each owner. -/
theorem owners_take_iff (count : Nat) (items : List Item) :
    owners owner (items.take count) = min count (owners owner items) ↔
      ∀ name ∈ items.map owner, count ≤ (before owner name items).length →
        count ≤ owners owner (before owner name items) := by
  have part : ∀ item ∈ items.take count, item ∈ items := fun item => List.mem_of_mem_take
  constructor
  · intro full name present many
    have taken : items.take count = (before owner name items).take count := by
      conv_lhs => rw [← List.takeWhile_append_dropWhile (l := items)
        (p := fun item => decide (owner item ≠ name))]
      exact List.take_append_of_le_length many
    have fewer : owners owner (items.take count) ≤ owners owner (before owner name items) := by
      rw [taken]
      exact owners_mono fun item member => List.mem_map_of_mem (List.mem_of_mem_take member)
    -- the owner itself is one more
    have missing : owners owner (before owner name items) < owners owner items := by
      refine Finset.card_lt_card ((Finset.ssubset_iff_of_subset ?_).mpr ⟨name, ?_, ?_⟩)
      · intro other
        rw [List.mem_toFinset, List.mem_toFinset]
        intro found
        obtain ⟨item, member, rfl⟩ := List.mem_map.mp found
        exact List.mem_map_of_mem ((List.takeWhile_prefix _).subset member)
      · exact List.mem_toFinset.mpr present
      · rw [List.mem_toFinset]
        intro found
        obtain ⟨item, member, same⟩ := List.mem_map.mp found
        exact owner_ne_of_mem_before member same
    omega
  · intro spread
    have upper : owners owner (items.take count) ≤ min count (owners owner items) := by
      refine le_min ?_ (owners_mono fun item member => List.mem_map_of_mem (part item member))
      exact (owners_le_length _).trans (List.length_take_le count items)
    by_contra short
    have less : owners owner (items.take count) < min count (owners owner items) :=
      lt_of_le_of_ne upper short
    let taken := (items.take count).map owner
    -- the first item of an owner that is not among those taken
    have split := List.takeWhile_append_dropWhile (l := items)
      (p := fun item => decide (owner item ∈ taken))
    cases rest : items.dropWhile fun item => decide (owner item ∈ taken) with
    | nil =>
        have all : ∀ item ∈ items, owner item ∈ (items.take count).map owner := by
          intro item member
          exact of_decide_eq_true (List.dropWhile_eq_nil_iff.mp rest item member)
        have enough : owners owner items ≤ owners owner (items.take count) := owners_mono all
        omega
    | cons item rest' =>
        rw [rest] at split
        have known : ∀ other ∈ items.takeWhile (fun item => decide (owner item ∈ taken)),
            owner other ∈ taken := by
          intro other member
          simpa using List.mem_takeWhile_imp member
        have new : owner item ∉ taken := by
          have head := List.head?_dropWhile_not (fun item => decide (owner item ∈ taken)) items
          rw [rest] at head
          simpa using head
        have stands : before owner (owner item) items =
            items.takeWhile fun item => decide (owner item ∈ taken) := by
          conv_lhs => rw [← split]
          refine before_append_cons fun other member same => new ?_
          rw [← same]
          exact known other member
        have long : count ≤ (before owner (owner item) items).length := by
          rw [stands]
          by_contra few
          refine new (List.mem_map_of_mem ?_)
          have position := Nat.exists_eq_succ_of_ne_zero (Nat.sub_ne_zero_of_lt (not_le.mp few))
          obtain ⟨left, position⟩ := position
          rw [← split, List.take_append, position, List.take_succ_cons]
          simp
        have owned := spread (owner item) (List.mem_map_of_mem (by rw [← split]; simp)) long
        have bound : owners owner (before owner (owner item) items) ≤
            owners owner (items.take count) := by
          rw [stands]
          exact owners_mono known
        omega

/-- A descending list is cut at a key. -/
theorem filter_of_descending {items : List Item}
    (sorted : items.Pairwise fun before after => key after ≤ key before) (value : Key) :
    items = items.filter (fun item => value < key item) ++
      (items.filter (fun item => key item = value) ++
        items.filter fun item => key item < value) := by
  induction items with
  | nil => rfl
  | cons item items inductionHypothesis =>
      rw [List.pairwise_cons] at sorted
      have tail := inductionHypothesis sorted.2
      rcases lt_trichotomy value (key item) with above | rfl | below
      · have apart := above.ne'
        have low := above.le.not_gt
        simp only [List.filter_cons, above, apart, low, decide_true, decide_false, if_true,
          Bool.false_eq_true, if_false, List.cons_append]
        rw [← tail]
      · have none : items.filter (fun other => key item < key other) = [] := by
          rw [List.filter_eq_nil_iff]
          intro other member
          simpa using sorted.1 other member
        rw [none, List.nil_append] at tail
        simp only [List.filter_cons, lt_irrefl, decide_true, decide_false, if_true,
          Bool.false_eq_true, if_false, none, List.nil_append, List.cons_append]
        rw [← tail]
      · have high : items.filter (fun other => value < key other) = [] := by
          rw [List.filter_eq_nil_iff]
          intro other member
          have lower := sorted.1 other member
          simpa using (lower.trans below.le)
        have same : items.filter (fun other => key other = value) = [] := by
          rw [List.filter_eq_nil_iff]
          intro other member
          have lower := sorted.1 other member
          simpa using (lower.trans_lt below).ne
        rw [high, same, List.nil_append, List.nil_append] at tail
        have apart := below.ne
        have low := below.le.not_gt
        simp only [List.filter_cons, below, apart, low, decide_true, decide_false, if_true,
          Bool.false_eq_true, if_false, high, same, List.nil_append]
        rw [← tail]

theorem before_filter {name : Owner} {value : Key} {items : List Item}
    (keyed : ∀ item ∈ items, owner item = name → key item = value) :
    before owner name (items.filter fun item => key item = value) =
      (before owner name items).filter fun item => key item = value := by
  unfold before
  induction items with
  | nil => rfl
  | cons item items inductionHypothesis =>
      have tail := inductionHypothesis fun other member => keyed other (by simp [member])
      simp only [ne_eq, decide_not] at tail ⊢
      by_cases own : owner item = name
      · have same := keyed item (by simp) own
        simp [same, own]
      · by_cases same : key item = value
        · simp [same, own, tail]
        · simp [same, own, tail]

/-- Before the first item of an owner in the ranking stand the items that go ahead
of it. -/
theorem perm_before_descending {name : Owner} {value : Key} {items : List Item}
    (present : name ∈ items.map owner)
    (keyed : ∀ item ∈ items, owner item = name → key item = value) :
    (before owner name (descending key items)).Perm (ahead key owner name value items) := by
  have ranked := perm_descending key items
  have cut := filter_of_descending key (pairwise_descending key items) value
  rw [filter_descending] at cut
  obtain ⟨item, member, own⟩ := List.mem_map.mp present
  have same := keyed item member own
  have stands : before owner name (descending key items) =
      (descending key items).filter (fun item => value < key item) ++
        before owner name (items.filter fun item => key item = value) := by
    have higher : ∀ other ∈ (descending key items).filter (fun item => value < key item),
        decide (owner other ≠ name) = true := by
      intro other found
      rw [decide_eq_true_eq]
      intro owned
      obtain ⟨there, above⟩ := List.mem_filter.mp found
      rw [keyed other (ranked.mem_iff.mp there) owned] at above
      simp at above
    conv_lhs => rw [cut, before, List.takeWhile_append_of_pos higher]
    congr 1
    rw [List.takeWhile_append, if_neg]
    · rfl
    · intro whole
      have all := List.takeWhile_eq_self_iff.mp
        ((List.takeWhile_prefix _).eq_of_length whole)
      have first := all item (by simp [member, same])
      simp [own] at first
  rw [stands, before_filter key keyed, ahead]
  exact (ranked.filter _).append_right _

/-- The first items of the ranking belong to as many owners as they could if and
only if no owner is kept back by too many items of too few others. -/
theorem owners_take_descending_iff (count : Nat) (items : List Item) (rank : Owner → Key)
    (ranked : ∀ item ∈ items, key item = rank (owner item)) :
    owners owner ((descending key items).take count) = min count (owners owner items) ↔
      ∀ name ∈ items.map owner, count ≤ (ahead key owner name (rank name) items).length →
        count ≤ owners owner (ahead key owner name (rank name) items) := by
  have same := perm_descending key items
  rw [← owners_perm same, owners_take_iff]
  refine forall_congr' fun name => ?_
  rw [(same.map owner).mem_iff]
  refine forall_congr' fun present => ?_
  have stands := perm_before_descending key present fun item member own => by
    rw [ranked item member, own]
  rw [stands.length_eq, owners_perm stands]

end Owners

end SystemPilot.Library.Ranking
