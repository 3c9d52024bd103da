import Mathlib.Tactic
import SystemPilot.Json

/-!
# Masked documents

A mask replaces the members of hidden keys by one text and rewrites every other
string.  Its result is described place by place, and two masks one after the
other are one mask.
-/

set_option autoImplicit false

namespace SystemPilot.Json

/-! ## Places of a document -/

/-- One step into a document: to a member of an object or to an item of an array. -/
inductive Place where
  | key (name : String)
  | index (position : Nat)
  deriving DecidableEq, Repr

/-- The second document stands in the first at this path. -/
inductive Inside : Value → List Place → Value → Prop where
  | here (value : Value) : Inside value [] value
  | member {fields : List (String × Value)} {name : String} {child inner : Value}
      {path : List Place} (found : (name, child) ∈ fields) (deeper : Inside child path inner) :
      Inside (.object fields) (.key name :: path) inner
  | item {items : List Value} {position : Nat} {child inner : Value} {path : List Place}
      (found : items[position]? = some child) (deeper : Inside child path inner) :
      Inside (.array items) (.index position :: path) inner

theorem Inside.trans {value middle inner : Value} {path rest : List Place}
    (outer : Inside value path middle) (deeper : Inside middle rest inner) :
    Inside value (path ++ rest) inner := by
  induction outer with
  | here => exact deeper
  | member found _ inductionHypothesis => exact .member found (inductionHypothesis deeper)
  | item found _ inductionHypothesis => exact .item found (inductionHypothesis deeper)

/-- What stands below a place stands below the value on the way. -/
theorem Inside.split {value inner : Value} (path rest : List Place)
    (inside : Inside value (path ++ rest) inner) :
    ∃ middle, Inside value path middle ∧ Inside middle rest inner := by
  induction path generalizing value with
  | nil => exact ⟨value, .here value, inside⟩
  | cons place path inductionHypothesis =>
      cases inside with
      | member found deeper =>
          obtain ⟨middle, upper, lower⟩ := inductionHypothesis deeper
          exact ⟨middle, .member found upper, lower⟩
      | item found deeper =>
          obtain ⟨middle, upper, lower⟩ := inductionHypothesis deeper
          exact ⟨middle, .item found upper, lower⟩

theorem inside_nil_iff (value inner : Value) : Inside value [] inner ↔ inner = value := by
  constructor
  · intro inside
    cases inside
    rfl
  · rintro rfl
    exact .here _

theorem inside_key_iff (value inner : Value) (name : String) (path : List Place) :
    Inside value (.key name :: path) inner ↔
      ∃ fields child, value = .object fields ∧ (name, child) ∈ fields ∧ Inside child path inner := by
  constructor
  · intro inside
    cases inside with
    | member found deeper => exact ⟨_, _, rfl, found, deeper⟩
  · rintro ⟨fields, child, rfl, found, deeper⟩
    exact .member found deeper

theorem inside_index_iff (value inner : Value) (position : Nat) (path : List Place) :
    Inside value (.index position :: path) inner ↔
      ∃ items child, value = .array items ∧ items[position]? = some child ∧
        Inside child path inner := by
  constructor
  · intro inside
    cases inside with
    | item found deeper => exact ⟨_, _, rfl, found, deeper⟩
  · rintro ⟨items, child, rfl, found, deeper⟩
    exact .item found deeper

/-! ## Masks -/

structure Mask where
  hides : String → Bool
  replacement : String
  rewrite : String → String

namespace Mask

mutual

def apply (mask : Mask) : Value → Value
  | .object fields => .object (applyFields mask fields)
  | .array items => .array (applyItems mask items)
  | .string text => .string (mask.rewrite text)
  | .null => .null
  | .bool value => .bool value
  | .number value => .number value

def applyItems (mask : Mask) : List Value → List Value
  | [] => []
  | item :: rest => apply mask item :: applyItems mask rest

def applyFields (mask : Mask) : List (String × Value) → List (String × Value)
  | [] => []
  | (key, child) :: rest =>
      (key, if mask.hides key then .string mask.replacement else apply mask child) ::
        applyFields mask rest

end

/-- What a mask makes of one member. -/
def applyMember (mask : Mask) (key : String) (child : Value) : Value :=
  if mask.hides key then .string mask.replacement else mask.apply child

theorem applyItems_eq_map (mask : Mask) (items : List Value) :
    mask.applyItems items = items.map mask.apply := by
  induction items with
  | nil => rfl
  | cons item rest inductionHypothesis =>
      rw [applyItems, inductionHypothesis, List.map_cons]

theorem applyFields_eq_map (mask : Mask) (fields : List (String × Value)) :
    mask.applyFields fields =
      fields.map fun field => (field.1, mask.applyMember field.1 field.2) := by
  induction fields with
  | nil => rfl
  | cons field rest inductionHypothesis =>
      rw [applyFields, inductionHypothesis, List.map_cons]
      rfl

theorem keys_applyFields (mask : Mask) (fields : List (String × Value)) :
    (mask.applyFields fields).map Prod.fst = fields.map Prod.fst := by
  rw [applyFields_eq_map, List.map_map]
  rfl

/-! ## What a mask leaves at each place -/

/-- A path on which no member is hidden. -/
def Clear (mask : Mask) (path : List Place) : Prop :=
  ∀ name, Place.key name ∈ path → mask.hides name = false

theorem clear_nil (mask : Mask) : mask.Clear [] := by
  intro name named
  cases named

theorem clear_key_iff (mask : Mask) (name : String) (path : List Place) :
    mask.Clear (.key name :: path) ↔ mask.hides name = false ∧ mask.Clear path := by
  constructor
  · intro clear
    exact ⟨clear name List.mem_cons_self, fun other named =>
      clear other (List.mem_cons_of_mem _ named)⟩
  · rintro ⟨shown, clear⟩ other named
    rcases List.mem_cons.mp named with same | later
    · cases same
      exact shown
    · exact clear other later

theorem clear_index_iff (mask : Mask) (position : Nat) (path : List Place) :
    mask.Clear (.index position :: path) ↔ mask.Clear path := by
  simp [Clear]

theorem Clear.append {mask : Mask} {path rest : List Place} (upper : mask.Clear path)
    (lower : mask.Clear rest) : mask.Clear (path ++ rest) := by
  intro name named
  rcases List.mem_append.mp named with inUpper | inLower
  · exact upper name inUpper
  · exact lower name inLower

/-- Outside hidden members every value keeps its place. -/
theorem inside_apply_of_clear (mask : Mask) {value inner : Value} {path : List Place}
    (inside : Inside value path inner) (clear : mask.Clear path) :
    Inside (mask.apply value) path (mask.apply inner) := by
  induction inside with
  | here => exact .here _
  | @member fields name child inner path found _ inductionHypothesis =>
      obtain ⟨shown, rest⟩ := (clear_key_iff mask name path).mp clear
      have kept : (name, mask.apply child) ∈ mask.applyFields fields := by
        rw [applyFields_eq_map]
        exact List.mem_map.mpr ⟨(name, child), found, by simp [applyMember, shown]⟩
      rw [apply]
      exact .member kept (inductionHypothesis rest)
  | @item items position child inner path found _ inductionHypothesis =>
      have kept : (mask.applyItems items)[position]? = some (mask.apply child) := by
        rw [applyItems_eq_map, List.getElem?_map, found]
        rfl
      rw [apply]
      exact .item kept (inductionHypothesis ((clear_index_iff mask position path).mp clear))

/-- The member of a hidden key, and everything below it, is one text. -/
def Hidden (mask : Mask) (value : Value) (path : List Place) : Prop :=
  ∃ above name, path = above ++ [Place.key name] ∧ mask.Clear above ∧
    mask.hides name = true ∧ ∃ inner, Inside value path inner

theorem Hidden.member {mask : Mask} {fields : List (String × Value)} {name : String}
    {child : Value} {path : List Place} (found : (name, child) ∈ fields)
    (shown : mask.hides name = false) (hidden : mask.Hidden child path) :
    mask.Hidden (.object fields) (.key name :: path) := by
  obtain ⟨above, last, rfl, clear, hides, inner, inside⟩ := hidden
  exact ⟨.key name :: above, last, rfl, (clear_key_iff mask name above).mpr ⟨shown, clear⟩,
    hides, inner, .member found inside⟩

theorem Hidden.item {mask : Mask} {items : List Value} {position : Nat}
    {child : Value} {path : List Place} (found : items[position]? = some child)
    (hidden : mask.Hidden child path) :
    mask.Hidden (.array items) (.index position :: path) := by
  obtain ⟨above, last, rfl, clear, hides, inner, inside⟩ := hidden
  exact ⟨.index position :: above, last, rfl, (clear_index_iff mask position above).mpr clear,
    hides, inner, .item found inside⟩

theorem not_hidden_nil (mask : Mask) (value : Value) : ¬ mask.Hidden value [] := by
  rintro ⟨above, name, shape, -⟩
  exact List.append_ne_nil_of_right_ne_nil above (List.cons_ne_nil _ []) shape.symm

theorem hidden_key_iff (mask : Mask) (value : Value) (name : String) (path : List Place) :
    mask.Hidden value (.key name :: path) ↔
      ∃ fields child, value = .object fields ∧ (name, child) ∈ fields ∧
        ((mask.hides name = true ∧ path = []) ∨
          (mask.hides name = false ∧ mask.Hidden child path)) := by
  constructor
  · rintro ⟨above, last, shape, clear, hides, inner, inside⟩
    obtain ⟨fields, child, rfl, found, deeper⟩ := (inside_key_iff _ _ _ _).mp inside
    refine ⟨fields, child, rfl, found, ?_⟩
    cases above with
    | nil =>
        cases shape
        exact .inl ⟨hides, rfl⟩
    | cons place above =>
        cases shape
        obtain ⟨shown, rest⟩ := (clear_key_iff mask name above).mp clear
        exact .inr ⟨shown, above, last, rfl, rest, hides, inner, deeper⟩
  · rintro ⟨fields, child, rfl, found, ⟨hides, rfl⟩ | ⟨shown, hidden⟩⟩
    · exact ⟨[], name, rfl, clear_nil mask, hides, child, .member found (.here _)⟩
    · exact hidden.member found shown

theorem hidden_index_iff (mask : Mask) (value : Value) (position : Nat) (path : List Place) :
    mask.Hidden value (.index position :: path) ↔
      ∃ items child, value = .array items ∧ items[position]? = some child ∧
        mask.Hidden child path := by
  constructor
  · rintro ⟨above, last, shape, clear, hides, inner, inside⟩
    obtain ⟨items, child, rfl, found, deeper⟩ := (inside_index_iff _ _ _ _).mp inside
    refine ⟨items, child, rfl, found, ?_⟩
    cases above with
    | nil => cases shape
    | cons place above =>
        cases shape
        exact ⟨above, last, rfl, (clear_index_iff mask position above).mp clear, hides, inner,
          deeper⟩
  · rintro ⟨items, child, rfl, found, hidden⟩
    exact hidden.item found

theorem apply_eq_object {mask : Mask} {value : Value} {fields : List (String × Value)}
    (same : mask.apply value = .object fields) :
    ∃ original, value = .object original ∧ fields = mask.applyFields original := by
  cases value with
  | object original => exact ⟨original, rfl, (Value.object.inj same).symm⟩
  | _ => simp only [apply, reduceCtorEq] at same

theorem apply_eq_array {mask : Mask} {value : Value} {items : List Value}
    (same : mask.apply value = .array items) :
    ∃ original, value = .array original ∧ items = mask.applyItems original := by
  cases value with
  | array original => exact ⟨original, rfl, (Value.array.inj same).symm⟩
  | _ => simp only [apply, reduceCtorEq] at same

theorem mem_applyFields {mask : Mask} {fields : List (String × Value)} {name : String}
    {child : Value} (found : (name, child) ∈ mask.applyFields fields) :
    ∃ original, (name, original) ∈ fields ∧ child = mask.applyMember name original := by
  rw [applyFields_eq_map] at found
  obtain ⟨⟨key, original⟩, member, same⟩ := List.mem_map.mp found
  cases same
  exact ⟨original, member, rfl⟩

/-- Every value of a masked document is the masked value of that place, or the
replacement of a hidden member. -/
theorem inside_apply (mask : Mask) {path : List Place} {value out : Value}
    (inside : Inside (mask.apply value) path out) :
    (mask.Clear path ∧ ∃ inner, Inside value path inner ∧ out = mask.apply inner) ∨
      (mask.Hidden value path ∧ out = .string mask.replacement) := by
  induction path generalizing value with
  | nil =>
      have whole := (inside_nil_iff _ _).mp inside
      exact .inl ⟨clear_nil mask, value, .here value, whole⟩
  | cons place path inductionHypothesis =>
      cases place with
      | key name =>
          obtain ⟨fields, child, object, found, deeper⟩ := (inside_key_iff _ _ _ _).mp inside
          obtain ⟨fields, rfl, rfl⟩ := apply_eq_object object
          obtain ⟨original, member, rfl⟩ := mem_applyFields found
          cases hides : mask.hides name with
          | true =>
              rw [applyMember, if_pos hides] at deeper
              cases deeper
              exact .inr ⟨⟨[], name, rfl, clear_nil mask, hides, original,
                .member member (.here _)⟩, rfl⟩
          | false =>
              rw [applyMember, if_neg (Bool.not_eq_true _ ▸ hides)] at deeper
              rcases inductionHypothesis deeper with ⟨clear, inner, below, same⟩ | ⟨hidden, same⟩
              · exact .inl ⟨(clear_key_iff mask name path).mpr ⟨hides, clear⟩, inner,
                  .member member below, same⟩
              · exact .inr ⟨hidden.member member hides, same⟩
      | index position =>
          obtain ⟨items, child, array, found, deeper⟩ := (inside_index_iff _ _ _ _).mp inside
          obtain ⟨items, rfl, rfl⟩ := apply_eq_array array
          rw [applyItems_eq_map, List.getElem?_map] at found
          obtain ⟨original, member, rfl⟩ := Option.map_eq_some_iff.mp found
          rcases inductionHypothesis deeper with ⟨clear, inner, below, same⟩ | ⟨hidden, same⟩
          · exact .inl ⟨(clear_index_iff mask position path).mpr clear, inner,
              .item member below, same⟩
          · exact .inr ⟨hidden.item member, same⟩

/-- Members of a hidden key are the replacement wherever they stand. -/
theorem hidden_member (mask : Mask) {value child : Value} {path : List Place}
    {fields : List (String × Value)} {name : String}
    (inside : Inside (mask.apply value) path (.object fields))
    (found : (name, child) ∈ fields) (hides : mask.hides name = true) :
    child = .string mask.replacement := by
  rcases inside_apply mask inside with ⟨_, inner, _, same⟩ | ⟨_, same⟩
  · obtain ⟨original, rfl, rfl⟩ := apply_eq_object same.symm
    obtain ⟨before, _, rfl⟩ := mem_applyFields found
    exact if_pos hides
  · cases same

/-! ## Masks one after the other -/

/-- The mask that hides what either hides. -/
def andThen (first second : Mask) : Mask where
  hides key := first.hides key || second.hides key
  replacement := first.replacement
  rewrite := second.rewrite ∘ first.rewrite

mutual

/-- Masking twice is masking once, where the second mask leaves the text of the
first alone. -/
theorem apply_apply {first second : Mask} (same : second.replacement = first.replacement)
    (stable : second.rewrite first.replacement = first.replacement) :
    ∀ value, second.apply (first.apply value) = (first.andThen second).apply value
  | .object fields => by simp only [apply, applyFields_applyFields same stable fields]
  | .array items => by simp only [apply, applyItems_applyItems same stable items]
  | .string text => by simp only [apply, andThen, Function.comp]
  | .null => rfl
  | .bool _ => rfl
  | .number _ => rfl

theorem applyItems_applyItems {first second : Mask}
    (same : second.replacement = first.replacement)
    (stable : second.rewrite first.replacement = first.replacement) :
    ∀ items, second.applyItems (first.applyItems items) = (first.andThen second).applyItems items
  | [] => rfl
  | item :: rest => by
      simp only [applyItems, apply_apply same stable item,
        applyItems_applyItems same stable rest]

theorem applyFields_applyFields {first second : Mask}
    (same : second.replacement = first.replacement)
    (stable : second.rewrite first.replacement = first.replacement) :
    ∀ fields,
      second.applyFields (first.applyFields fields) = (first.andThen second).applyFields fields
  | [] => rfl
  | (key, child) :: rest => by
      simp only [applyFields, applyFields_applyFields same stable rest]
      cases outer : first.hides key <;> cases inner : second.hides key <;>
        simp [andThen, outer, inner, apply, apply_apply same stable child, same, stable]

end

end Mask

end SystemPilot.Json
