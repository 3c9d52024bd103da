import Mathlib.Tactic
import SystemPilot.Json

/-!
# JSON objects

`serde_json::Map` on the sorted field list of an object, the documents the
parser can return, and what the agent relies on when it prints a document and
reads it back.
-/

set_option autoImplicit false

namespace SystemPilot.Json

/-- `serde_json::Map<String, Value>`. -/
abbrev Fields := List (String × Value)

namespace Fields

def get (fields : Fields) (key : String) : Option Value :=
  (fields.find? fun field => field.1 == key).map Prod.snd

def remove (fields : Fields) (key : String) : Fields :=
  fields.filter fun field => field.1 != key

def insert (key : String) (value : Value) : Fields → Fields
  | [] => [(key, value)]
  | field :: rest =>
      if key = field.1 then (key, value) :: rest
      else if key < field.1 then (key, value) :: field :: rest
      else field :: insert key value rest

@[simp] theorem get_nil (key : String) : get [] key = none := rfl

theorem get_cons (field : String × Value) (rest : Fields) (key : String) :
    get (field :: rest) key = if field.1 = key then some field.2 else get rest key := by
  unfold get
  by_cases same : field.1 = key <;> simp [same]

theorem get_insert (fields : Fields) (key other : String) (value : Value) :
    get (insert key value fields) other = if key = other then some value else get fields other := by
  induction fields with
  | nil => simp [insert, get_cons]
  | cons field rest inductionHypothesis =>
      rw [insert]
      split
      · rename_i same
        rw [get_cons, get_cons, ← same]
        split <;> rfl
      · rename_i apart
        split
        · rw [get_cons]
        · rw [get_cons, get_cons, inductionHypothesis]
          by_cases first : field.1 = other
          · rw [if_pos first, if_pos first, if_neg]
            exact fun same => apart (same.trans first.symm)
          · rw [if_neg first, if_neg first]

theorem get_remove (fields : Fields) (key other : String) :
    get (remove fields key) other = if key = other then none else get fields other := by
  induction fields with
  | nil => simp [remove]
  | cons field rest inductionHypothesis =>
      rw [remove, List.filter_cons]
      by_cases same : field.1 = key
      · rw [if_neg (by simpa using same), ← remove, inductionHypothesis, get_cons, same]
        split <;> simp [*]
      · rw [if_pos (by simpa using same), get_cons, get_cons, ← remove, inductionHypothesis]
        by_cases first : field.1 = other
        · rw [if_pos first, if_pos first, if_neg]
          exact fun equal => same (first.trans equal.symm)
        · rw [if_neg first, if_neg first]

@[simp] theorem get_insert_self (fields : Fields) (key : String) (value : Value) :
    get (insert key value fields) key = some value := by
  rw [get_insert, if_pos rfl]

@[simp] theorem get_remove_self (fields : Fields) (key : String) :
    get (remove fields key) key = none := by
  rw [get_remove, if_pos rfl]

theorem get_insert_of_ne (fields : Fields) {key other : String} (value : Value)
    (apart : key ≠ other) : get (insert key value fields) other = get fields other := by
  rw [get_insert, if_neg apart]

theorem get_remove_of_ne (fields : Fields) {key other : String} (apart : key ≠ other) :
    get (remove fields key) other = get fields other := by
  rw [get_remove, if_neg apart]

/-- The keys of a `Map` are sorted and distinct. -/
def Sorted (fields : Fields) : Prop := fields.Pairwise fun left right => left.1 < right.1

instance (fields : Fields) : Decidable fields.Sorted :=
  inferInstanceAs (Decidable (List.Pairwise _ fields))

/-- Fields are sorted by their keys, whatever the values. -/
theorem sorted_of_keys {fields : Fields} (keys : List String)
    (same : fields.map Prod.fst = keys) (sorted : keys.Pairwise (· < ·)) : fields.Sorted :=
  List.pairwise_map.mp (same ▸ sorted)

theorem mem_insert {fields : Fields} {key : String} {value : Value} {field : String × Value}
    (member : field ∈ insert key value fields) : field = (key, value) ∨ field ∈ fields := by
  induction fields with
  | nil => exact Or.inl (List.mem_singleton.mp member)
  | cons first rest inductionHypothesis =>
      rw [insert] at member
      split at member
      · rcases List.mem_cons.mp member with new | old
        · exact Or.inl new
        · exact Or.inr (List.mem_cons_of_mem _ old)
      · split at member
        · exact List.mem_cons.mp member
        · rcases List.mem_cons.mp member with same | later
          · exact Or.inr (by simp [same])
          · exact (inductionHypothesis later).imp_right (List.mem_cons_of_mem _)

theorem Sorted.insert {fields : Fields} (sorted : fields.Sorted) (key : String) (value : Value) :
    (Fields.insert key value fields).Sorted := by
  induction fields with
  | nil => exact List.pairwise_singleton _ _
  | cons first rest inductionHypothesis =>
      obtain ⟨below, later⟩ := List.pairwise_cons.mp sorted
      rw [Fields.insert]
      split
      · rename_i same
        exact List.pairwise_cons.mpr ⟨fun field member => by rw [same]; exact below field member, later⟩
      · rename_i apart
        split
        · rename_i before
          refine List.pairwise_cons.mpr ⟨?_, sorted⟩
          intro field member
          rcases List.mem_cons.mp member with rfl | member
          · exact before
          · exact String.lt_trans before (below field member)
        · rename_i after
          refine List.pairwise_cons.mpr ⟨?_, inductionHypothesis later⟩
          intro field member
          rcases mem_insert member with rfl | old
          · by_contra above
            exact apart (String.le_antisymm (String.not_lt.mp above) (String.not_lt.mp after))
          · exact below field old

theorem insert_last {fields : Fields} {key : String} (value : Value)
    (below : ∀ field ∈ fields, field.1 < key) :
    Fields.insert key value fields = fields ++ [(key, value)] := by
  induction fields with
  | nil => rfl
  | cons first rest inductionHypothesis =>
      have before : first.1 < key := below first (by simp)
      rw [Fields.insert, if_neg, if_neg, inductionHypothesis, List.cons_append]
      · exact fun field member => below field (by simp [member])
      · exact fun after => String.lt_asymm before after
      · exact fun same => String.lt_irrefl key (same ▸ before)

theorem Sorted.remove {fields : Fields} (sorted : fields.Sorted) (key : String) :
    (Fields.remove fields key).Sorted :=
  List.Pairwise.filter _ sorted

end Fields

/-! ## Documents -/

/-- `f64::is_finite` on the bit pattern. -/
def isFinite (bits : UInt64) : Bool := (bits >>> 52) &&& 0x7FF != 0x7FF

/-- What a parsed document is: keys are sorted, numbers fit their types, and at
most `depth` arrays and objects are nested. -/
def Value.canonical : Nat → Value → Bool
  | _, .null | _, .bool _ | _, .string _ => true
  | _, .number (.float bits) => isFinite bits
  | _, .number (.posInt value) => decide (value < 2 ^ 64)
  | _, .number (.negInt value) => decide (-(2 ^ 63) ≤ value ∧ value < 0)
  | 0, .array _ | 0, .object _ => false
  | depth + 1, .array items => items.all fun item => item.canonical depth
  | depth + 1, .object fields =>
      decide (Fields.Sorted fields) && fields.all fun field => field.2.canonical depth

@[simp] theorem canonical_null (depth : Nat) : Value.null.canonical depth = true := by
  cases depth <;> rfl

@[simp] theorem canonical_bool (depth : Nat) (value : Bool) :
    (Value.bool value).canonical depth = true := by
  cases depth <;> rfl

@[simp] theorem canonical_string (depth : Nat) (text : String) :
    (Value.string text).canonical depth = true := by
  cases depth <;> rfl

mutual

/-- Every double of a document changed by `change`. -/
def Value.mapFloats (change : UInt64 → UInt64) : Value → Value
  | .number (.float bits) => .number (.float (change bits))
  | .array items => .array (mapFloatsItems change items)
  | .object fields => .object (mapFloatsFields change fields)
  | .null => .null
  | .bool value => .bool value
  | .number (.posInt value) => .number (.posInt value)
  | .number (.negInt value) => .number (.negInt value)
  | .string text => .string text

def mapFloatsItems (change : UInt64 → UInt64) : List Value → List Value
  | [] => []
  | item :: rest => item.mapFloats change :: mapFloatsItems change rest

def mapFloatsFields (change : UInt64 → UInt64) : Fields → Fields
  | [] => []
  | (key, value) :: rest => (key, value.mapFloats change) :: mapFloatsFields change rest

end

mutual

theorem mapFloats_same (value : Value) : value.mapFloats (fun bits => bits) = value := by
  match value with
  | .number (.float bits) => rfl
  | .number (.posInt number) | .number (.negInt number) => rfl
  | .null | .bool _ | .string _ => rfl
  | .array items => rw [Value.mapFloats, mapFloatsItems_same items]
  | .object fields => rw [Value.mapFloats, mapFloatsFields_same fields]

theorem mapFloatsItems_same (items : List Value) : mapFloatsItems (fun bits => bits) items = items := by
  match items with
  | [] => rfl
  | item :: rest => rw [mapFloatsItems, mapFloats_same item, mapFloatsItems_same rest]

theorem mapFloatsFields_same (fields : Fields) :
    mapFloatsFields (fun bits => bits) fields = fields := by
  match fields with
  | [] => rfl
  | (key, value) :: rest => rw [mapFloatsFields, mapFloats_same value, mapFloatsFields_same rest]

end

theorem get_mapFloatsFields (change : UInt64 → UInt64) (fields : Fields) (key : String) :
    Fields.get (mapFloatsFields change fields) key =
      (Fields.get fields key).map (Value.mapFloats change) := by
  induction fields with
  | nil => simp [mapFloatsFields]
  | cons field rest inductionHypothesis =>
      obtain ⟨name, value⟩ := field
      rw [mapFloatsFields, Fields.get_cons, Fields.get_cons, inductionHypothesis]
      split <;> rfl

theorem mapFloatsFields_eq_map (change : UInt64 → UInt64) (fields : Fields) :
    mapFloatsFields change fields = fields.map fun field => (field.1, field.2.mapFloats change) := by
  induction fields with
  | nil => rfl
  | cons field rest inductionHypothesis =>
      obtain ⟨name, value⟩ := field
      rw [mapFloatsFields, inductionHypothesis, List.map_cons]

theorem Fields.Sorted.mapFloats {fields : Fields} (sorted : fields.Sorted)
    (change : UInt64 → UInt64) : Fields.Sorted (mapFloatsFields change fields) := by
  rw [mapFloatsFields_eq_map, Fields.Sorted, List.pairwise_map]
  exact sorted

section Canonical

variable {depth : Nat} {fields : Fields}

theorem canonical_object_iff :
    (Value.object fields).canonical (depth + 1) = true ↔
      fields.Sorted ∧ ∀ field ∈ fields, field.2.canonical depth = true := by
  simp [Value.canonical]

theorem canonical_array_iff {items : List Value} :
    (Value.array items).canonical (depth + 1) = true ↔
      ∀ item ∈ items, item.canonical depth = true := by
  simp [Value.canonical]

theorem canonical_insert (canonical : (Value.object fields).canonical (depth + 1) = true)
    (key : String) (value : Value) (fits : value.canonical depth = true) :
    (Value.object (Fields.insert key value fields)).canonical (depth + 1) = true := by
  rw [canonical_object_iff] at canonical ⊢
  refine ⟨canonical.1.insert key value, ?_⟩
  intro field member
  rcases Fields.mem_insert member with rfl | old
  · exact fits
  · exact canonical.2 field old

theorem canonical_remove (canonical : (Value.object fields).canonical (depth + 1) = true)
    (key : String) : (Value.object (Fields.remove fields key)).canonical (depth + 1) = true := by
  rw [canonical_object_iff] at canonical ⊢
  exact ⟨canonical.1.remove key, fun field member => canonical.2 field (List.mem_of_mem_filter member)⟩

theorem canonical_get (canonical : (Value.object fields).canonical (depth + 1) = true)
    {key : String} {value : Value} (found : Fields.get fields key = some value) :
    value.canonical depth = true := by
  obtain ⟨field, matched, rfl⟩ := Option.map_eq_some_iff.mp found
  exact (canonical_object_iff.mp canonical).2 field (List.mem_of_find?_eq_some matched)

end Canonical

end SystemPilot.Json
