import SystemPilot.Json.Printer

/-!
# Records in the order of their fields

A derived serializer writes the members of a record as they are declared.  What is printed
so is read as the same document with its members in the order of their names.
-/

set_option autoImplicit false

namespace SystemPilot.Json

/-- A document that can be printed and read back, its members in any order. -/
def Value.declared : Nat → Value → Bool
  | _, .number (.posInt value) => decide (value < 2 ^ 64)
  | _, .number (.negInt value) => decide (-(2 ^ 63) ≤ value ∧ value < 0)
  | _, .number (.float bits) => isFinite bits
  | _, .null | _, .bool _ | _, .string _ => true
  | 0, .array _ | 0, .object _ => false
  | depth + 1, .array items => items.all fun item => item.declared depth
  | depth + 1, .object fields => fields.all fun field => field.2.declared depth

mutual

/-- What a printed document is read as, given what becomes of its doubles. -/
def Value.readBack (change : UInt64 → UInt64) : Value → Value
  | .number (.float bits) => .number (.float (change bits))
  | .array items => .array (readBackItems change items)
  | .object fields => .object (fieldsOfMembers (readBackFields change fields))
  | .null => .null
  | .bool value => .bool value
  | .number (.posInt value) => .number (.posInt value)
  | .number (.negInt value) => .number (.negInt value)
  | .string text => .string text

def readBackItems (change : UInt64 → UInt64) : List Value → List Value
  | [] => []
  | item :: rest => item.readBack change :: readBackItems change rest

def readBackFields (change : UInt64 → UInt64) : Fields → Fields
  | [] => []
  | (key, value) :: rest => (key, value.readBack change) :: readBackFields change rest

end

section Declared

variable {depth : Nat} {change : UInt64 → UInt64}

theorem declared_array_iff {items : List Value} :
    (Value.array items).declared (depth + 1) = true ↔
      ∀ item ∈ items, item.declared depth = true := by
  simp [Value.declared]

theorem declared_object_iff {fields : Fields} :
    (Value.object fields).declared (depth + 1) = true ↔
      ∀ field ∈ fields, field.2.declared depth = true := by
  simp [Value.declared]

theorem readBackItems_eq_map (items : List Value) :
    readBackItems change items = items.map (Value.readBack change) := by
  induction items with
  | nil => rfl
  | cons item rest inductionHypothesis => rw [readBackItems, inductionHypothesis, List.map_cons]

theorem readBackFields_eq_map (fields : Fields) :
    readBackFields change fields = fields.map fun field => (field.1, field.2.readBack change) := by
  induction fields with
  | nil => rfl
  | cons field rest inductionHypothesis =>
      obtain ⟨key, value⟩ := field
      rw [readBackFields, inductionHypothesis, List.map_cons]

mutual

/-- A sorted document is read in the order it is printed in. -/
theorem readBack_canonical {depth : Nat} {value : Value} (canonical : value.canonical depth = true) :
    value.declared depth = true ∧ value.readBack change = value.mapFloats change := by
  cases value with
  | null | bool _ | string _ => cases depth <;> exact ⟨rfl, rfl⟩
  | number number =>
      cases number <;> cases depth <;> exact ⟨canonical, rfl⟩
  | array items =>
      cases depth with
      | zero => simp [Value.canonical] at canonical
      | succ depth =>
          obtain ⟨each, same⟩ := readBackItems_canonical (canonical_array_iff.mp canonical)
          exact ⟨declared_array_iff.mpr each, by rw [Value.readBack, Value.mapFloats, same]⟩
  | object fields =>
      cases depth with
      | zero => simp [Value.canonical] at canonical
      | succ depth =>
          obtain ⟨sorted, canonical⟩ := canonical_object_iff.mp canonical
          obtain ⟨each, same⟩ := readBackFields_canonical canonical
          refine ⟨declared_object_iff.mpr each, ?_⟩
          rw [Value.readBack, Value.mapFloats, same, fieldsOfMembers_sorted (sorted.mapFloats change)]

theorem readBackItems_canonical {depth : Nat} {items : List Value}
    (canonical : ∀ item ∈ items, item.canonical depth = true) :
    (∀ item ∈ items, item.declared depth = true) ∧
      readBackItems change items = mapFloatsItems change items := by
  cases items with
  | nil => exact ⟨by simp, rfl⟩
  | cons item rest =>
      obtain ⟨first, same⟩ := readBack_canonical (canonical item (by simp))
      obtain ⟨later, others⟩ := readBackItems_canonical fun entry member =>
        canonical entry (List.mem_cons_of_mem item member)
      refine ⟨?_, by rw [readBackItems, mapFloatsItems, same, others]⟩
      intro entry member
      rcases List.mem_cons.mp member with rfl | behind
      · exact first
      · exact later entry behind

theorem readBackFields_canonical {depth : Nat} {fields : Fields}
    (canonical : ∀ field ∈ fields, field.2.canonical depth = true) :
    (∀ field ∈ fields, field.2.declared depth = true) ∧
      readBackFields change fields = mapFloatsFields change fields := by
  cases fields with
  | nil => exact ⟨by simp, rfl⟩
  | cons field rest =>
      obtain ⟨key, value⟩ := field
      obtain ⟨first, same⟩ := readBack_canonical (canonical (key, value) (by simp))
      obtain ⟨later, others⟩ := readBackFields_canonical fun entry member =>
        canonical entry (List.mem_cons_of_mem (key, value) member)
      refine ⟨?_, by rw [readBackFields, mapFloatsFields, same, others]⟩
      intro entry member
      rcases List.mem_cons.mp member with rfl | behind
      · exact first
      · exact later entry behind

end

end Declared

section Pretty

variable (floats : FloatText)

mutual

theorem reads_declared (indent depth : Nat) (value : Value)
    (declared : value.declared depth = true) :
    Reads floats depth (pretty floats indent value) (value.readBack floats.reread) := by
  cases value with
  | null => exact reads_null depth
  | bool value => exact reads_bool depth value
  | number number =>
      cases number with
      | posInt value => exact reads_natural depth value (by simpa [Value.declared] using declared)
      | negInt value => exact reads_negInt depth (by simpa [Value.declared] using declared)
      | float bits => exact reads_float floats depth bits (by simpa [Value.declared] using declared)
  | string text => exact reads_printString depth text
  | array items =>
      cases depth with
      | zero => simp [Value.declared] at declared
      | succ depth =>
          cases items with
          | nil => exact reads_array_nil depth
          | cons item rest =>
              have each := declared_array_iff.mp declared
              exact reads_array (reads_declaredItems (indent + 1) depth (item :: rest) each)
                (by simp [prettyItems]) (spaces_newline indent)
  | object fields =>
      cases depth with
      | zero => simp [Value.declared] at declared
      | succ depth =>
          cases fields with
          | nil => exact reads_object_nil depth
          | cons field rest =>
              have each := declared_object_iff.mp declared
              exact reads_object (reads_declaredFields (indent + 1) depth (field :: rest) each)
                (by simp [prettyFields]) (spaces_newline indent)

theorem reads_declaredItems (indent depth : Nat) (items : List Value)
    (declared : ∀ item ∈ items, item.declared depth = true) :
    List.Forall₂ (Reads floats depth) (prettyItems floats indent items)
      (readBackItems floats.reread items) := by
  cases items with
  | nil => exact .nil
  | cons item rest =>
      refine .cons ?_ (reads_declaredItems indent depth rest fun entry member =>
        declared entry (by simp [member]))
      exact (reads_declared indent depth item (declared item (by simp))).spaced
        (spaces_newline indent)

theorem reads_declaredFields (indent depth : Nat) (fields : Fields)
    (declared : ∀ field ∈ fields, field.2.declared depth = true) :
    List.Forall₂ (ReadsMember floats depth) (prettyFields floats indent fields)
      (readBackFields floats.reread fields) := by
  cases fields with
  | nil => exact .nil
  | cons field rest =>
      obtain ⟨key, value⟩ := field
      refine .cons ?_ (reads_declaredFields indent depth rest fun entry member =>
        declared entry (by simp [member]))
      refine ⟨newline indent, _, ' ' :: pretty floats indent value, rfl, spaces_newline indent,
        readsString_printed key, ?_⟩
      have space : Spaces [' '] := by simp [Spaces, isSpace]
      exact (reads_declared indent depth value (declared (key, value) (by simp))).spaced space

end

/-- What is printed in any order is read in the order of the names. -/
theorem parseText_declared (value : Value) (declared : value.declared 127 = true) :
    parseText floats (pretty floats 0 value) = some (value.readBack floats.reread) :=
  parseText_of_reads (reads_declared floats 0 127 value declared)

end Pretty

end SystemPilot.Json
