import Mathlib.Tactic

/-!
# JSON values

`serde_json::Value` as the agent and the collector use it.  An object is the
list of its fields in the order of the underlying sorted map, so that equal
documents are equal values.
-/

set_option autoImplicit false

namespace SystemPilot.Json

/-- `serde_json::Number`; a double is kept as its bit pattern. -/
inductive Number where
  | posInt (value : Nat)
  | negInt (value : Int)
  | float (bits : UInt64)
  deriving DecidableEq, Repr

inductive Value where
  | null
  | bool (value : Bool)
  | number (value : Number)
  | string (text : String)
  | array (items : List Value)
  | object (fields : List (String × Value))

mutual

/-- Equality of documents, decided along their structure. -/
def decValue : (left right : Value) → Decidable (left = right)
  | .null, .null => isTrue rfl
  | .bool left, .bool right => decidable_of_iff (left = right) (by simp)
  | .number left, .number right => decidable_of_iff (left = right) (by simp)
  | .string left, .string right => decidable_of_iff (left = right) (by simp)
  | .array left, .array right =>
      @decidable_of_iff _ (left = right) (by simp) (decItems left right)
  | .object left, .object right =>
      @decidable_of_iff _ (left = right) (by simp) (decFields left right)
  | .null, .bool _ | .null, .number _ | .null, .string _ | .null, .array _
  | .null, .object _ | .bool _, .null | .bool _, .number _ | .bool _, .string _
  | .bool _, .array _ | .bool _, .object _ | .number _, .null | .number _, .bool _
  | .number _, .string _ | .number _, .array _ | .number _, .object _
  | .string _, .null | .string _, .bool _ | .string _, .number _
  | .string _, .array _ | .string _, .object _ | .array _, .null | .array _, .bool _
  | .array _, .number _ | .array _, .string _ | .array _, .object _
  | .object _, .null | .object _, .bool _ | .object _, .number _
  | .object _, .string _ | .object _, .array _ => isFalse (by simp)

def decItems : (left right : List Value) → Decidable (left = right)
  | [], [] => isTrue rfl
  | [], _ :: _ | _ :: _, [] => isFalse (by simp)
  | left :: lefts, right :: rights =>
      match decValue left right, decItems lefts rights with
      | isTrue head, isTrue tail => isTrue (by rw [head, tail])
      | isFalse head, _ => isFalse (by simp [head])
      | _, isFalse tail => isFalse (by simp [tail])

def decFields : (left right : List (String × Value)) → Decidable (left = right)
  | [], [] => isTrue rfl
  | [], _ :: _ | _ :: _, [] => isFalse (by simp)
  | (key, left) :: lefts, (otherKey, right) :: rights =>
      match instDecidableEqString key otherKey, decValue left right,
        decFields lefts rights with
      | isTrue name, isTrue head, isTrue tail => isTrue (by rw [name, head, tail])
      | isFalse name, _, _ => isFalse (by simp [name])
      | _, isFalse head, _ => isFalse (by simp [head])
      | _, _, isFalse tail => isFalse (by simp [tail])

end

instance : DecidableEq Value := decValue

instance : Inhabited Value := ⟨.null⟩

namespace Value

def isNull : Value → Bool
  | .null => true
  | _ => false

/-- `Value::is_object`, and PostgreSQL's `jsonb_typeof(value) = 'object'`. -/
def isObject : Value → Bool
  | .object _ => true
  | _ => false

/-- The unsigned integer a number denotes, as `u64` deserialization reads it. -/
def asU64 : Value → Option Nat
  | .number (.posInt value) => if value < 2 ^ 64 then some value else none
  | _ => none

/-- The `i32` a number denotes, as `i32` deserialization reads it. -/
def asI32 : Value → Option Int
  | .number (.posInt value) => if value < 2 ^ 31 then some (Int.ofNat value) else none
  | .number (.negInt value) => if -(2 ^ 31) ≤ value ∧ value < 2 ^ 31 then some value else none
  | _ => none

def asString : Value → Option String
  | .string text => some text
  | _ => none

end Value

end SystemPilot.Json
