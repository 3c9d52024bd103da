import Mathlib.Tactic

/-!
# Little-endian layouts

Numbers as little-endian bytes, consecutive fields of a byte string, and the C
layout of a record of integers: each aligned to its own size.
-/

set_option autoImplicit false

namespace SystemPilot.Library.LittleEndian

/-! ## Numbers -/

def number : List UInt8 → Nat
  | [] => 0
  | byte :: rest => byte.toNat + 256 * number rest

/-- The low bytes of a number. -/
def encode : Nat → Nat → List UInt8
  | 0, _ => []
  | count + 1, value => UInt8.ofNat value :: encode count (value / 256)

theorem number_lt (bytes : List UInt8) : number bytes < 256 ^ bytes.length := by
  induction bytes with
  | nil => exact Nat.one_pos
  | cons byte rest inductionHypothesis =>
      have small := byte.toNat_lt
      rw [number, List.length_cons, Nat.pow_succ]
      omega

theorem encode_number (bytes : List UInt8) : encode bytes.length (number bytes) = bytes := by
  induction bytes with
  | nil => rfl
  | cons byte rest inductionHypothesis =>
      have small := byte.toNat_lt
      have low : UInt8.ofNat (byte.toNat + 256 * number rest) = byte := by
        apply UInt8.toNat_inj.mp
        rw [UInt8.toNat_ofNat']
        omega
      have high : (byte.toNat + 256 * number rest) / 256 = number rest := by omega
      rw [List.length_cons, number, encode, low, high, inductionHypothesis]

@[simp] theorem length_encode (count value : Nat) : (encode count value).length = count := by
  induction count generalizing value with
  | zero => rfl
  | succ count inductionHypothesis => rw [encode, List.length_cons, inductionHypothesis]

theorem number_encode (count value : Nat) : number (encode count value) = value % 256 ^ count := by
  induction count generalizing value with
  | zero => rw [encode, number, Nat.pow_zero, Nat.mod_one]
  | succ count inductionHypothesis =>
      have low : (UInt8.ofNat value).toNat = value % 256 := UInt8.toNat_ofNat'
      rw [encode, number, inductionHypothesis, low, Nat.pow_succ, Nat.mul_comm (256 ^ count),
        Nat.mod_mul]

/-! ## Fields -/

/-- `bytes[offset..offset + count]`. -/
def field (bytes : List UInt8) (offset count : Nat) : List UInt8 :=
  (bytes.drop offset).take count

section Fields

variable {bytes : List UInt8}

theorem length_field {offset count : Nat} (inside : offset + count ≤ bytes.length) :
    (field bytes offset count).length = count := by
  unfold field
  rw [List.length_take, List.length_drop]
  omega

theorem field_append (offset first second : Nat) :
    field bytes offset first ++ field bytes (offset + first) second =
      field bytes offset (first + second) := by
  unfold field
  rw [List.take_add, List.drop_drop]

theorem field_take {offset count limit : Nat} (inside : offset + count ≤ limit) :
    field (bytes.take limit) offset count = field bytes offset count := by
  unfold field
  rw [List.drop_take, List.take_take]
  congr 1
  omega

theorem number_field_lt (offset count : Nat) : number (field bytes offset count) < 256 ^ count := by
  refine (number_lt _).trans_le (Nat.pow_le_pow_right (by decide) ?_)
  exact List.length_take_le _ _

theorem encode_number_field {offset count : Nat} (inside : offset + count ≤ bytes.length) :
    encode count (number (field bytes offset count)) = field bytes offset count := by
  have whole := encode_number (field bytes offset count)
  rw [length_field inside] at whole
  exact whole

/-- Fields that follow one another, from an offset on. -/
def fieldsFrom (bytes : List UInt8) (offset : Nat) : List Nat → List (List UInt8)
  | [] => []
  | count :: rest => field bytes offset count :: fieldsFrom bytes (offset + count) rest

theorem length_fieldsFrom {offset : Nat} {counts : List Nat}
    (inside : offset + counts.sum ≤ bytes.length) :
    (fieldsFrom bytes offset counts).map List.length = counts := by
  induction counts generalizing offset with
  | nil => rfl
  | cons count rest inductionHypothesis =>
      rw [List.sum_cons] at inside
      rw [fieldsFrom, List.map_cons, length_field (by omega), inductionHypothesis (by omega)]

theorem flatten_fieldsFrom (offset : Nat) (counts : List Nat) :
    (fieldsFrom bytes offset counts).flatten = field bytes offset counts.sum := by
  induction counts generalizing offset with
  | nil => rfl
  | cons count rest inductionHypothesis =>
      rw [fieldsFrom, List.flatten_cons, inductionHypothesis, field_append, List.sum_cons]

end Fields

/-! ## The C layout -/

/-- The padding in front of a field that is aligned to its size. -/
def padding (offset size : Nat) : Nat :=
  (size - offset % size) % size

def place (laid part : List UInt8) : List UInt8 :=
  laid ++ List.replicate (padding laid.length part.length) 0 ++ part

/-- A `repr(C)` struct of integers, padded at its end to `alignment`. -/
def reprC (alignment : Nat) (fields : List (List UInt8)) : List UInt8 :=
  let laid := fields.foldl place []
  laid ++ List.replicate (padding laid.length alignment) 0

/-- Every field falls on a multiple of its size without padding. -/
def Aligned (offset : Nat) : List Nat → Prop
  | [] => True
  | size :: rest => padding offset size = 0 ∧ Aligned (offset + size) rest

instance decidableAligned : (offset : Nat) → (sizes : List Nat) → Decidable (Aligned offset sizes)
  | _, [] => isTrue trivial
  | offset, size :: rest =>
      @instDecidableAnd _ _ _ (decidableAligned (offset + size) rest)

theorem foldl_place_aligned (laid : List UInt8) (fields : List (List UInt8))
    (aligned : Aligned laid.length (fields.map List.length)) :
    fields.foldl place laid = laid ++ fields.flatten := by
  induction fields generalizing laid with
  | nil => rw [List.foldl_nil, List.flatten_nil, List.append_nil]
  | cons part rest inductionHypothesis =>
      obtain ⟨here, later⟩ := aligned
      have next : place laid part = laid ++ part := by
        unfold place
        rw [here, List.replicate_zero, List.append_nil]
      rw [List.foldl_cons, next, inductionHypothesis, List.flatten_cons, List.append_assoc]
      rw [List.length_append]
      exact later

/-- Aligned fields that fill their struct are laid out one behind another. -/
theorem reprC_aligned {alignment : Nat} {fields : List (List UInt8)}
    (aligned : Aligned 0 (fields.map List.length))
    (filled : padding (fields.map List.length).sum alignment = 0) :
    reprC alignment fields = fields.flatten := by
  unfold reprC
  rw [foldl_place_aligned [] fields aligned, List.nil_append]
  dsimp only
  rw [List.length_flatten, filled, List.replicate_zero, List.append_nil]

end SystemPilot.Library.LittleEndian
