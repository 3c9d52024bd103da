import Mathlib.Tactic
import SystemPilot.Text

/-!
# Lossy UTF-8

`String::from_utf8_lossy`: every maximal part of the bytes that begins no
character is replaced by U+FFFD.  Valid text is kept, and no byte grows to more
than the three bytes of a replacement.
-/

set_option autoImplicit false

namespace SystemPilot.Text

def isContinuation (byte : UInt8) : Bool := 0x80 ≤ byte && byte ≤ 0xBF

/-- The second bytes a first byte of a three or four byte character admits. -/
def secondFits (first second : UInt8) : Bool :=
  if first = 0xE0 then 0xA0 ≤ second && second ≤ 0xBF
  else if first = 0xED then 0x80 ≤ second && second ≤ 0x9F
  else if 0xE1 ≤ first && first ≤ 0xEF then isContinuation second
  else if first = 0xF0 then 0x90 ≤ second && second ≤ 0xBF
  else if 0xF1 ≤ first && first ≤ 0xF3 then isContinuation second
  else if first = 0xF4 then 0x80 ≤ second && second ≤ 0x8F
  else false

/-- How many bytes one replacement stands for, where no character is encoded. -/
def invalidLength : List UInt8 → Nat
  | first :: second :: third :: _ =>
      if !secondFits first second then 1
      else if 0xF0 ≤ first && isContinuation third then 3
      else 2
  | [first, second] => if secondFits first second then 2 else 1
  | _ => 1

def decodeChar (bytes : List UInt8) : Option Char :=
  ByteArray.utf8DecodeChar? bytes.toByteArray 0

/-- The characters of the bytes; the fuel bounds their number. -/
def lossyChars : Nat → List UInt8 → List Char
  | 0, _ => []
  | _, [] => []
  | fuel + 1, byte :: rest =>
      match decodeChar (byte :: rest) with
      | some character => character :: lossyChars fuel ((byte :: rest).drop character.utf8Size)
      | none =>
          Char.ofNat 0xFFFD :: lossyChars fuel ((byte :: rest).drop (invalidLength (byte :: rest)))

/-- `String::from_utf8_lossy`. -/
def fromUtf8Lossy (bytes : List UInt8) : String :=
  String.ofList (lossyChars bytes.length bytes)

theorem bytesOf_ofList (characters : List Char) :
    bytesOf (String.ofList characters) = characters.flatMap String.utf8EncodeChar := by
  have encoded : (String.ofList characters).toUTF8 =
      (characters.flatMap String.utf8EncodeChar).toByteArray := rfl
  rw [bytesOf, encoded, List.data_toByteArray]

theorem decodeChar_encoded (character : Char) (more : List UInt8) :
    decodeChar (String.utf8EncodeChar character ++ more) = some character := by
  unfold decodeChar
  rw [List.toByteArray_append]
  exact ByteArray.utf8DecodeChar?_utf8EncodeChar_append

theorem lossyChars_encoded (characters : List Char) (fuel : Nat)
    (enough : characters.length ≤ fuel) :
    lossyChars fuel (characters.flatMap String.utf8EncodeChar) = characters := by
  induction characters generalizing fuel with
  | nil => cases fuel <;> rfl
  | cons character characters inductionHypothesis =>
      obtain ⟨fuel, rfl⟩ := Nat.exists_eq_succ_of_ne_zero
        (Nat.ne_of_gt (Nat.lt_of_lt_of_le (by simp) enough))
      have read := decodeChar_encoded character (characters.flatMap String.utf8EncodeChar)
      have size := String.length_utf8EncodeChar character
      obtain ⟨first, others, shape⟩ :=
        List.exists_cons_of_ne_nil (@String.utf8EncodeChar_ne_nil character)
      rw [List.flatMap_cons]
      rw [shape, List.cons_append] at read ⊢
      rw [lossyChars, read]
      dsimp only
      rw [← List.cons_append, ← shape, ← size, List.drop_left,
        inductionHypothesis fuel (by simpa using enough)]

theorem fromUtf8Lossy_bytesOf (text : String) : fromUtf8Lossy (bytesOf text) = text := by
  obtain ⟨characters, rfl⟩ : ∃ characters, text = String.ofList characters :=
    ⟨text.toList, String.ofList_toList.symm⟩
  rw [fromUtf8Lossy, bytesOf_ofList, lossyChars_encoded]
  have each := List.length_le_sum_of_one_le (characters.map Char.utf8Size)
    fun size member => by
      obtain ⟨character, _, rfl⟩ := List.mem_map.mp member
      exact character.utf8Size_pos
  rw [List.length_map] at each
  rw [List.length_flatMap]
  simpa only [String.length_utf8EncodeChar] using each

theorem invalidLength_pos (bytes : List UInt8) : 1 ≤ invalidLength bytes := by
  unfold invalidLength
  split
  · split_ifs <;> decide
  · split_ifs <;> decide
  · exact Nat.le_refl 1

/-- A decoded character stood in as many bytes. -/
theorem utf8Size_le_of_decodeChar {bytes : List UInt8} {character : Char}
    (read : decodeChar bytes = some character) : character.utf8Size ≤ bytes.length := by
  have inside := ByteArray.le_size_of_utf8DecodeChar?_eq_some read
  simpa using inside

theorem length_lossyChars (fuel : Nat) (bytes : List UInt8) :
    ((lossyChars fuel bytes).flatMap String.utf8EncodeChar).length ≤ 3 * bytes.length := by
  induction fuel generalizing bytes with
  | zero => exact Nat.zero_le _
  | succ fuel inductionHypothesis =>
      cases bytes with
      | nil => exact Nat.zero_le _
      | cons byte rest =>
          rw [lossyChars]
          cases read : decodeChar (byte :: rest) with
          | some character =>
              have later := inductionHypothesis ((byte :: rest).drop character.utf8Size)
              have inside := utf8Size_le_of_decodeChar read
              rw [List.length_drop] at later
              rw [List.flatMap_cons, List.length_append, String.length_utf8EncodeChar]
              omega
          | none =>
              have later := inductionHypothesis
                ((byte :: rest).drop (invalidLength (byte :: rest)))
              have taken := invalidLength_pos (byte :: rest)
              have replacement : (Char.ofNat 0xFFFD).utf8Size = 3 := by decide
              rw [List.length_drop] at later
              rw [List.flatMap_cons, List.length_append, String.length_utf8EncodeChar,
                replacement, List.length_cons]
              rw [List.length_cons] at later
              omega

theorem length_bytesOf_fromUtf8Lossy (bytes : List UInt8) :
    (bytesOf (fromUtf8Lossy bytes)).length ≤ 3 * bytes.length := by
  rw [fromUtf8Lossy, bytesOf_ofList]
  exact length_lossyChars _ _

end SystemPilot.Text
