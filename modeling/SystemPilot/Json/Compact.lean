import Mathlib.Data.Bool.AllAny
import SystemPilot.Json.Printer

/-!
# Compact JSON text

`serde_json::to_string`, with the escaping of a character as a parameter: any
escaping that the parser undoes leaves the value that is read back the same.
-/

set_option autoImplicit false

namespace SystemPilot.Json

section Compact

variable (floats : FloatText) (escape : Char → List Char)

/-- A string between its quotes. -/
def quoted (text : String) : List Char := '"' :: (text.toList.flatMap escape ++ ['"'])

mutual

/-- `serde_json::to_string`. -/
def compact : Value → List Char
  | .null => "null".toList
  | .bool value => if value then "true".toList else "false".toList
  | .number (.posInt value) => Nat.toDigits 10 value
  | .number (.negInt value) => '-' :: Nat.toDigits 10 value.natAbs
  | .number (.float bits) => (floats.print bits).text
  | .string text => quoted escape text
  | .array items => '[' :: (joinComma (compactItems items) ++ [']'])
  | .object fields => '{' :: (joinComma (compactFields fields) ++ ['}'])

def compactItems : List Value → List (List Char)
  | [] => []
  | item :: rest => compact item :: compactItems rest

def compactFields : Fields → List (List Char)
  | [] => []
  | (key, value) :: rest => (quoted escape key ++ ':' :: compact value) :: compactFields rest

end

variable {floats escape}

mutual

theorem reads_compact (escapes : Escapes escape) (depth : Nat) (value : Value)
    (canonical : value.canonical depth = true) :
    Reads floats depth (compact floats escape value) (value.mapFloats floats.reread) := by
  cases value with
  | null => exact reads_null depth
  | bool value => exact reads_bool depth value
  | number number =>
      cases number with
      | posInt value => exact reads_natural depth value (by simpa [Value.canonical] using canonical)
      | negInt value => exact reads_negInt depth (by simpa [Value.canonical] using canonical)
      | float bits => exact reads_float floats depth bits (by simpa [Value.canonical] using canonical)
  | string text =>
      have reads : Reads floats depth (quoted escape text) (.string (String.ofList text.toList)) :=
        reads_string depth (escapes.readsString text)
      rwa [String.ofList_toList] at reads
  | array items =>
      cases depth with
      | zero => simp [Value.canonical] at canonical
      | succ depth =>
          cases items with
          | nil => exact reads_array_nil depth
          | cons item rest =>
              have each := canonical_array_iff.mp canonical
              exact reads_array (reads_compactItems escapes depth (item :: rest) each)
                (by simp [compactItems]) spaces_nil
  | object fields =>
      cases depth with
      | zero => simp [Value.canonical] at canonical
      | succ depth =>
          obtain ⟨sorted, each⟩ := canonical_object_iff.mp canonical
          cases fields with
          | nil => exact reads_object_nil depth
          | cons field rest =>
              have reads := reads_object (reads_compactFields escapes depth (field :: rest) each)
                (by simp [compactFields]) spaces_nil
              rw [fieldsOfMembers_sorted (sorted.mapFloats floats.reread)] at reads
              exact reads

theorem reads_compactItems (escapes : Escapes escape) (depth : Nat) (items : List Value)
    (canonical : ∀ item ∈ items, item.canonical depth = true) :
    List.Forall₂ (Reads floats depth) (compactItems floats escape items)
      (mapFloatsItems floats.reread items) := by
  cases items with
  | nil => exact .nil
  | cons item rest =>
      refine .cons ?_ (reads_compactItems escapes depth rest fun entry member =>
        canonical entry (by simp [member]))
      exact reads_compact escapes depth item (canonical item (by simp))

theorem reads_compactFields (escapes : Escapes escape) (depth : Nat) (fields : Fields)
    (canonical : ∀ field ∈ fields, field.2.canonical depth = true) :
    List.Forall₂ (ReadsMember floats depth) (compactFields floats escape fields)
      (mapFloatsFields floats.reread fields) := by
  cases fields with
  | nil => exact .nil
  | cons field rest =>
      obtain ⟨key, value⟩ := field
      refine .cons ?_ (reads_compactFields escapes depth rest fun entry member =>
        canonical entry (by simp [member]))
      exact ⟨[], key.toList.flatMap escape ++ ['"'], compact floats escape value, rfl, spaces_nil,
        escapes.readsString key, reads_compact escapes depth value (canonical (key, value) (by simp))⟩

end

/-- However its strings are escaped, a printed document parses to the same value. -/
theorem parseText_compact (escapes : Escapes escape) (value : Value)
    (canonical : value.canonical 127 = true) :
    parseText floats (compact floats escape value) = some (value.mapFloats floats.reread) :=
  parseText_of_reads (reads_compact escapes 127 value canonical)

/-! ## The characters of a document -/

/-- The characters of numbers. -/
def IsNumeric (character : Char) : Prop :=
  character.isDigit = true ∨ character = '-' ∨ character = '+' ∨ character = '.' ∨
    character = 'e' ∨ character = 'E'

theorem numeric_takeWhile {text : List Char} {character : Char}
    (member : character ∈ text.takeWhile Char.isDigit) : IsNumeric character :=
  Or.inl (List.mem_takeWhile_imp member)

theorem numeric_lexWhole {text whole rest : List Char}
    (lexed : lexWhole text = some (whole, rest)) : ∀ character ∈ whole, IsNumeric character := by
  unfold lexWhole at lexed
  dsimp only at lexed
  split at lexed
  · cases lexed
  · cases lexed
    exact fun character member => numeric_takeWhile member

theorem numeric_lexFraction {text fraction rest : List Char}
    (lexed : lexFraction text = some (fraction, rest)) :
    ∀ character ∈ fraction, IsNumeric character := by
  unfold lexFraction at lexed
  split at lexed
  · dsimp only at lexed
    split at lexed
    · cases lexed
    · cases lexed
      intro character member
      rcases List.mem_cons.mp member with rfl | digit
      · simp [IsNumeric]
      · exact numeric_takeWhile digit
  · cases lexed
    simp

theorem numeric_lexExponent {text exponent rest : List Char}
    (lexed : lexExponent text = some (exponent, rest)) :
    ∀ character ∈ exponent, IsNumeric character := by
  unfold lexExponent at lexed
  split at lexed
  · rename_i mark others
    split at lexed
    · rename_i marks
      dsimp only at lexed
      split at lexed
      · cases lexed
      · cases lexed
        intro character member
        rcases List.mem_cons.mp member with rfl | later
        · rcases marks with rfl | rfl <;> simp [IsNumeric]
        · rcases List.mem_append.mp later with sign | digit
          · have signs := List.mem_takeWhile_imp sign
            rw [Bool.or_eq_true, beq_iff_eq, beq_iff_eq] at signs
            rcases signs with rfl | rfl <;> simp [IsNumeric]
          · exact numeric_takeWhile digit
    · cases lexed
      simp
  · cases lexed
    simp

theorem numeric_lexNumber {text rest : List Char} {number : NumberText}
    (lexed : lexNumber text = some (number, rest)) :
    ∀ character ∈ number.text, IsNumeric character := by
  unfold lexNumber at lexed
  dsimp only at lexed
  split at lexed
  · cases lexed
  · rename_i whole afterWhole wholeLexed
    split at lexed
    · cases lexed
    · rename_i fraction afterFraction fractionLexed
      split at lexed
      · cases lexed
      · rename_i exponent afterExponent exponentLexed
        cases lexed
        intro character member
        simp only [NumberText.text, List.mem_append] at member
        rcases member with ((sign | inWhole) | inFraction) | inExponent
        · split at sign
          · obtain rfl := List.mem_singleton.mp sign
            simp [IsNumeric]
          · cases sign
        · exact numeric_lexWhole wholeLexed character inWhole
        · exact numeric_lexFraction fractionLexed character inFraction
        · exact numeric_lexExponent exponentLexed character inExponent

theorem numeric_print {bits : UInt64} (finite : isFinite bits = true) :
    ∀ character ∈ (floats.print bits).text, IsNumeric character := by
  have lexed := floats.lexNumber_print bits [] finite (by simp [Ends])
  exact numeric_lexNumber lexed

/-! ## Rewriting a document

A rewriting of single characters that leaves those of the syntax alone acts on the
characters inside of strings only. -/

/-- The characters that are written outside of strings. -/
def IsSyntax (character : Char) : Prop :=
  IsNumeric character ∨ character ∈ ['[', ']', '{', '}', ':', ',', '"'] ∨
    character ∈ "nulltruefalse".toList

variable {rewrite : Char → List Char}

theorem flatMap_of_syntax (keeps : ∀ character, IsSyntax character → rewrite character = [character])
    {text : List Char} (plain : ∀ character ∈ text, IsSyntax character) :
    text.flatMap rewrite = text := by
  induction text with
  | nil => rfl
  | cons character text inductionHypothesis =>
      rw [List.flatMap_cons, keeps character (plain character (by simp)),
        inductionHypothesis fun other member => plain other (by simp [member]),
        List.singleton_append]

theorem flatMap_toDigits (keeps : ∀ character, IsSyntax character → rewrite character = [character])
    (value : Nat) : (Nat.toDigits 10 value).flatMap rewrite = Nat.toDigits 10 value :=
  flatMap_of_syntax keeps fun _ member =>
    Or.inl (Or.inl (Nat.isDigit_of_mem_toDigits (by omega) (by omega) member))

theorem flatMap_joinComma (keeps : ∀ character, IsSyntax character → rewrite character = [character])
    (texts : List (List Char)) :
    (joinComma texts).flatMap rewrite = joinComma (texts.map fun text => text.flatMap rewrite) := by
  induction texts with
  | nil => rfl
  | cons text texts inductionHypothesis =>
      cases texts with
      | nil => rfl
      | cons next texts =>
          have comma : rewrite ',' = [','] := keeps ',' (Or.inr (Or.inl (by simp)))
          have join : joinComma (text :: next :: texts) =
              text ++ ',' :: joinComma (next :: texts) := rfl
          rw [join, List.flatMap_append, List.flatMap_cons, inductionHypothesis, comma]
          rfl

theorem flatMap_quoted (keeps : ∀ character, IsSyntax character → rewrite character = [character])
    (text : String) :
    (quoted escape text).flatMap rewrite =
      quoted (fun character => (escape character).flatMap rewrite) text := by
  have quote : rewrite '"' = ['"'] := keeps '"' (Or.inr (Or.inl (by simp)))
  unfold quoted
  rw [List.flatMap_cons, List.flatMap_append, List.flatMap_assoc, List.flatMap_singleton, quote]
  rfl

mutual

theorem flatMap_compact (keeps : ∀ character, IsSyntax character → rewrite character = [character])
    (depth : Nat) (value : Value) (canonical : value.canonical depth = true) :
    (compact floats escape value).flatMap rewrite =
      compact floats (fun character => (escape character).flatMap rewrite) value := by
  cases value with
  | null =>
      have word : ∀ character ∈ "null".toList, character ∈ "nulltruefalse".toList :=
        List.all_iff_forall_prop.mp (by decide)
      exact flatMap_of_syntax keeps fun character member => Or.inr (Or.inr (word character member))
  | bool value =>
      have word : ∀ character ∈ (if value then "true".toList else "false".toList),
          character ∈ "nulltruefalse".toList := by
        refine List.all_iff_forall_prop.mp ?_
        cases value <;> decide
      exact flatMap_of_syntax keeps fun character member => Or.inr (Or.inr (word character member))
  | number number =>
      cases number with
      | posInt value => exact flatMap_toDigits keeps value
      | negInt value =>
          have minus : rewrite '-' = ['-'] := keeps '-' (Or.inl (by simp [IsNumeric]))
          rw [compact, compact, List.flatMap_cons, minus, flatMap_toDigits keeps]
          rfl
      | float bits =>
          have finite : isFinite bits = true := by simpa [Value.canonical] using canonical
          exact flatMap_of_syntax keeps fun character member =>
            Or.inl (numeric_print finite character member)
  | string text => exact flatMap_quoted keeps text
  | array items =>
      cases depth with
      | zero => simp [Value.canonical] at canonical
      | succ depth =>
          have each := canonical_array_iff.mp canonical
          have opening : rewrite '[' = ['['] := keeps '[' (Or.inr (Or.inl (by simp)))
          have closing : rewrite ']' = [']'] := keeps ']' (Or.inr (Or.inl (by simp)))
          rw [compact, compact, List.flatMap_cons, List.flatMap_append, opening,
            flatMap_joinComma keeps, flatMap_compactItems keeps depth items each,
            List.flatMap_singleton, closing]
          rfl
  | object fields =>
      cases depth with
      | zero => simp [Value.canonical] at canonical
      | succ depth =>
          obtain ⟨_, each⟩ := canonical_object_iff.mp canonical
          have opening : rewrite '{' = ['{'] := keeps '{' (Or.inr (Or.inl (by simp)))
          have closing : rewrite '}' = ['}'] := keeps '}' (Or.inr (Or.inl (by simp)))
          rw [compact, compact, List.flatMap_cons, List.flatMap_append, opening,
            flatMap_joinComma keeps, flatMap_compactFields keeps depth fields each,
            List.flatMap_singleton, closing]
          rfl

theorem flatMap_compactItems
    (keeps : ∀ character, IsSyntax character → rewrite character = [character])
    (depth : Nat) (items : List Value) (canonical : ∀ item ∈ items, item.canonical depth = true) :
    (compactItems floats escape items).map (fun text => text.flatMap rewrite) =
      compactItems floats (fun character => (escape character).flatMap rewrite) items := by
  cases items with
  | nil => rfl
  | cons item rest =>
      rw [compactItems, compactItems, List.map_cons,
        flatMap_compact keeps depth item (canonical item (by simp)),
        flatMap_compactItems keeps depth rest fun entry member => canonical entry (by simp [member])]

theorem flatMap_compactFields
    (keeps : ∀ character, IsSyntax character → rewrite character = [character])
    (depth : Nat) (fields : Fields) (canonical : ∀ field ∈ fields, field.2.canonical depth = true) :
    (compactFields floats escape fields).map (fun text => text.flatMap rewrite) =
      compactFields floats (fun character => (escape character).flatMap rewrite) fields := by
  cases fields with
  | nil => rfl
  | cons field rest =>
      obtain ⟨key, value⟩ := field
      have colon : rewrite ':' = [':'] := keeps ':' (Or.inr (Or.inl (by simp)))
      rw [compactFields, compactFields, List.map_cons, List.flatMap_append, List.flatMap_cons,
        flatMap_quoted keeps, colon,
        flatMap_compact keeps depth value (canonical (key, value) (by simp)),
        flatMap_compactFields keeps depth rest fun entry member => canonical entry (by simp [member])]
      rfl

end

end Compact

end SystemPilot.Json
