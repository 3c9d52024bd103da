import Mathlib.Tactic
import Mathlib.Data.List.DropRight
import SystemPilot.Json.Parser

/-!
# Reading tokens and documents back

`Reads` says that a text, whatever follows it, is read as a value.  Its rules
compose the readings of tokens to those of arrays and objects with any spacing,
so that every writer of JSON text is checked against the one parser.  The rules
give the round trip of `serde_json::to_vec_pretty`.
-/

set_option autoImplicit false

namespace SystemPilot.Json

/-! ## Strings -/

def hexOf (digit : Nat) : Char :=
  if digit < 10 then Char.ofNat (48 + digit) else Char.ofNat (87 + digit)

/-- The escaping of one character in a printed string. -/
def escapeChar (character : Char) : List Char :=
  let code := character.toNat
  if character = '"' then ['\\', '"']
  else if character = '\\' then ['\\', '\\']
  else if code = 8 then ['\\', 'b']
  else if code = 9 then ['\\', 't']
  else if code = 10 then ['\\', 'n']
  else if code = 12 then ['\\', 'f']
  else if code = 13 then ['\\', 'r']
  else if code < 0x20 then ['\\', 'u', '0', '0', hexOf (code / 16), hexOf (code % 16)]
  else [character]

def printString (text : String) : List Char :=
  '"' :: (text.toList.flatMap escapeChar ++ ['"'])

theorem hexDigit_hexOf (digit : Nat) (small : digit < 16) : hexDigit (hexOf digit) = some digit := by
  have all : ∀ digit < 16, hexDigit (hexOf digit) = some digit := by decide
  exact all digit small

theorem eq_ofNat_of_toNat {character : Char} {code : Nat} (same : character.toNat = code) :
    character = Char.ofNat code := by
  rw [← same, Char.ofNat_toNat]

/-- A character that needs no escape is read as itself. -/
theorem parseString_plain (fuel : Nat) (character : Char) (rest : List Char)
    (quote : character ≠ '"') (backslash : character ≠ '\\') (printable : 0x20 ≤ character.toNat) :
    parseString (fuel + 1) (character :: rest) =
      (parseString fuel rest).map fun parsed => (character :: parsed.1, parsed.2) := by
  rw [parseString, if_neg quote, if_neg backslash, if_neg (by omega)]

theorem parseString_escaped (fuel : Nat) (escape rest tail : List Char) (character : Char)
    (meaning : parseEscape (escape ++ tail) = some (character, rest)) :
    parseString (fuel + 1) ('\\' :: (escape ++ tail)) =
      (parseString fuel rest).map fun parsed => (character :: parsed.1, parsed.2) := by
  rw [parseString, if_neg (by decide), if_pos rfl, meaning]

theorem parseString_escapeChar (fuel : Nat) (character : Char) (rest : List Char) :
    parseString (fuel + 1) (escapeChar character ++ rest) =
      (parseString fuel rest).map fun parsed => (character :: parsed.1, parsed.2) := by
  unfold escapeChar
  dsimp only
  split
  case isTrue quote => exact parseString_escaped fuel ['"'] rest rest character (by rw [quote]; rfl)
  case isFalse quote =>
  split
  case isTrue backslash =>
    exact parseString_escaped fuel ['\\'] rest rest character (by rw [backslash]; rfl)
  case isFalse backslash =>
  split
  case isTrue code =>
    exact parseString_escaped fuel ['b'] rest rest character (by rw [eq_ofNat_of_toNat code]; rfl)
  case isFalse =>
  split
  case isTrue code =>
    exact parseString_escaped fuel ['t'] rest rest character (by rw [eq_ofNat_of_toNat code]; rfl)
  case isFalse =>
  split
  case isTrue code =>
    exact parseString_escaped fuel ['n'] rest rest character (by rw [eq_ofNat_of_toNat code]; rfl)
  case isFalse =>
  split
  case isTrue code =>
    exact parseString_escaped fuel ['f'] rest rest character (by rw [eq_ofNat_of_toNat code]; rfl)
  case isFalse =>
  split
  case isTrue code =>
    exact parseString_escaped fuel ['r'] rest rest character (by rw [eq_ofNat_of_toNat code]; rfl)
  case isFalse =>
  split
  case isTrue control =>
    refine parseString_escaped fuel ['u', '0', '0', _, _] rest rest character ?_
    have zero : hexDigit '0' = some 0 := by decide
    have value : ((0 * 16 + 0) * 16 + character.toNat / 16) * 16 + character.toNat % 16 =
        character.toNat := by omega
    simp only [List.cons_append, List.nil_append, parseEscape, hexEscape, zero,
      hexDigit_hexOf (character.toNat / 16) (by omega),
      hexDigit_hexOf (character.toNat % 16) (by omega), Option.bind_eq_bind, Option.bind_some,
      value, Char.ofNat_toNat]
    rw [if_neg (by omega), if_neg (by omega)]
  case isFalse printable =>
    exact parseString_plain fuel character rest quote backslash (by omega)

/-- An escaping of single characters that a parser undoes. -/
structure Escapes (escape : Char → List Char) : Prop where
  parsed : ∀ fuel character rest, parseString (fuel + 1) (escape character ++ rest) =
    (parseString fuel rest).map fun parsed => (character :: parsed.1, parsed.2)
  nonempty : ∀ character, 1 ≤ (escape character).length

theorem escapes_escapeChar : Escapes escapeChar where
  parsed := parseString_escapeChar
  nonempty := by
    intro character
    unfold escapeChar
    dsimp only
    split_ifs <;> simp

theorem Escapes.length_le {escape : Char → List Char} (escapes : Escapes escape)
    (characters : List Char) : characters.length ≤ (characters.flatMap escape).length := by
  induction characters with
  | nil => simp
  | cons character characters inductionHypothesis =>
      have first := escapes.nonempty character
      rw [List.flatMap_cons, List.length_append, List.length_cons]
      omega

theorem Escapes.parseString {escape : Char → List Char} (escapes : Escapes escape)
    (characters rest : List Char) (fuel : Nat) (enough : characters.length < fuel) :
    Json.parseString fuel (characters.flatMap escape ++ '"' :: rest) =
      some (characters, rest) := by
  induction characters generalizing fuel with
  | nil =>
      obtain ⟨fuel, rfl⟩ := Nat.exists_eq_succ_of_ne_zero (Nat.ne_of_gt enough)
      rw [List.flatMap_nil, List.nil_append, Json.parseString, if_pos rfl]
  | cons character characters inductionHypothesis =>
      obtain ⟨fuel, rfl⟩ := Nat.exists_eq_succ_of_ne_zero (Nat.ne_of_gt (by omega : 0 < fuel))
      rw [List.flatMap_cons, List.append_assoc, escapes.parsed,
        inductionHypothesis fuel (by simpa using enough)]
      rfl

/-! ## Numbers -/

theorem takeWhile_digits {digits rest : List Char}
    (all : ∀ character ∈ digits, character.isDigit = true)
    (stops : ∀ character ∈ rest.head?, character.isDigit = false) :
    (digits ++ rest).takeWhile Char.isDigit = digits ∧
      (digits ++ rest).dropWhile Char.isDigit = rest := by
  induction digits with
  | nil =>
      cases rest with
      | nil => exact ⟨rfl, rfl⟩
      | cons head rest =>
          have stop := stops head rfl
          simp [stop]
  | cons digit digits inductionHypothesis =>
      have rest := inductionHypothesis fun character member => all character (by simp [member])
      have first := all digit (by simp)
      exact ⟨by simp [first, rest.1], by simp [first, rest.2]⟩

/-- The characters that may follow a number go on with no number. -/
theorem Ends.stops {rest : List Char} (ends : Ends rest) {character : Char}
    (head : character ∈ rest.head?) :
    character.isDigit = false ∧ character ≠ '.' ∧ character ≠ 'e' ∧ character ≠ 'E' := by
  rcases ends character head with rfl | rfl | rfl | space
  · decide
  · decide
  · decide
  · simp only [isSpace, Bool.or_eq_true, beq_iff_eq] at space
    rcases space with ((rfl | rfl) | rfl) | rfl <;> decide

theorem lexFraction_ends {rest : List Char} (ends : Ends rest) :
    lexFraction rest = some ([], rest) := by
  unfold lexFraction
  split
  · exact absurd rfl (ends.stops (Option.mem_some_self _)).2.1
  · rfl

theorem lexExponent_ends {rest : List Char} (ends : Ends rest) :
    lexExponent rest = some ([], rest) := by
  unfold lexExponent
  split
  · have stops := (ends.stops (Option.mem_some_self _)).2.2
    rw [if_neg (by simp [stops])]
  · rfl

theorem toDigits_head_ne_zero (value : Nat) (large : 1 < (Nat.toDigits 10 value).length) :
    (Nat.toDigits 10 value).head? ≠ some '0' := by
  induction value using Nat.strongRecOn with
  | _ value inductionHypothesis =>
      by_cases small : value < 10
      · rw [Nat.toDigits_of_lt_base small] at large
        simp at large
      · rw [Nat.toDigits_of_base_le (by omega) (by omega)]
        have nonempty : Nat.toDigits 10 (value / 10) ≠ [] := Nat.toDigits_ne_nil
        rw [List.head?_append_of_ne_nil _ nonempty]
        by_cases single : value / 10 < 10
        · rw [Nat.toDigits_of_lt_base single]
          have digits : ∀ digit < 10, 0 < digit → some digit.digitChar ≠ some '0' := by decide
          exact digits _ single (by omega)
        · refine inductionHypothesis (value / 10) (by omega) ?_
          have longer := (Nat.length_toDigits_le_iff (b := 10) (n := value / 10) (k := 1) (by omega)
            (by omega)).mp
          by_contra short
          exact single (by simpa using longer (by omega))

theorem lexWhole_toDigits (value : Nat) {rest : List Char}
    (stops : ∀ character ∈ rest.head?, character.isDigit = false) :
    lexWhole (Nat.toDigits 10 value ++ rest) = some (Nat.toDigits 10 value, rest) := by
  have digits : ∀ character ∈ Nat.toDigits 10 value, character.isDigit = true :=
    fun character member => Nat.isDigit_of_mem_toDigits (by omega) (by omega) member
  obtain ⟨taken, dropped⟩ := takeWhile_digits digits stops
  have nonempty : Nat.toDigits 10 value ≠ [] := Nat.toDigits_ne_nil
  rw [lexWhole, taken, dropped, if_neg]
  rintro (empty | ⟨zero, large⟩)
  · exact nonempty (List.isEmpty_iff.mp empty)
  · exact toDigits_head_ne_zero value large zero

theorem toDigits_unsigned (value : Nat) (rest : List Char) :
    ((Nat.toDigits 10 value ++ rest).head? == some '-') = false := by
  have nonempty : Nat.toDigits 10 value ≠ [] := Nat.toDigits_ne_nil
  rw [List.head?_append_of_ne_nil _ nonempty, List.head?_eq_some_head nonempty]
  have digit := Nat.isDigit_of_mem_toDigits (b := 10) (n := value) (by omega) (by omega)
    (List.head_mem nonempty)
  rw [beq_eq_false_iff_ne]
  intro minus
  rw [Option.some.inj minus] at digit
  simp at digit

theorem lexNumber_natural (value : Nat) {rest : List Char} (ends : Ends rest) :
    lexNumber (Nat.toDigits 10 value ++ rest) =
      some ({ negative := false, whole := Nat.toDigits 10 value }, rest) := by
  rw [lexNumber, toDigits_unsigned]
  simp only [Bool.false_eq_true, if_false, lexWhole_toDigits value (fun _ head => (ends.stops head).1), lexFraction_ends ends,
    lexExponent_ends ends]

theorem lexNumber_negative (value : Nat) {rest : List Char} (ends : Ends rest) :
    lexNumber ('-' :: (Nat.toDigits 10 value ++ rest)) =
      some ({ negative := true, whole := Nat.toDigits 10 value }, rest) := by
  rw [lexNumber]
  simp only [List.head?_cons, beq_self_eq_true, if_true, List.tail_cons,
    lexWhole_toDigits value (fun _ head => (ends.stops head).1), lexFraction_ends ends, lexExponent_ends ends]

/-! ## Values -/

section Reads

variable (floats : FloatText)

/-- The text, whatever may follow it, is read as the value. -/
def Reads (depth : Nat) (text : List Char) (value : Value) : Prop :=
  ∀ fuel rest, text.length ≤ fuel → Ends rest →
    parseValue floats fuel depth (text ++ rest) = some (value, rest)

/-- The text of a string after its opening quote, with the closing one. -/
def ReadsString (body characters : List Char) : Prop :=
  ∀ fuel rest, body.length ≤ fuel → parseString fuel (body ++ rest) = some (characters, rest)

def Spaces (text : List Char) : Prop := ∀ character ∈ text, isSpace character = true

/-- A member of an object: its name, a colon and its value. -/
def ReadsMember (depth : Nat) (text : List Char) (member : String × Value) : Prop :=
  ∃ space body value, text = space ++ '"' :: (body ++ ':' :: value) ∧ Spaces space ∧
    ReadsString body member.1.toList ∧ Reads floats depth value member.2

def joinComma : List (List Char) → List Char
  | [] => []
  | [text] => text
  | text :: rest => text ++ ',' :: joinComma rest

variable {floats}

theorem skipSpace_append {space : List Char} (spaces : Spaces space) (text : List Char) :
    skipSpace (space ++ text) = skipSpace text := by
  rw [skipSpace, List.dropWhile_append_of_pos spaces, skipSpace]

theorem spaces_nil : Spaces [] := by simp [Spaces]

theorem ends_of_spaces {space : List Char} (spaces : Spaces space) {character : Char}
    (closing : character = ',' ∨ character = ']' ∨ character = '}') (rest : List Char) :
    Ends (space ++ character :: rest) := by
  intro head found
  cases space with
  | nil =>
      cases found
      exact closing.imp_right fun later => later.imp_right Or.inl
  | cons first space =>
      cases found
      exact Or.inr (Or.inr (Or.inr (spaces _ (by simp))))

theorem parseValue_space {space : List Char} (spaces : Spaces space) (fuel depth : Nat)
    (text : List Char) :
    parseValue floats fuel depth (space ++ text) = parseValue floats fuel depth text := by
  cases fuel with
  | zero => rw [parseValue, parseValue]
  | succ fuel => rw [parseValue, parseValue, skipSpace_append spaces]

theorem skipSpace_skipSpace (text : List Char) : skipSpace (skipSpace text) = skipSpace text := by
  unfold skipSpace
  rw [List.dropWhile_idempotent]

theorem parseItems_skipSpace (fuel depth : Nat) (text : List Char) :
    parseItems floats fuel depth (skipSpace text) = parseItems floats fuel depth text := by
  cases fuel with
  | zero => rw [parseItems, parseItems]
  | succ fuel =>
      have values : parseValue floats fuel depth (skipSpace text) =
          parseValue floats fuel depth text := by
        cases fuel with
        | zero => rw [parseValue, parseValue]
        | succ fuel => rw [parseValue, parseValue, skipSpace_skipSpace]
      rw [parseItems, parseItems, values]

theorem parseMembers_skipSpace (fuel depth : Nat) (text : List Char) :
    parseMembers floats fuel depth (skipSpace text) = parseMembers floats fuel depth text := by
  cases fuel with
  | zero => rw [parseMembers, parseMembers]
  | succ fuel => rw [parseMembers, parseMembers, skipSpace_skipSpace]

theorem Reads.spaced {depth : Nat} {space text : List Char} {value : Value}
    (reads : Reads floats depth text value) (spaces : Spaces space) :
    Reads floats depth (space ++ text) value := by
  intro fuel rest enough ends
  rw [List.append_assoc, parseValue_space spaces]
  exact reads fuel rest (by rw [List.length_append] at enough; omega) ends

theorem reads_null (depth : Nat) : Reads floats depth "null".toList .null := by
  intro fuel rest enough _
  obtain ⟨fuel, rfl⟩ := Nat.exists_eq_succ_of_ne_zero (Nat.ne_of_gt (Nat.lt_of_lt_of_le (by decide) enough))
  rfl

theorem reads_bool (depth : Nat) (value : Bool) :
    Reads floats depth (if value then "true".toList else "false".toList) (.bool value) := by
  intro fuel rest enough _
  cases value with
  | true =>
      obtain ⟨fuel, rfl⟩ := Nat.exists_eq_succ_of_ne_zero
        (Nat.ne_of_gt (Nat.lt_of_lt_of_le (by decide) enough))
      rfl
  | false =>
      obtain ⟨fuel, rfl⟩ := Nat.exists_eq_succ_of_ne_zero
        (Nat.ne_of_gt (Nat.lt_of_lt_of_le (by decide) enough))
      rfl

theorem reads_string (depth : Nat) {body characters : List Char}
    (reads : ReadsString body characters) :
    Reads floats depth ('"' :: body) (.string (String.ofList characters)) := by
  intro fuel rest enough _
  obtain ⟨fuel, rfl⟩ := Nat.exists_eq_succ_of_ne_zero
    (Nat.ne_of_gt (Nat.lt_of_lt_of_le (by simp) enough))
  have quoted : skipSpace ('"' :: body ++ rest) = '"' :: (body ++ rest) := rfl
  have token : parseString ((body ++ rest).length + 1) (body ++ rest) = some (characters, rest) :=
    reads _ rest (by rw [List.length_append]; omega)
  rw [parseValue, quoted]
  simp only [token, Option.map_some]

theorem Escapes.readsString {escape : Char → List Char} (escapes : Escapes escape)
    (text : String) : ReadsString (text.toList.flatMap escape ++ ['"']) text.toList := by
  intro fuel rest enough
  rw [List.append_assoc]
  refine escapes.parseString text.toList rest fuel ?_
  have shorter := escapes.length_le text.toList
  rw [List.length_append, List.length_singleton] at enough
  omega

theorem readsString_printed (text : String) :
    ReadsString (text.toList.flatMap escapeChar ++ ['"']) text.toList :=
  escapes_escapeChar.readsString text

theorem reads_printString (depth : Nat) (text : String) :
    Reads floats depth (printString text) (.string text) := by
  have reads : Reads floats depth (printString text) (.string (String.ofList text.toList)) :=
    reads_string depth (readsString_printed text)
  rwa [String.ofList_toList] at reads

/-- A number token that is read as this number. -/
theorem reads_number (depth : Nat) {text : List Char} {number : NumberText} {value : Number}
    (head : ∃ first rest, text = first :: rest ∧ (first = '-' ∨ first.isDigit = true))
    (lexed : ∀ rest, Ends rest → lexNumber (text ++ rest) = some (number, rest))
    (meaning : numberOf floats number = some value) :
    Reads floats depth text (.number value) := by
  intro fuel rest enough ends
  obtain ⟨first, others, rfl, start⟩ := head
  obtain ⟨fuel, rfl⟩ := Nat.exists_eq_succ_of_ne_zero
    (Nat.ne_of_gt (Nat.lt_of_lt_of_le (by simp) enough))
  have bounds : first ≠ ' ' ∧ first ≠ '\n' ∧ first ≠ '\t' ∧ first ≠ '\r' ∧ first ≠ 'n' ∧
      first ≠ 't' ∧ first ≠ 'f' ∧ first ≠ '"' ∧ first ≠ '[' ∧ first ≠ '{' := by
    rcases start with rfl | digit
    · decide
    · refine ⟨?_, ?_, ?_, ?_, ?_, ?_, ?_, ?_, ?_, ?_⟩ <;> rintro rfl <;> simp at digit
  obtain ⟨space, newline, tab, carriage, n, t, f, quote, bracket, brace⟩ := bounds
  have kept : skipSpace (first :: others ++ rest) = first :: (others ++ rest) := by
    simp [skipSpace, isSpace, space, newline, tab, carriage]
  have parsed : parseNumber floats (first :: (others ++ rest)) = some (.number value, rest) := by
    rw [parseNumber, ← List.cons_append, lexed rest ends]
    simp only [meaning, Option.map_some]
  rw [parseValue, kept]
  split
  all_goals simp_all

theorem reads_natural (depth value : Nat) (fits : value < 2 ^ 64) :
    Reads floats depth (Nat.toDigits 10 value) (.number (.posInt value)) := by
  refine reads_number depth ?_ (fun rest ends => lexNumber_natural value ends) ?_
  · have nonempty : Nat.toDigits 10 value ≠ [] := Nat.toDigits_ne_nil
    obtain ⟨first, rest, shape⟩ := List.exists_cons_of_ne_nil nonempty
    refine ⟨first, rest, shape, Or.inr ?_⟩
    exact Nat.isDigit_of_mem_toDigits (b := 10) (n := value) (by omega) (by omega)
      (by rw [shape]; exact List.mem_cons_self)
  · rw [numberOf]
    simp only [NumberText.isInteger, List.isEmpty_nil, Bool.and_self, Nat.ofDigitChars_ten_toDigits]
    rw [if_pos ⟨trivial, trivial, fits⟩]

theorem reads_negative (depth value : Nat) (positive : 0 < value) (fits : value ≤ 2 ^ 63) :
    Reads floats depth ('-' :: Nat.toDigits 10 value) (.number (.negInt (-value))) := by
  refine reads_number depth ⟨'-', _, rfl, Or.inl rfl⟩
    (fun rest ends => lexNumber_negative value ends) ?_
  rw [numberOf]
  simp only [NumberText.isInteger, List.isEmpty_nil, Bool.and_self, Nat.ofDigitChars_ten_toDigits]
  rw [if_neg (by simp), if_pos ⟨trivial, trivial, positive, fits⟩]

theorem reads_negInt (depth : Nat) {value : Int} (bounds : -(2 ^ 63) ≤ value ∧ value < 0) :
    Reads floats depth ('-' :: Nat.toDigits 10 value.natAbs) (.number (.negInt value)) := by
  have reads : Reads floats depth ('-' :: Nat.toDigits 10 value.natAbs)
      (.number (.negInt (-(value.natAbs : Int)))) :=
    reads_negative depth value.natAbs (by omega) (by omega)
  rwa [show -(value.natAbs : Int) = value by omega] at reads

/-! ## Arrays and objects -/

/-- What reads as a value does not start with a closing bracket. -/
theorem Reads.ne_bracket {depth : Nat} {text : List Char} {value : Value}
    (reads : Reads floats depth text value) (rest : List Char) (ends : Ends rest)
    (others : List Char) : skipSpace (text ++ rest) ≠ ']' :: others := by
  intro shape
  have parsed := reads (text.length + 1) rest (by omega) ends
  rw [parseValue, shape] at parsed
  simp [parseNumber, lexNumber, lexWhole] at parsed

theorem parseItems_reads {depth : Nat} {texts : List (List Char)} {values : List Value}
    (reads : List.Forall₂ (Reads floats depth) texts values) (nonempty : texts ≠ [])
    {space : List Char} (spaces : Spaces space) (fuel : Nat) (rest : List Char)
    (enough : (joinComma texts).length < fuel) :
    parseItems floats fuel depth (joinComma texts ++ (space ++ ']' :: rest)) =
      some (values, rest) := by
  induction reads generalizing fuel with
  | nil => exact absurd rfl nonempty
  | @cons text value texts values first later inductionHypothesis =>
      obtain ⟨fuel, rfl⟩ := Nat.exists_eq_succ_of_ne_zero (Nat.ne_of_gt (Nat.zero_lt_of_lt enough))
      cases later with
      | nil =>
          rw [parseItems, joinComma, first fuel _ (by rw [joinComma] at enough; omega)
            (ends_of_spaces spaces (Or.inr (Or.inl rfl)) rest)]
          simp only [skipSpace_append spaces]
          rfl
      | @cons next _ others _ second tail =>
          have join : joinComma (text :: next :: others) =
              text ++ ',' :: joinComma (next :: others) := rfl
          rw [join, List.length_append, List.length_cons] at enough
          have found := first fuel (',' :: joinComma (next :: others) ++ (space ++ ']' :: rest))
            (by omega) (ends_of_spaces spaces_nil (Or.inl rfl) _)
          have remaining := inductionHypothesis (by simp) fuel (by omega)
          rw [parseItems, join, List.append_assoc, List.cons_append, ← List.cons_append, found]
          simp only [List.cons_append]
          have comma : skipSpace (',' :: (joinComma (next :: others) ++ (space ++ ']' :: rest))) =
            ',' :: (joinComma (next :: others) ++ (space ++ ']' :: rest)) := rfl
          simp only [comma, remaining, Option.map_some]

theorem reads_array {depth : Nat} {texts : List (List Char)} {values : List Value}
    (reads : List.Forall₂ (Reads floats depth) texts values) (nonempty : texts ≠ [])
    {space : List Char} (spaces : Spaces space) :
    Reads floats (depth + 1) ('[' :: (joinComma texts ++ (space ++ [']']))) (.array values) := by
  intro fuel rest enough ends
  obtain ⟨fuel, rfl⟩ := Nat.exists_eq_succ_of_ne_zero
    (Nat.ne_of_gt (Nat.lt_of_lt_of_le (by simp) enough))
  have body : '[' :: (joinComma texts ++ (space ++ [']'])) ++ rest =
      '[' :: (joinComma texts ++ (space ++ ']' :: rest)) := by simp
  have items := parseItems_reads reads nonempty spaces fuel rest (by
    simp only [List.length_cons, List.length_append, List.length_nil] at enough
    omega)
  have opened : skipSpace ('[' :: (joinComma texts ++ (space ++ ']' :: rest))) =
      '[' :: (joinComma texts ++ (space ++ ']' :: rest)) := rfl
  have unclosed : ∀ others, skipSpace (joinComma texts ++ (space ++ ']' :: rest)) ≠ ']' :: others := by
    cases reads with
    | nil => exact absurd rfl nonempty
    | @cons text value texts values first later =>
        intro others
        cases later with
        | nil =>
            exact first.ne_bracket _ (ends_of_spaces spaces (Or.inr (Or.inl rfl)) rest) others
        | cons second tail =>
            rw [joinComma, List.append_assoc]
            · exact first.ne_bracket _ (ends_of_spaces spaces_nil (Or.inl rfl) _) others
            · simp
  rw [body, parseValue, opened]
  -- `unclosed` rules the empty array out
  simp only [Nat.add_one_ne_zero, if_false, Nat.add_sub_cancel, parseItems_skipSpace, items,
    Option.map_some]

/-- The name, the colon and the value of a member, before a comma or a brace. -/
theorem parseMembers_first {depth fuel : Nat} {text after : List Char} {member : String × Value}
    (reads : ReadsMember floats depth text member) (room : text.length ≤ fuel + 1)
    (ends : Ends after) :
    (∀ tail, skipSpace after = ',' :: tail →
      parseMembers floats (fuel + 1) depth (text ++ after) =
        (parseMembers floats fuel depth tail).map fun parsed => (member :: parsed.1, parsed.2)) ∧
    ∀ tail, skipSpace after = '}' :: tail →
      parseMembers floats (fuel + 1) depth (text ++ after) = some ([member], tail) := by
  obtain ⟨leading, body, value, rfl, leadingSpaces, key, reads⟩ := reads
  obtain ⟨name, result⟩ := member
  simp only [List.length_append, List.length_cons] at room
  have shape : leading ++ '"' :: (body ++ ':' :: value) ++ after =
      leading ++ '"' :: (body ++ (':' :: (value ++ after))) := by simp
  have quoted : skipSpace ('"' :: (body ++ ':' :: (value ++ after))) =
      '"' :: (body ++ ':' :: (value ++ after)) := rfl
  have named : parseString ((body ++ ':' :: (value ++ after)).length + 1)
      (body ++ ':' :: (value ++ after)) = some (name.toList, ':' :: (value ++ after)) :=
    key _ _ (by rw [List.length_append]; omega)
  have colon : skipSpace (':' :: (value ++ after)) = ':' :: (value ++ after) := rfl
  have valued := reads fuel after (by omega) ends
  rw [shape, parseMembers, skipSpace_append leadingSpaces, quoted]
  constructor
  · intro tail follows
    simp only [named, colon, valued, follows, String.ofList_toList]
  · intro tail follows
    simp only [named, colon, valued, follows, String.ofList_toList]

theorem parseMembers_reads {depth : Nat} {texts : List (List Char)} {members : Fields}
    (reads : List.Forall₂ (ReadsMember floats depth) texts members) (nonempty : texts ≠ [])
    {space : List Char} (spaces : Spaces space) (fuel : Nat) (rest : List Char)
    (enough : (joinComma texts).length < fuel) :
    parseMembers floats fuel depth (joinComma texts ++ (space ++ '}' :: rest)) =
      some (members, rest) := by
  induction reads generalizing fuel with
  | nil => exact absurd rfl nonempty
  | @cons text member texts members first later inductionHypothesis =>
      obtain ⟨fuel, rfl⟩ := Nat.exists_eq_succ_of_ne_zero (Nat.ne_of_gt (Nat.zero_lt_of_lt enough))
      cases later with
      | nil =>
          rw [joinComma] at enough ⊢
          have ends := ends_of_spaces spaces (Or.inr (Or.inr rfl)) rest
          exact (parseMembers_first first (by omega) ends).2 rest (skipSpace_append spaces _)
      | @cons next _ others _ second tail =>
          have join : joinComma (text :: next :: others) =
              text ++ ',' :: joinComma (next :: others) := rfl
          rw [join, List.length_append, List.length_cons] at enough
          have remaining := inductionHypothesis (by simp) fuel (by omega)
          have ends : Ends (',' :: (joinComma (next :: others) ++ (space ++ '}' :: rest))) :=
            ends_of_spaces spaces_nil (Or.inl rfl) _
          rw [join, List.append_assoc, List.cons_append,
            (parseMembers_first first (by omega) ends).1 _ rfl, remaining]
          rfl

theorem reads_object {depth : Nat} {texts : List (List Char)} {members : Fields}
    (reads : List.Forall₂ (ReadsMember floats depth) texts members) (nonempty : texts ≠ [])
    {space : List Char} (spaces : Spaces space) :
    Reads floats (depth + 1) ('{' :: (joinComma texts ++ (space ++ ['}'])))
      (.object (fieldsOfMembers members)) := by
  intro fuel rest enough ends
  obtain ⟨fuel, rfl⟩ := Nat.exists_eq_succ_of_ne_zero
    (Nat.ne_of_gt (Nat.lt_of_lt_of_le (by simp) enough))
  have body : '{' :: (joinComma texts ++ (space ++ ['}'])) ++ rest =
      '{' :: (joinComma texts ++ (space ++ '}' :: rest)) := by simp
  have parsed := parseMembers_reads reads nonempty spaces fuel rest (by
    simp only [List.length_cons, List.length_append, List.length_nil] at enough
    omega)
  have opened : skipSpace ('{' :: (joinComma texts ++ (space ++ '}' :: rest))) =
      '{' :: (joinComma texts ++ (space ++ '}' :: rest)) := rfl
  have quoted : ∃ others, skipSpace (joinComma texts ++ (space ++ '}' :: rest)) = '"' :: others := by
    cases reads with
    | nil => exact absurd rfl nonempty
    | @cons text member texts members first later =>
        obtain ⟨leading, body, value, rfl, leadingSpaces, _, _⟩ := first
        cases later with
        | nil =>
            rw [joinComma, List.append_assoc, skipSpace_append leadingSpaces]
            exact ⟨_, rfl⟩
        | cons second tail =>
            rw [joinComma, List.append_assoc, List.append_assoc, skipSpace_append leadingSpaces]
            · exact ⟨_, rfl⟩
            · simp
  obtain ⟨others, shape⟩ := quoted
  rw [← parseMembers_skipSpace, shape] at parsed
  rw [body, parseValue, opened]
  simp only [Nat.add_one_ne_zero, if_false, Nat.add_sub_cancel, shape]
  change (parseMembers floats fuel depth ('"' :: others)).map _ = _
  rw [parsed, Option.map_some]

theorem reads_array_nil (depth : Nat) : Reads floats (depth + 1) ['[', ']'] (.array []) := by
  intro fuel rest enough _
  obtain ⟨fuel, rfl⟩ := Nat.exists_eq_succ_of_ne_zero
    (Nat.ne_of_gt (Nat.lt_of_lt_of_le (by decide) enough))
  rfl

theorem reads_object_nil (depth : Nat) : Reads floats (depth + 1) ['{', '}'] (.object []) := by
  intro fuel rest enough _
  obtain ⟨fuel, rfl⟩ := Nat.exists_eq_succ_of_ne_zero
    (Nat.ne_of_gt (Nat.lt_of_lt_of_le (by decide) enough))
  rfl

theorem parseText_of_reads {text : List Char} {value : Value}
    (reads : Reads floats 127 text value) : parseText floats text = some value := by
  have parsed := reads (text.length + 1) [] (by omega) (by simp [Ends])
  rw [List.append_nil] at parsed
  rw [parseText, parsed]
  rfl

end Reads

/-! ## Pretty printing -/

section Pretty

variable (floats : FloatText)

def newline (indent : Nat) : List Char := '\n' :: List.replicate (2 * indent) ' '

theorem spaces_newline (indent : Nat) : Spaces (newline indent) := by
  intro character member
  rcases List.mem_cons.mp member with rfl | member
  · rfl
  · rw [(List.mem_replicate.mp member).2]
    rfl

mutual

/-- `serde_json::to_vec_pretty`, two spaces a level. -/
def pretty (indent : Nat) : Value → List Char
  | .null => "null".toList
  | .bool value => if value then "true".toList else "false".toList
  | .number (.posInt value) => Nat.toDigits 10 value
  | .number (.negInt value) => '-' :: Nat.toDigits 10 value.natAbs
  | .number (.float bits) => (floats.print bits).text
  | .string text => printString text
  | .array [] => ['[', ']']
  | .array (item :: rest) =>
      '[' :: (joinComma (prettyItems (indent + 1) (item :: rest)) ++ (newline indent ++ [']']))
  | .object [] => ['{', '}']
  | .object (field :: rest) =>
      '{' :: (joinComma (prettyFields (indent + 1) (field :: rest)) ++ (newline indent ++ ['}']))

def prettyItems (indent : Nat) : List Value → List (List Char)
  | [] => []
  | item :: rest => (newline indent ++ pretty indent item) :: prettyItems indent rest

def prettyFields (indent : Nat) : Fields → List (List Char)
  | [] => []
  | (key, value) :: rest =>
      (newline indent ++ '"' :: (key.toList.flatMap escapeChar ++ ['"'] ++
        ':' :: (' ' :: pretty indent value))) :: prettyFields indent rest

end

theorem lexNumber_head {text rest : List Char} {number : NumberText}
    (lexed : lexNumber text = some (number, rest)) :
    ∃ first others, text = first :: others ∧ (first = '-' ∨ first.isDigit = true) := by
  cases text with
  | nil => simp [lexNumber, lexWhole] at lexed
  | cons first others =>
      refine ⟨first, others, rfl, ?_⟩
      by_contra neither
      rw [not_or, Bool.not_eq_true] at neither
      simp [lexNumber, lexWhole, neither.1, neither.2] at lexed

theorem fieldsOfMembers_append (fields members : Fields) (sorted : (fields ++ members).Sorted) :
    members.foldl (fun fields member => Fields.insert member.1 member.2 fields) fields =
      fields ++ members := by
  induction members generalizing fields with
  | nil => simp
  | cons member members inductionHypothesis =>
      have below : ∀ field ∈ fields, field.1 < member.1 := by
        intro field present
        exact (List.pairwise_append.mp sorted).2.2 field present member (by simp)
      rw [List.foldl_cons, Fields.insert_last member.2 below, inductionHypothesis]
      · simp
      · simpa using sorted

theorem fieldsOfMembers_sorted {members : Fields} (sorted : members.Sorted) :
    fieldsOfMembers members = members :=
  fieldsOfMembers_append [] members sorted

theorem get_foldl_insert {members : Fields} (distinct : members.Pairwise fun left right => left.1 ≠ right.1)
    (fields : Fields) (key : String) :
    Fields.get (members.foldl (fun fields member => Fields.insert member.1 member.2 fields) fields) key =
      (Fields.get members key).or (Fields.get fields key) := by
  induction members generalizing fields with
  | nil => rfl
  | cons member rest inductionHypothesis =>
      obtain ⟨apart, later⟩ := List.pairwise_cons.mp distinct
      rw [List.foldl_cons, inductionHypothesis later, Fields.get_insert, Fields.get_cons]
      by_cases same : member.1 = key
      · have missing : Fields.get rest key = none := by
          rw [Fields.get, List.find?_eq_none.mpr, Option.map_none]
          intro other present
          simpa [← same] using (apart other present).symm
        rw [if_pos same, if_pos same, missing]
        rfl
      · rw [if_neg same, if_neg same]

/-- Members of distinct names are found as they are given. -/
theorem get_fieldsOfMembers {members : Fields}
    (distinct : members.Pairwise fun left right => left.1 ≠ right.1) (key : String) :
    Fields.get (fieldsOfMembers members) key = Fields.get members key := by
  rw [fieldsOfMembers, get_foldl_insert distinct, Fields.get_nil, Option.or_none]

theorem canonical_fieldsOfMembers {depth : Nat} {members : Fields}
    (each : ∀ member ∈ members, member.2.canonical depth = true) :
    (Value.object (fieldsOfMembers members)).canonical (depth + 1) = true :=
  canonical_object_iff.mpr (fieldsOfMembers_facts depth members [] List.Pairwise.nil (by simp) each)

theorem mem_foldl_insert {members fields : Fields} {field : String × Value}
    (present : field ∈ members.foldl (fun fields member =>
      Fields.insert member.1 member.2 fields) fields) : field ∈ members ∨ field ∈ fields := by
  induction members generalizing fields with
  | nil => exact .inr present
  | cons member rest inductionHypothesis =>
      rcases inductionHypothesis present with later | here
      · exact .inl (List.mem_cons_of_mem _ later)
      · rcases Fields.mem_insert here with rfl | old
        · exact .inl List.mem_cons_self
        · exact .inr old

/-- An object without doubles is not changed by what becomes of doubles. -/
theorem mapFloats_fieldsOfMembers {change : UInt64 → UInt64} {members : Fields}
    (each : ∀ member ∈ members, member.2.mapFloats change = member.2) :
    (Value.object (fieldsOfMembers members)).mapFloats change =
      .object (fieldsOfMembers members) := by
  have same : ∀ field ∈ fieldsOfMembers members, (field.1, field.2.mapFloats change) = field := by
    intro field present
    rcases mem_foldl_insert present with member | none
    · rw [each field member]
    · cases none
  rw [Value.mapFloats, mapFloatsFields_eq_map, List.map_congr_left same, List.map_id']

theorem reads_float (depth : Nat) (bits : UInt64) (finite : isFinite bits = true) :
    Reads floats depth (floats.print bits).text (.number (.float (floats.reread bits))) := by
  refine reads_number depth ?_ (fun rest ends => floats.lexNumber_print bits rest finite ends) ?_
  · have lexed := floats.lexNumber_print bits [] finite (by simp [Ends])
    rw [List.append_nil] at lexed
    exact lexNumber_head lexed
  · rw [numberOf, floats.isInteger_print bits finite, floats.parse_print bits finite]
    simp

mutual

theorem reads_pretty (indent depth : Nat) (value : Value)
    (canonical : value.canonical depth = true) :
    Reads floats depth (pretty floats indent value) (value.mapFloats floats.reread) := by
  cases value with
  | null => exact reads_null depth
  | bool value => exact reads_bool depth value
  | number number =>
      cases number with
      | posInt value => exact reads_natural depth value (by simpa [Value.canonical] using canonical)
      | negInt value => exact reads_negInt depth (by simpa [Value.canonical] using canonical)
      | float bits => exact reads_float floats depth bits (by simpa [Value.canonical] using canonical)
  | string text => exact reads_printString depth text
  | array items =>
      cases depth with
      | zero => simp [Value.canonical] at canonical
      | succ depth =>
          cases items with
          | nil => exact reads_array_nil depth
          | cons item rest =>
              have each := canonical_array_iff.mp canonical
              exact reads_array (reads_prettyItems (indent + 1) depth (item :: rest) each)
                (by simp [prettyItems]) (spaces_newline indent)
  | object fields =>
      cases depth with
      | zero => simp [Value.canonical] at canonical
      | succ depth =>
          obtain ⟨sorted, each⟩ := canonical_object_iff.mp canonical
          cases fields with
          | nil => exact reads_object_nil depth
          | cons field rest =>
              have reads := reads_object
                (reads_prettyFields (indent + 1) depth (field :: rest) each)
                (by simp [prettyFields]) (spaces_newline indent)
              rw [fieldsOfMembers_sorted (sorted.mapFloats floats.reread)] at reads
              exact reads

theorem reads_prettyItems (indent depth : Nat) (items : List Value)
    (canonical : ∀ item ∈ items, item.canonical depth = true) :
    List.Forall₂ (Reads floats depth) (prettyItems floats indent items)
      (mapFloatsItems floats.reread items) := by
  cases items with
  | nil => exact .nil
  | cons item rest =>
      refine .cons ?_ (reads_prettyItems indent depth rest fun entry member =>
        canonical entry (by simp [member]))
      exact (reads_pretty indent depth item (canonical item (by simp))).spaced
        (spaces_newline indent)

theorem reads_prettyFields (indent depth : Nat) (fields : Fields)
    (canonical : ∀ field ∈ fields, field.2.canonical depth = true) :
    List.Forall₂ (ReadsMember floats depth) (prettyFields floats indent fields)
      (mapFloatsFields floats.reread fields) := by
  cases fields with
  | nil => exact .nil
  | cons field rest =>
      obtain ⟨key, value⟩ := field
      refine .cons ?_ (reads_prettyFields indent depth rest fun entry member =>
        canonical entry (by simp [member]))
      refine ⟨newline indent, _, ' ' :: pretty floats indent value, rfl, spaces_newline indent,
        readsString_printed key, ?_⟩
      have space : Spaces [' '] := by simp [Spaces, isSpace]
      exact (reads_pretty indent depth value (canonical (key, value) (by simp))).spaced space

end

/-- What is printed parses to the document, its doubles read back. -/
theorem parseText_pretty (value : Value) (canonical : value.canonical 127 = true) :
    parseText floats (pretty floats 0 value) = some (value.mapFloats floats.reread) :=
  parseText_of_reads (reads_pretty floats 0 127 value canonical)

end Pretty

/-- Doubles written as the number of their bit pattern. -/
def bitFloats : FloatText where
  parse number :=
    let bits := UInt64.ofNat (Nat.ofDigitChars 10 number.whole 0)
    if isFinite bits then some bits else none
  print bits := {
    negative := false
    whole := Nat.toDigits 10 bits.toNat
    fraction := ['.', '0'] }
  reread bits := bits
  parse_finite number bits parsed := by
    dsimp only at parsed
    split at parsed
    · rename_i finite
      cases parsed
      exact finite
    · cases parsed
  lexNumber_print bits rest _ ends := by
    have whole : lexWhole (Nat.toDigits 10 bits.toNat ++ '.' :: '0' :: rest) =
        some (Nat.toDigits 10 bits.toNat, '.' :: '0' :: rest) :=
      lexWhole_toDigits bits.toNat (by
        intro character head
        cases head
        decide)
    have zero : ∀ character ∈ ['0'], character.isDigit = true := by
      intro character member
      rw [List.mem_singleton.mp member]
      rfl
    obtain ⟨taken, dropped⟩ := takeWhile_digits zero fun character head => (ends.stops head).1
    rw [List.singleton_append] at taken dropped
    have fraction : lexFraction ('.' :: '0' :: rest) = some (['.', '0'], rest) := by
      rw [lexFraction, taken, dropped]
      rfl
    have shape : NumberText.text {
        negative := false, whole := Nat.toDigits 10 bits.toNat, fraction := ['.', '0'] } ++ rest =
        Nat.toDigits 10 bits.toNat ++ '.' :: '0' :: rest := by
      simp [NumberText.text]
    rw [shape, lexNumber, toDigits_unsigned]
    simp only [Bool.false_eq_true, if_false, whole, fraction, lexExponent_ends ends]
  isInteger_print _ _ := rfl
  parse_print bits finite := by
    simp [finite]

end SystemPilot.Json
