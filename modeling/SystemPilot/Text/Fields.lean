import SystemPilot.Text.Lossy

/-!
# Fields of a text

Bytes that are cut at ASCII characters, texts that are cut at the first occurrence
of a separator, and the decimal numbers that stand in a field.
-/

set_option autoImplicit false

namespace SystemPilot.Text

/-- The bytes of characters. -/
def encode (characters : List Char) : List UInt8 := characters.flatMap String.utf8EncodeChar

/-- What `String::from_utf8` accepts. -/
def Utf8 (bytes : List UInt8) : Prop := ∃ characters, bytes = encode characters

@[simp] theorem encode_nil : encode [] = [] := rfl

theorem encode_cons (character : Char) (characters : List Char) :
    encode (character :: characters) = String.utf8EncodeChar character ++ encode characters :=
  List.flatMap_cons

theorem encode_append (first second : List Char) :
    encode (first ++ second) = encode first ++ encode second :=
  List.flatMap_append

theorem fromUtf8_encode (characters : List Char) :
    fromUtf8 (encode characters) = some (String.ofList characters) := by
  rw [encode, ← bytesOf_ofList, fromUtf8_bytesOf]

theorem encode_injective : Function.Injective encode := by
  intro first second same
  have texts := (fromUtf8_encode first).symm.trans
    ((congrArg fromUtf8 same).trans (fromUtf8_encode second))
  simpa using congrArg String.toList (Option.some.inj texts)

theorem fromUtf8_none {bytes : List UInt8} (invalid : ¬ Utf8 bytes) : fromUtf8 bytes = none := by
  rw [fromUtf8, String.fromUTF8?, dif_neg]
  rintro ⟨characters, encoded⟩
  refine invalid ⟨characters, ?_⟩
  have listed := congrArg (fun array => array.data.toList) encoded
  simpa [encode, List.utf8Encode] using listed

theorem utf8_of_fromUtf8 {bytes : List UInt8} {text : String}
    (decoded : fromUtf8 bytes = some text) : bytes = encode text.toList := by
  by_cases valid : Utf8 bytes
  · obtain ⟨characters, rfl⟩ := valid
    rw [fromUtf8_encode] at decoded
    rw [← Option.some.inj decoded, String.toList_ofList]
  · rw [fromUtf8_none valid] at decoded
    cases decoded

/-! ## Cutting bytes at an ASCII character -/

/-- The byte of an ASCII character occurs in no longer encoding. -/
theorem ascii_of_byte {mark character : Char} {byte : UInt8}
    (ascii : String.utf8EncodeChar mark = [byte]) {before more : List UInt8}
    (whole : String.utf8EncodeChar character = before ++ byte :: more) :
    before = [] ∧ more = [] ∧ character = mark := by
  have initial : byte.IsUTF8FirstByte := by
    have first := @UInt8.isUTF8FirstByte_getElem_utf8EncodeChar mark 0
      (by rw [ascii]; exact Nat.one_pos)
    simpa [ascii] using first
  have started : before = [] := by
    have there := @UInt8.isUTF8FirstByte_getElem_utf8EncodeChar character before.length
      (by simp [whole])
    simp only [whole, List.getElem_append_right (le_refl _), Nat.sub_self,
      List.getElem_cons_zero] at there
    exact List.length_eq_zero_iff.mp (there.mp initial)
  subst started
  have same : character = mark := by
    have decoded := decodeChar_encoded mark more
    rw [ascii, List.singleton_append] at decoded
    have found := decodeChar_encoded character []
    rw [List.append_nil, whole, List.nil_append, decoded] at found
    exact (Option.some.inj found).symm
  refine ⟨rfl, ?_, same⟩
  rw [same, ascii] at whole
  exact (List.cons.inj whole).2.symm

/-- An encoding that holds an ASCII character is cut there into two encodings. -/
theorem encode_split {mark : Char} {byte : UInt8} (ascii : String.utf8EncodeChar mark = [byte])
    (characters : List Char) {before after : List UInt8}
    (cut : encode characters = before ++ byte :: after) :
    ∃ first second, characters = first ++ mark :: second ∧ before = encode first ∧
      after = encode second := by
  induction characters generalizing before with
  | nil =>
      have shorter := congrArg List.length cut
      rw [encode_nil, List.length_append, List.length_cons, List.length_nil] at shorter
      omega
  | cons character characters ih =>
      rw [encode_cons] at cut
      rcases List.append_eq_append_iff.mp cut with ⟨rest, whole, remaining⟩ | ⟨rest, whole, remaining⟩
      · obtain ⟨first, second, rfl, rfl, rfl⟩ := ih remaining
        exact ⟨character :: first, second, rfl, by rw [whole, encode_cons], rfl⟩
      · cases rest with
        | nil =>
            obtain ⟨first, second, rfl, empty, rfl⟩ := @ih [] remaining.symm
            refine ⟨character :: first, second, rfl, ?_, rfl⟩
            rw [encode_cons, ← empty, whole, List.append_nil, List.append_nil]
        | cons head more =>
            obtain rfl : byte = head := (List.cons.inj remaining).1
            obtain ⟨rfl, rfl, rfl⟩ := ascii_of_byte ascii whole
            exact ⟨[], characters, rfl, rfl, (List.cons.inj remaining).2⟩

/-- Bytes around an ASCII character are well formed exactly when both sides are. -/
theorem utf8_around {mark : Char} {byte : UInt8} (ascii : String.utf8EncodeChar mark = [byte])
    {before after : List UInt8} : Utf8 (before ++ byte :: after) ↔ Utf8 before ∧ Utf8 after := by
  constructor
  · rintro ⟨characters, whole⟩
    obtain ⟨first, second, -, rfl, rfl⟩ := encode_split ascii characters whole.symm
    exact ⟨⟨first, rfl⟩, second, rfl⟩
  · rintro ⟨⟨first, rfl⟩, second, rfl⟩
    refine ⟨first ++ mark :: second, ?_⟩
    rw [encode_append, encode_cons, ascii, List.singleton_append]

/-- An ASCII character that is in the bytes of a text is in the text. -/
theorem mem_of_mem_encode {mark : Char} {byte : UInt8} (ascii : String.utf8EncodeChar mark = [byte])
    {characters : List Char} (member : byte ∈ encode characters) : mark ∈ characters := by
  obtain ⟨before, after, whole⟩ := List.append_of_mem member
  obtain ⟨first, second, rfl, -, -⟩ := encode_split ascii characters whole
  exact List.mem_append_right _ List.mem_cons_self

/-- Leading ASCII characters are stripped from the bytes as from the text. -/
theorem dropWhile_encode {mark : Char} {byte : UInt8} (ascii : String.utf8EncodeChar mark = [byte])
    (characters : List Char) :
    (encode characters).dropWhile (· == byte) = encode (characters.dropWhile (· == mark)) := by
  induction characters with
  | nil => rfl
  | cons character characters ih =>
      rw [encode_cons]
      by_cases same : character = mark
      · rw [same, ascii, List.singleton_append,
          List.dropWhile_cons_of_pos (p := (· == byte)) (beq_self_eq_true byte), ih,
          List.dropWhile_cons_of_pos (p := (· == mark)) (beq_self_eq_true mark)]
      · rw [List.dropWhile_cons_of_neg (p := (· == mark)) (by simpa using same), encode_cons]
        obtain ⟨head, more, shape⟩ :=
          List.exists_cons_of_ne_nil (@String.utf8EncodeChar_ne_nil character)
        have apart : ¬ (head == byte) = true := by
          intro equal
          rw [eq_of_beq equal] at shape
          exact same (@ascii_of_byte mark character byte ascii [] more shape).2.2
        rw [shape, List.cons_append, List.dropWhile_cons_of_neg (p := (· == byte)) apart]

theorem utf8_dropWhile {mark : Char} {byte : UInt8} (ascii : String.utf8EncodeChar mark = [byte])
    (bytes : List UInt8) : Utf8 (bytes.dropWhile (· == byte)) ↔ Utf8 bytes := by
  induction bytes with
  | nil => exact Iff.rfl
  | cons head rest ih =>
      by_cases same : head = byte
      · rw [same, List.dropWhile_cons_of_pos (p := (· == byte)) (beq_self_eq_true byte), ih]
        have around := @utf8_around mark byte ascii [] rest
        exact ⟨fun valid => around.mpr ⟨⟨[], rfl⟩, valid⟩, fun valid => (around.mp valid).2⟩
      · rw [List.dropWhile_cons_of_neg (p := (· == byte)) (by simpa using same)]

/-! ## Cutting a text at a separator -/

/-- `str::split_once`: what stands before and after the first separator. -/
def splitOnce (separator : List Char) : List Char → Option (List Char × List Char)
  | [] => none
  | head :: rest =>
      if separator.isPrefixOf (head :: rest) then
        some ([], (head :: rest).drop separator.length)
      else (splitOnce separator rest).map fun cut => (head :: cut.1, cut.2)

/-- `str::splitn`: at most so many fields; the last one takes what is left. -/
def splitN (separator : List Char) : Nat → List Char → List (List Char)
  | 0, _ => []
  | 1, text => [text]
  | count + 2, text =>
      match splitOnce separator text with
      | none => [text]
      | some (field, rest) => field :: splitN separator (count + 1) rest

/-- No separator begins before the text ends, when one follows it. -/
def Clean (separator text : List Char) : Prop := ¬ separator <:+: text ++ separator.dropLast

instance (separator text : List Char) : Decidable (Clean separator text) :=
  inferInstanceAs (Decidable (¬ _))

theorem clean_nil {separator : List Char} (present : separator ≠ []) : Clean separator [] := by
  intro inside
  have shorter := inside.length_le
  have positive := List.length_pos_of_ne_nil present
  rw [List.nil_append, List.length_dropLast] at shorter
  omega

/-- A separator that stands in front of a longer text is not behind its start. -/
theorem nil_of_clean {separator before after : List Char} (clean : Clean separator before)
    (front : separator <+: before ++ separator ++ after) : before = [] := by
  by_contra more
  have positive := List.length_pos_of_ne_nil more
  have inside : separator <+: before ++ separator.dropLast := by
    refine List.prefix_of_prefix_length_le front ?_ ?_
    · rw [List.append_assoc]
      exact (List.prefix_append_right_inj before).mpr
        ((List.dropLast_prefix separator).trans (List.prefix_append separator after))
    · rw [List.length_append, List.length_dropLast]
      omega
  exact clean inside.isInfix

theorem splitOnce_iff {separator : List Char} (present : separator ≠ [])
    (text before after : List Char) :
    splitOnce separator text = some (before, after) ↔
      text = before ++ separator ++ after ∧ Clean separator before := by
  induction text generalizing before with
  | nil =>
      constructor
      · intro found
        cases found
      · rintro ⟨whole, -⟩
        exact absurd (List.append_eq_nil_iff.mp (List.append_eq_nil_iff.mp whole.symm).1).2 present
  | cons head rest ih =>
      rw [splitOnce]
      by_cases front : separator <+: head :: rest
      · rw [if_pos (List.isPrefixOf_iff_prefix.mpr front)]
        constructor
        · intro found
          obtain ⟨rfl, rfl⟩ := Prod.mk.inj (Option.some.inj found)
          exact ⟨(List.prefix_iff_eq_append.mp front).symm, clean_nil present⟩
        · rintro ⟨whole, clean⟩
          obtain rfl := nil_of_clean clean (whole ▸ front)
          rw [whole, List.nil_append, List.drop_left]
      · rw [if_neg (mt List.isPrefixOf_iff_prefix.mp front), Option.map_eq_some_iff]
        constructor
        · rintro ⟨⟨earlier, later⟩, found, same⟩
          obtain ⟨rfl, rfl⟩ := Prod.mk.inj same
          obtain ⟨whole, clean⟩ := (ih earlier).mp found
          refine ⟨congrArg (head :: ·) whole, ?_⟩
          intro inside
          rcases List.infix_cons_iff.mp inside with front' | behind
          · refine front (front'.trans ?_)
            rw [whole, List.append_assoc]
            exact (List.prefix_append_right_inj (head :: earlier)).mpr
              ((List.dropLast_prefix separator).trans (List.prefix_append separator later))
          · exact clean behind
        · rintro ⟨whole, clean⟩
          cases before with
          | nil => exact absurd (whole ▸ List.prefix_append separator after) front
          | cons first earlier =>
              obtain rfl : head = first := (List.cons.inj whole).1
              have whole : rest = earlier ++ separator ++ after := (List.cons.inj whole).2
              refine ⟨(earlier, after), (ih earlier).mpr ⟨whole, ?_⟩, rfl⟩
              intro inside
              exact clean (List.infix_cons_iff.mpr (.inr inside))

theorem splitOnce_clean {separator before : List Char} (present : separator ≠ [])
    (clean : Clean separator before) (after : List Char) :
    splitOnce separator (before ++ separator ++ after) = some (before, after) :=
  (splitOnce_iff present _ before after).mpr ⟨rfl, clean⟩

/-- A cut of a text is a cut of a longer one. -/
theorem splitOnce_append {separator text before after : List Char} (present : separator ≠ [])
    (cut : splitOnce separator text = some (before, after)) (more : List Char) :
    splitOnce separator (text ++ more) = some (before, after ++ more) := by
  obtain ⟨rfl, clean⟩ := (splitOnce_iff present _ _ _).mp cut
  rw [List.append_assoc]
  exact splitOnce_clean present clean (after ++ more)

theorem splitOnce_isSome {separator : List Char} (present : separator ≠ []) {text : List Char}
    (inside : separator <:+: text) : ∃ before after, splitOnce separator text = some (before, after) := by
  induction text with
  | nil => exact absurd (List.infix_nil.mp inside) present
  | cons head rest ih =>
      rw [splitOnce]
      by_cases front : separator <+: head :: rest
      · exact ⟨[], _, if_pos (List.isPrefixOf_iff_prefix.mpr front)⟩
      · rw [if_neg (mt List.isPrefixOf_iff_prefix.mp front)]
        obtain ⟨before, after, cut⟩ := ih ((List.infix_cons_iff.mp inside).resolve_left front)
        exact ⟨head :: before, after, by rw [cut]; rfl⟩

theorem splitOnce_eq_none {separator text : List Char} (present : separator ≠ []) :
    splitOnce separator text = none ↔ ¬ separator <:+: text := by
  constructor
  · intro uncut inside
    obtain ⟨before, after, cut⟩ := splitOnce_isSome present inside
    rw [uncut] at cut
    cases cut
  · intro outside
    cases cut : splitOnce separator text with
    | none => rfl
    | some fields =>
        obtain ⟨whole, -⟩ := (splitOnce_iff present _ _ _).mp cut
        exact absurd ⟨fields.1, fields.2, whole.symm⟩ outside

/-! ## Numbers -/

/-- `str::parse` for a signed type whose values lie from `-bound` to below `bound`. -/
def parseSigned (bound : Nat) (text : List Char) : Option Int :=
  match text with
  | '-' :: digits =>
      if digits ≠ [] ∧ digits.all Char.isDigit ∧ Nat.ofDigitChars 10 digits 0 ≤ bound then
        some (-Nat.ofDigitChars 10 digits 0)
      else none
  | other => (parseUnsigned bound other).map Int.ofNat

theorem isDigit_of_mem_toDigits {value : Nat} {character : Char}
    (member : character ∈ Nat.toDigits 10 value) : character.isDigit = true :=
  Nat.isDigit_of_mem_toDigits (by decide) (by decide) member

theorem parseSigned_toDigits {bound value : Nat} (fits : value < bound) :
    parseSigned bound (Nat.toDigits 10 value) = some (value : Int) := by
  have parsed := parseUnsigned_toDigits bound value fits
  unfold parseSigned
  split
  · rename_i digits shape
    have digit : Char.isDigit '-' = true :=
      isDigit_of_mem_toDigits (shape ▸ List.mem_cons_self)
    exact absurd digit (by decide)
  · rw [parsed]
    rfl

theorem all_isDigit_false {digits : List Char} {character : Char} (member : character ∈ digits)
    (other : character.isDigit = false) : ¬ digits.all Char.isDigit = true := by
  intro decimal
  rw [List.all_eq_true.mp decimal character member] at other
  exact Bool.false_ne_true other.symm

theorem parseUnsigned_none {text : List Char} {character : Char} (member : character ∈ text)
    (other : character.isDigit = false) (plus : character ≠ '+') (bound : Nat) :
    parseUnsigned bound text = none := by
  unfold parseUnsigned
  rw [if_neg]
  rintro ⟨-, decimal, -⟩
  split at decimal
  · exact all_isDigit_false ((List.mem_cons.mp member).resolve_left plus) other decimal
  · exact all_isDigit_false member other decimal

/-- A text with a character that is no digit and no sign is no number. -/
theorem parseSigned_none {text : List Char} {character : Char} (member : character ∈ text)
    (other : character.isDigit = false) (plus : character ≠ '+') (minus : character ≠ '-')
    (bound : Nat) : parseSigned bound text = none := by
  unfold parseSigned
  split
  · rw [if_neg]
    rintro ⟨-, decimal, -⟩
    exact all_isDigit_false ((List.mem_cons.mp member).resolve_left minus) other decimal
  · rw [parseUnsigned_none member other plus]
    rfl

theorem trimMatches_toDigits (value : Nat) :
    trimMatches isWhitespace (Nat.toDigits 10 value) = Nat.toDigits 10 value :=
  trimMatches_eq_self isWhitespace _ fun character member =>
    isWhitespace_of_isDigit character (isDigit_of_mem_toDigits member)

end SystemPilot.Text
