import Mathlib.Tactic
import SystemPilot.Json.Object

/-!
# Parsing JSON text

`serde_json::from_str` for a `Value`, as a function of the text.  Reading and
writing a double is left to `FloatText`; every other token is read here.  The
fuel bounds the recursion, and the length of the text is always enough.
-/

set_option autoImplicit false

namespace SystemPilot.Json

/-! ## Tokens -/

/-- The whitespace between two tokens. -/
def isSpace (character : Char) : Bool :=
  character == ' ' || character == '\n' || character == '\t' || character == '\r'

def skipSpace (text : List Char) : List Char := text.dropWhile isSpace

def hexDigit (character : Char) : Option Nat :=
  let code := character.toNat
  if 48 ≤ code ∧ code ≤ 57 then some (code - 48)
  else if 65 ≤ code ∧ code ≤ 70 then some (code - 55)
  else if 97 ≤ code ∧ code ≤ 102 then some (code - 87)
  else none

/-- The four hexadecimal digits after a backslash and `u`. -/
def hexEscape : List Char → Option (Nat × List Char)
  | first :: second :: third :: fourth :: rest => do
      let first ← hexDigit first
      let second ← hexDigit second
      let third ← hexDigit third
      let fourth ← hexDigit fourth
      some (((first * 16 + second) * 16 + third) * 16 + fourth, rest)
  | _ => none

/-- The character an escape stands for; a leading surrogate takes a second one. -/
def parseEscape : List Char → Option (Char × List Char)
  | '"' :: rest => some ('"', rest)
  | '\\' :: rest => some ('\\', rest)
  | '/' :: rest => some ('/', rest)
  | 'b' :: rest => some (Char.ofNat 8, rest)
  | 'f' :: rest => some (Char.ofNat 12, rest)
  | 'n' :: rest => some ('\n', rest)
  | 'r' :: rest => some ('\r', rest)
  | 't' :: rest => some ('\t', rest)
  | 'u' :: rest =>
      match hexEscape rest with
      | none => none
      | some (code, rest) =>
          if 0xDC00 ≤ code ∧ code ≤ 0xDFFF then none
          else if 0xD800 ≤ code ∧ code ≤ 0xDBFF then
            match rest with
            | '\\' :: 'u' :: rest =>
                match hexEscape rest with
                | some (low, rest) =>
                    if 0xDC00 ≤ low ∧ low ≤ 0xDFFF then
                      some (Char.ofNat ((code - 0xD800) * 0x400 + (low - 0xDC00) + 0x10000), rest)
                    else none
                | none => none
            | _ => none
          else some (Char.ofNat code, rest)
  | _ => none

/-- The rest of a string after its opening quote. -/
def parseString : Nat → List Char → Option (List Char × List Char)
  | 0, _ => none
  | _, [] => none
  | fuel + 1, character :: rest =>
      if character = '"' then some ([], rest)
      else if character = '\\' then
        match parseEscape rest with
        | none => none
        | some (escaped, rest) =>
            (parseString fuel rest).map fun parsed => (escaped :: parsed.1, parsed.2)
      else if character.toNat < 0x20 then none
      else (parseString fuel rest).map fun parsed => (character :: parsed.1, parsed.2)

/-- The parts of a number; `fraction` and `exponent` hold their marks. -/
structure NumberText where
  negative : Bool
  whole : List Char
  fraction : List Char := []
  exponent : List Char := []
  deriving DecidableEq, Repr

namespace NumberText

def isInteger (number : NumberText) : Bool :=
  number.fraction.isEmpty && number.exponent.isEmpty

def text (number : NumberText) : List Char :=
  (if number.negative then ['-'] else []) ++ number.whole ++ number.fraction ++ number.exponent

end NumberText

def lexFraction : List Char → Option (List Char × List Char)
  | '.' :: rest =>
      let digits := rest.takeWhile Char.isDigit
      if digits.isEmpty then none else some ('.' :: digits, rest.dropWhile Char.isDigit)
  | text => some ([], text)

def lexExponent : List Char → Option (List Char × List Char)
  | mark :: rest =>
      if mark = 'e' ∨ mark = 'E' then
        let sign := rest.takeWhile fun character => character == '+' || character == '-'
        let digits := (rest.drop sign.length).takeWhile Char.isDigit
        if digits.isEmpty ∨ 1 < sign.length then none
        else some (mark :: (sign ++ digits), (rest.drop sign.length).dropWhile Char.isDigit)
      else some ([], mark :: rest)
  | [] => some ([], [])

def lexWhole (text : List Char) : Option (List Char × List Char) :=
  let digits := text.takeWhile Char.isDigit
  if digits.isEmpty ∨ (digits.head? = some '0' ∧ 1 < digits.length) then none
  else some (digits, text.dropWhile Char.isDigit)

def lexNumber (text : List Char) : Option (NumberText × List Char) :=
  let negative := text.head? == some '-'
  match lexWhole (if negative then text.tail else text) with
  | none => none
  | some (whole, rest) =>
      match lexFraction rest with
      | none => none
      | some (fraction, rest) =>
          match lexExponent rest with
          | none => none
          | some (exponent, rest) => some ({ negative, whole, fraction, exponent }, rest)

/-! ## Values -/

/-- What may follow a number: the end, or a character no number goes on with. -/
def Ends (rest : List Char) : Prop :=
  ∀ character ∈ rest.head?,
    character = ',' ∨ character = ']' ∨ character = '}' ∨ isSpace character = true

/-- How doubles are read and written.  A double is written with a fraction or an
exponent, and what was written reads back as `reread` makes it. -/
structure FloatText where
  parse : NumberText → Option UInt64
  print : UInt64 → NumberText
  reread : UInt64 → UInt64
  parse_finite : ∀ number bits, parse number = some bits → isFinite bits = true
  lexNumber_print : ∀ bits rest, isFinite bits = true → Ends rest →
    lexNumber ((print bits).text ++ rest) = some (print bits, rest)
  isInteger_print : ∀ bits, isFinite bits = true → (print bits).isInteger = false
  parse_print : ∀ bits, isFinite bits = true → parse (print bits) = some (reread bits)

section Parse

variable (floats : FloatText)

/-- An integer that fits `u64` or `i64`, else a double; minus zero is a double. -/
def numberOf (number : NumberText) : Option Number :=
  let magnitude := Nat.ofDigitChars 10 number.whole 0
  if number.isInteger ∧ number.negative = false ∧ magnitude < 2 ^ 64 then
    some (.posInt magnitude)
  else if number.isInteger ∧ number.negative ∧ 0 < magnitude ∧ magnitude ≤ 2 ^ 63 then
    some (.negInt (-magnitude))
  else (floats.parse number).map .float

def parseNumber (text : List Char) : Option (Value × List Char) :=
  match lexNumber text with
  | none => none
  | some (number, rest) => (numberOf floats number).map fun number => (.number number, rest)

/-- `MapAccess` into a `Map`: a later field replaces an earlier one of its name. -/
def fieldsOfMembers (members : Fields) : Fields :=
  members.foldl (fun fields member => Fields.insert member.1 member.2 fields) []

mutual

def parseValue : Nat → Nat → List Char → Option (Value × List Char)
  | 0, _, _ => none
  | fuel + 1, depth, text =>
      match skipSpace text with
      | 'n' :: 'u' :: 'l' :: 'l' :: rest => some (.null, rest)
      | 't' :: 'r' :: 'u' :: 'e' :: rest => some (.bool true, rest)
      | 'f' :: 'a' :: 'l' :: 's' :: 'e' :: rest => some (.bool false, rest)
      | '"' :: rest =>
          (parseString (rest.length + 1) rest).map fun parsed =>
            (.string (String.ofList parsed.1), parsed.2)
      | '[' :: rest =>
          if depth = 0 then none
          else match skipSpace rest with
            | ']' :: rest => some (.array [], rest)
            | rest => (parseItems fuel (depth - 1) rest).map fun parsed =>
                (.array parsed.1, parsed.2)
      | '{' :: rest =>
          if depth = 0 then none
          else match skipSpace rest with
            | '}' :: rest => some (.object [], rest)
            | rest => (parseMembers fuel (depth - 1) rest).map fun parsed =>
                (.object (fieldsOfMembers parsed.1), parsed.2)
      | text => parseNumber floats text

/-- The items of a nonempty array up to its bracket. -/
def parseItems : Nat → Nat → List Char → Option (List Value × List Char)
  | 0, _, _ => none
  | fuel + 1, depth, text =>
      match parseValue fuel depth text with
      | none => none
      | some (item, rest) =>
          match skipSpace rest with
          | ',' :: rest =>
              (parseItems fuel depth rest).map fun parsed => (item :: parsed.1, parsed.2)
          | ']' :: rest => some ([item], rest)
          | _ => none

/-- The members of a nonempty object up to its brace. -/
def parseMembers : Nat → Nat → List Char → Option (Fields × List Char)
  | 0, _, _ => none
  | fuel + 1, depth, text =>
      match skipSpace text with
      | '"' :: rest =>
          match parseString (rest.length + 1) rest with
          | none => none
          | some (key, rest) =>
              match skipSpace rest with
              | ':' :: rest =>
                  match parseValue fuel depth rest with
                  | none => none
                  | some (value, rest) =>
                      match skipSpace rest with
                      | ',' :: rest =>
                          (parseMembers fuel depth rest).map fun parsed =>
                            ((String.ofList key, value) :: parsed.1, parsed.2)
                      | '}' :: rest => some ([(String.ofList key, value)], rest)
                      | _ => none
              | _ => none
      | _ => none

end

attribute [grind =] parseEscape parseString parseValue parseItems parseMembers

/-- `serde_json::from_str`: one value, nested to a depth of 127, and nothing after it. -/
def parseText (text : List Char) : Option Value :=
  match parseValue floats (text.length + 1) 127 text with
  | some (value, rest) => if (skipSpace rest).isEmpty then some value else none
  | none => none

/-! ## What is parsed is canonical -/

theorem fieldsOfMembers_facts (depth : Nat) (members fields : Fields) (sorted : fields.Sorted)
    (held : ∀ field ∈ fields, field.2.canonical depth = true)
    (each : ∀ member ∈ members, member.2.canonical depth = true) :
    let result := members.foldl (fun fields member => Fields.insert member.1 member.2 fields) fields
    Fields.Sorted result ∧ ∀ field ∈ result, field.2.canonical depth = true := by
  induction members generalizing fields with
  | nil => exact ⟨sorted, held⟩
  | cons member members inductionHypothesis =>
      refine inductionHypothesis _ (sorted.insert member.1 member.2) ?_
        fun other present => each other (by simp [present])
      intro field present
      rcases Fields.mem_insert present with rfl | old
      · exact each member (by simp)
      · exact held field old

variable {floats}

theorem canonical_numberOf {number : NumberText} {value : Number}
    (denotes : numberOf floats number = some value) (depth : Nat) :
    (Value.number value).canonical depth = true := by
  unfold numberOf at denotes
  dsimp only at denotes
  split at denotes
  · rename_i bounds
    cases denotes
    simpa [Value.canonical] using bounds.2.2
  · split at denotes
    · rename_i bounds
      cases denotes
      simp only [Value.canonical, decide_eq_true_eq]
      omega
    · obtain ⟨bits, parsed, rfl⟩ := Option.map_eq_some_iff.mp denotes
      simpa [Value.canonical] using floats.parse_finite number bits parsed

/-- With this fuel a reader reads nothing but what is good at its depth. -/
def Yields {Result : Type} (parse : Nat → Nat → List Char → Option (Result × List Char))
    (good : Nat → Result → Prop) (fuel : Nat) : Prop :=
  ∀ depth text result rest, parse fuel depth text = some (result, rest) → good depth result

/-- Items of an array are values of its depth, and so are the members of an object. -/
def CanonicalItems (depth : Nat) (items : List Value) : Prop :=
  ∀ item ∈ items, item.canonical depth = true

def CanonicalMembers (depth : Nat) (members : Fields) : Prop :=
  ∀ member ∈ members, member.2.canonical depth = true

theorem parseValue_canonical {fuel : Nat} (items : Yields (parseItems floats) CanonicalItems fuel)
    (members : Yields (parseMembers floats) CanonicalMembers fuel) :
    Yields (parseValue floats) (fun depth value => value.canonical depth = true) (fuel + 1) := by
  intro depth text value rest parsed
  rw [parseValue] at parsed
  split at parsed
  · cases parsed
    exact canonical_null depth
  · cases parsed
    exact canonical_bool depth true
  · cases parsed
    exact canonical_bool depth false
  · obtain ⟨token, _, same⟩ := Option.map_eq_some_iff.mp parsed
    cases same
    exact canonical_string depth _
  · split at parsed
    · cases parsed
    · rename_i room
      obtain ⟨depth, rfl⟩ := Nat.exists_eq_succ_of_ne_zero room
      split at parsed
      · cases parsed
        rfl
      · obtain ⟨inner, found, same⟩ := Option.map_eq_some_iff.mp parsed
        cases same
        have each : ∀ item ∈ inner.1, item.canonical depth = true :=
          items depth _ inner.1 inner.2 found
        simpa [Value.canonical] using each
  · split at parsed
    · cases parsed
    · rename_i room
      obtain ⟨depth, rfl⟩ := Nat.exists_eq_succ_of_ne_zero room
      split at parsed
      · cases parsed
        rfl
      · obtain ⟨inner, found, same⟩ := Option.map_eq_some_iff.mp parsed
        cases same
        exact canonical_object_iff.mpr (fieldsOfMembers_facts depth inner.1 []
          List.Pairwise.nil (by simp) (members depth _ inner.1 inner.2 found))
  · unfold parseNumber at parsed
    split at parsed
    · cases parsed
    · obtain ⟨number, denotes, same⟩ := Option.map_eq_some_iff.mp parsed
      cases same
      exact canonical_numberOf denotes depth

theorem parseItems_canonical {fuel : Nat}
    (values : Yields (parseValue floats) (fun depth value => value.canonical depth = true) fuel)
    (items : Yields (parseItems floats) CanonicalItems fuel) :
    Yields (parseItems floats) CanonicalItems (fuel + 1) := by
  intro depth text parsedItems rest parsed
  rw [parseItems] at parsed
  split at parsed
  · cases parsed
  · rename_i item after first
    have head := values depth text item after first
    split at parsed
    · obtain ⟨inner, found, same⟩ := Option.map_eq_some_iff.mp parsed
      cases same
      intro entry member
      rcases List.mem_cons.mp member with rfl | later
      · exact head
      · exact items depth _ inner.1 inner.2 found entry later
    · cases parsed
      intro entry member
      obtain rfl := List.mem_singleton.mp member
      exact head
    · cases parsed

theorem parseMembers_canonical {fuel : Nat}
    (values : Yields (parseValue floats) (fun depth value => value.canonical depth = true) fuel)
    (members : Yields (parseMembers floats) CanonicalMembers fuel) :
    Yields (parseMembers floats) CanonicalMembers (fuel + 1) := by
  intro depth text parsedMembers rest parsed
  rw [parseMembers] at parsed
  split at parsed
  case h_2 => cases parsed
  case h_1 =>
    split at parsed
    · cases parsed
    · split at parsed
      case h_2 => cases parsed
      case h_1 =>
        split at parsed
        · cases parsed
        · rename_i result after first
          have head := values depth _ result after first
          split at parsed
          · obtain ⟨inner, found, same⟩ := Option.map_eq_some_iff.mp parsed
            cases same
            intro entry member
            rcases List.mem_cons.mp member with rfl | later
            · exact head
            · exact members depth _ inner.1 inner.2 found entry later
          · cases parsed
            intro entry member
            obtain rfl := List.mem_singleton.mp member
            exact head
          · cases parsed

theorem canonical_parsed (fuel : Nat) :
    Yields (parseValue floats) (fun depth value => value.canonical depth = true) fuel ∧
      Yields (parseItems floats) CanonicalItems fuel ∧
      Yields (parseMembers floats) CanonicalMembers fuel := by
  induction fuel with
  | zero =>
      refine ⟨?_, ?_, ?_⟩
      · intro depth text value rest parsed
        rw [parseValue] at parsed
        cases parsed
      · intro depth text items rest parsed
        rw [parseItems] at parsed
        cases parsed
      · intro depth text members rest parsed
        rw [parseMembers] at parsed
        cases parsed
  | succ fuel inductionHypothesis =>
      obtain ⟨values, items, members⟩ := inductionHypothesis
      exact ⟨parseValue_canonical items members, parseItems_canonical values items,
        parseMembers_canonical values members⟩

theorem canonical_parseText {text : List Char} {value : Value}
    (parsed : parseText floats text = some value) : value.canonical 127 = true := by
  unfold parseText at parsed
  split at parsed
  · rename_i result rest found
    split at parsed
    · cases parsed
      exact (canonical_parsed _).1 127 text value rest found
    · cases parsed
  · cases parsed

end Parse

end SystemPilot.Json
