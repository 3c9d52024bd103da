import Mathlib.Tactic
import Mathlib.Data.List.TakeWhile

/-!
# Rust text operations

The standard-library string functions the agent and the collector call, over
the Unicode scalar values of a `String`.  Only the behaviour the callers rely
on is modelled: which characters are trimmed, where a string is cut, and which
digit strings denote a number.
-/

set_option autoImplicit false

namespace SystemPilot.Text

/-- `char::is_whitespace`: the Unicode `White_Space` property. -/
def isWhitespace (character : Char) : Bool :=
  let code := character.toNat
  (9 ≤ code && code ≤ 13) || code == 0x20 || code == 0x85 || code == 0xA0 ||
    code == 0x1680 || (0x2000 ≤ code && code ≤ 0x200A) || code == 0x2028 ||
    code == 0x2029 || code == 0x202F || code == 0x205F || code == 0x3000

/-- `str::trim_matches`: both ends are stripped of the matching characters. -/
def trimMatches (strip : Char → Bool) (text : List Char) : List Char :=
  ((text.dropWhile strip).reverse.dropWhile strip).reverse

def trim (text : String) : List Char :=
  trimMatches isWhitespace text.toList

/-- `text.trim().is_empty()`. -/
def isBlank (text : String) : Bool :=
  (trim text).isEmpty

/-- `str::split_whitespace`: the maximal runs of other characters. -/
def splitWhitespace (text : List Char) : List (List Char) :=
  (text.splitOnP isWhitespace).filter fun part => !part.isEmpty

/-- `str::rsplit_once`: the text before and after the last separator. -/
def rsplitOnce (separator : Char) : List Char → Option (List Char × List Char)
  | [] => none
  | head :: rest =>
      match rsplitOnce separator rest with
      | some (before, after) => some (head :: before, after)
      | none => if head = separator then some ([], rest) else none

def toAsciiLowercase (text : String) : String :=
  String.ofList (text.toList.map Char.toLower)

def endsWith (text suffix : String) : Bool :=
  suffix.toList.isSuffixOf text.toList

def startsWith (text start : String) : Bool :=
  start.toList.isPrefixOf text.toList

/-- `str::parse` for an unsigned type whose values stay below `bound`: an
optional `+`, then at least one decimal digit, without overflow. -/
def parseUnsigned (bound : Nat) (text : List Char) : Option Nat :=
  let digits := match text with
    | '+' :: rest => rest
    | other => other
  if digits ≠ [] ∧ digits.all Char.isDigit ∧ Nat.ofDigitChars 10 digits 0 < bound then
    some (Nat.ofDigitChars 10 digits 0)
  else
    none

/-- `format!("{:020}", value)` for `width = 20`. -/
def padDecimal (width value : Nat) : List Char :=
  let digits := Nat.toDigits 10 value
  List.replicate (width - digits.length) '0' ++ digits

/-- `str::trim_end_matches(['\r', '\n'])`. -/
def trimLineEnds (text : String) : String :=
  String.ofList (text.toList.reverse.dropWhile fun character =>
    character = '\r' || character = '\n').reverse

/-- `str::as_bytes`. -/
def bytesOf (text : String) : List UInt8 := text.toUTF8.data.toList

/-- `String::from_utf8`. -/
def fromUtf8 (bytes : List UInt8) : Option String := String.fromUTF8? ⟨bytes.toArray⟩

theorem fromUtf8_bytesOf (text : String) : fromUtf8 (bytesOf text) = some text := by
  have valid : text.toUTF8.IsValidUTF8 := text.isValidUTF8
  have bytes : (⟨(bytesOf text).toArray⟩ : ByteArray) = text.toUTF8 := by simp [bytesOf]
  rw [fromUtf8, bytes, String.fromUTF8?, dif_pos valid]
  rfl

theorem repr_injective : Function.Injective Nat.repr := by
  intro left right same
  have digits := congrArg (fun text => Nat.ofDigitChars 10 text.toList 0) same
  simpa [Nat.toList_repr] using digits

/-! ## What trimming leaves -/

theorem trimMatches_eq_nil (strip : Char → Bool) (text : List Char) :
    trimMatches strip text = [] ↔ ∀ character ∈ text, strip character = true := by
  unfold trimMatches
  rw [List.reverse_eq_nil_iff, List.dropWhile_eq_nil_iff]
  constructor
  · intro stripped
    have noneLeft : text.dropWhile strip = [] := by
      by_contra nonempty
      have headKept := List.head_dropWhile_not strip nonempty
      have headStripped := stripped ((text.dropWhile strip).head nonempty)
        (List.mem_reverse.mpr (List.head_mem nonempty))
      simp [headKept] at headStripped
    exact List.dropWhile_eq_nil_iff.mp noneLeft
  · intro allStripped character member
    rw [List.mem_reverse] at member
    exact allStripped character ((List.dropWhile_sublist strip).subset member)

theorem isBlank_iff (text : String) :
    isBlank text = true ↔ ∀ character ∈ text.toList, isWhitespace character = true := by
  unfold isBlank trim
  rw [List.isEmpty_iff, trimMatches_eq_nil]

theorem trimMatches_eq_self (strip : Char → Bool) (text : List Char)
    (kept : ∀ character ∈ text, strip character = false) : trimMatches strip text = text := by
  have untouched : ∀ part : List Char, (∀ character ∈ part, strip character = false) →
      part.dropWhile strip = part := by
    intro part clean
    cases part with
    | nil => rfl
    | cons head rest => simp [clean head (by simp)]
  unfold trimMatches
  rw [untouched text kept, untouched text.reverse (fun character member =>
    kept character (List.mem_reverse.mp member)), List.reverse_reverse]

/-- Trimming stops at the first and at the last character that is kept. -/
theorem trimMatches_between (strip : Char → Bool) {before core after : List Char}
    (outside : ∀ character ∈ before ++ after, strip character = true) (nonempty : core ≠ [])
    (first : ∀ character ∈ core.head?, strip character = false)
    (last : ∀ character ∈ core.getLast?, strip character = false) :
    trimMatches strip (before ++ core ++ after) = core := by
  have stops : ∀ (skipped kept rest : List Char),
      (∀ character ∈ skipped, strip character = true) → kept ≠ [] →
      (∀ character ∈ kept.head?, strip character = false) →
      (skipped ++ (kept ++ rest)).dropWhile strip = kept ++ rest := by
    intro skipped kept rest stripped some shown
    rw [List.dropWhile_append_of_pos stripped]
    cases kept with
    | nil => exact absurd rfl some
    | cons head tail => simp [shown head rfl]
  have front := stops before core after
    (fun character member => outside character (List.mem_append_left _ member)) nonempty first
  have back := stops after.reverse core.reverse []
    (fun character member => outside character
      (List.mem_append_right _ (List.mem_reverse.mp member)))
    (by simpa using nonempty) (by simpa using last)
  rw [List.append_nil] at back
  rw [trimMatches, List.append_assoc, front, List.reverse_append, back, List.reverse_reverse]

theorem toNat_bounds_of_isDigit {character : Char} (digit : character.isDigit = true) :
    48 ≤ character.toNat ∧ character.toNat ≤ 57 := by
  simp only [Char.isDigit, ge_iff_le, Bool.and_eq_true, decide_eq_true_eq,
    UInt32.le_iff_toNat_le] at digit
  exact digit

theorem isWhitespace_of_isDigit (character : Char) (digit : character.isDigit = true) :
    isWhitespace character = false := by
  have range := toNat_bounds_of_isDigit digit
  rw [← Bool.not_eq_true]
  simp only [isWhitespace, Bool.or_eq_true, Bool.and_eq_true, decide_eq_true_eq, beq_iff_eq]
  omega

/-! ## Cutting at the last separator -/

theorem rsplitOnce_eq_none (separator : Char) (text : List Char)
    (absent : separator ∉ text) : rsplitOnce separator text = none := by
  induction text with
  | nil => rfl
  | cons head rest inductionHypothesis =>
      simp only [List.mem_cons, not_or] at absent
      simp [rsplitOnce, inductionHypothesis absent.2, Ne.symm absent.1]

theorem rsplitOnce_append (separator : Char) (before after : List Char)
    (absent : separator ∉ after) :
    rsplitOnce separator (before ++ separator :: after) = some (before, after) := by
  induction before with
  | nil => simp [rsplitOnce, rsplitOnce_eq_none separator after absent]
  | cons head rest inductionHypothesis => simp [rsplitOnce, inductionHypothesis]

theorem not_mem_of_rsplitOnce (separator : Char) {text : List Char}
    (uncut : rsplitOnce separator text = none) : separator ∉ text := by
  induction text with
  | nil => exact List.not_mem_nil
  | cons head rest inductionHypothesis =>
      rw [rsplitOnce] at uncut
      cases later : rsplitOnce separator rest with
      | some pair =>
          rw [later] at uncut
          cases uncut
      | none =>
          rw [later] at uncut
          simp only [ite_eq_right_iff, reduceCtorEq, imp_false] at uncut
          rw [List.mem_cons, not_or]
          exact ⟨Ne.symm uncut, inductionHypothesis later⟩

theorem rsplitOnce_iff (separator : Char) (text before after : List Char) :
    rsplitOnce separator text = some (before, after) ↔
      text = before ++ separator :: after ∧ separator ∉ after := by
  constructor
  · intro cut
    induction text generalizing before after with
    | nil => cases cut
    | cons head rest inductionHypothesis =>
        rw [rsplitOnce] at cut
        cases later : rsplitOnce separator rest with
        | some pair =>
            rw [later] at cut
            cases cut
            obtain ⟨shape, last⟩ := inductionHypothesis _ _ later
            exact ⟨by rw [shape, List.cons_append], last⟩
        | none =>
            rw [later] at cut
            simp only at cut
            split at cut
            · subst head
              cases cut
              exact ⟨rfl, not_mem_of_rsplitOnce separator later⟩
            · cases cut
  · rintro ⟨rfl, absent⟩
    exact rsplitOnce_append separator before after absent

/-! ## Decimal text -/

theorem ofDigitChars_padDecimal (width value : Nat) :
    Nat.ofDigitChars 10 (padDecimal width value) 0 = value := by
  simp [padDecimal, Nat.ofDigitChars_append]

theorem padDecimal_injective (width : Nat) : Function.Injective (padDecimal width) := by
  intro left right same
  have values := congrArg (fun digits => Nat.ofDigitChars 10 digits 0) same
  simpa [ofDigitChars_padDecimal] using values

theorem padDecimal_ne_nil (width value : Nat) : padDecimal width value ≠ [] := by
  simp [padDecimal, Nat.toDigits_ne_nil]

theorem isDigit_of_mem_padDecimal {width value : Nat} {character : Char}
    (member : character ∈ padDecimal width value) : character.isDigit = true := by
  rcases List.mem_append.mp member with padding | digit
  · rw [(List.mem_replicate.mp padding).2]
    rfl
  · exact Nat.isDigit_of_mem_toDigits (by omega) (by omega) digit

theorem padDecimal_length {width value : Nat} (positive : 0 < width) (fits : value < 10 ^ width) :
    (padDecimal width value).length = width := by
  have digits := (Nat.length_toDigits_le_iff (by omega) positive).mpr fits
  rw [padDecimal, List.length_append, List.length_replicate]
  omega

theorem ofDigitChars_lt {text : List Char}
    (digits : ∀ character ∈ text, character.isDigit = true) :
    Nat.ofDigitChars 10 text 0 < 10 ^ text.length := by
  induction text with
  | nil => simp
  | cons head rest inductionHypothesis =>
      have bounds := toNat_bounds_of_isDigit (digits head (by simp))
      have tail := inductionHypothesis fun character member => digits character (by simp [member])
      have digit : head.toNat - '0'.toNat ≤ 9 := by
        have zero : '0'.toNat = 48 := rfl
        omega
      rw [Nat.ofDigitChars_cons, Nat.ofDigitChars_eq_ofDigitChars_zero, List.length_cons,
        Nat.pow_succ]
      have leading : 10 ^ rest.length * (10 * 0 + (head.toNat - '0'.toNat)) ≤
          10 ^ rest.length * 9 := Nat.mul_le_mul_left _ (by omega)
      omega

theorem mul_add_lt_iff {base high low high' low' : Nat} (bound : low < base)
    (bound' : low' < base) :
    base * high + low < base * high' + low' ↔ high < high' ∨ high = high' ∧ low < low' := by
  rcases Nat.lt_trichotomy high high' with less | rfl | greater
  · have step : base * (high + 1) ≤ base * high' := Nat.mul_le_mul_left base less
    rw [Nat.mul_add] at step
    omega
  · omega
  · have step : base * (high' + 1) ≤ base * high := Nat.mul_le_mul_left base greater
    rw [Nat.mul_add] at step
    omega

/-- Digit strings of one length are ordered as text like the numbers they denote. -/
theorem lt_iff_ofDigitChars_lt {left right : List Char}
    (leftDigits : ∀ character ∈ left, character.isDigit = true)
    (rightDigits : ∀ character ∈ right, character.isDigit = true)
    (same : left.length = right.length) :
    left < right ↔ Nat.ofDigitChars 10 left 0 < Nat.ofDigitChars 10 right 0 := by
  induction left generalizing right with
  | nil =>
      cases right with
      | nil => simp
      | cons => simp at same
  | cons first left inductionHypothesis =>
      cases right with
      | nil => simp at same
      | cons second right =>
          have shorter : left.length = right.length := by simpa using same
          have leftRest : ∀ character ∈ left, character.isDigit = true :=
            fun character member => leftDigits character (by simp [member])
          have rightRest : ∀ character ∈ right, character.isDigit = true :=
            fun character member => rightDigits character (by simp [member])
          have tail := inductionHypothesis leftRest rightRest shorter
          have leftBound := ofDigitChars_lt leftRest
          have rightBound := ofDigitChars_lt rightRest
          have firstBounds := toNat_bounds_of_isDigit (leftDigits first (by simp))
          have secondBounds := toNat_bounds_of_isDigit (rightDigits second (by simp))
          have zero : '0'.toNat = 48 := rfl
          have order : first < second ↔ first.toNat < second.toNat := Iff.rfl
          have equal : first = second ↔ first.toNat = second.toNat := Char.toNat_inj.symm
          have value : ∀ (character : Char) (rest : List Char),
              Nat.ofDigitChars 10 (character :: rest) 0 =
                10 ^ rest.length * (character.toNat - 48) + Nat.ofDigitChars 10 rest 0 := by
            intro character rest
            rw [Nat.ofDigitChars_cons, Nat.ofDigitChars_eq_ofDigitChars_zero, zero, Nat.mul_zero,
              Nat.zero_add]
          rw [shorter] at leftBound
          rw [List.cons_lt_cons_iff, tail, value, value, shorter,
            mul_add_lt_iff leftBound rightBound, order, equal]
          omega

/-- A common ending does not change the order of texts of one length. -/
theorem append_lt_append_iff {left right : List Char} (ending : List Char)
    (same : left.length = right.length) :
    left ++ ending < right ++ ending ↔ left < right := by
  induction left generalizing right with
  | nil =>
      cases right with
      | nil => simp
      | cons => simp at same
  | cons first left inductionHypothesis =>
      cases right with
      | nil => simp at same
      | cons second right =>
          rw [List.cons_append, List.cons_append, List.cons_lt_cons_iff, List.cons_lt_cons_iff,
            inductionHypothesis (by simpa using same)]

theorem padDecimal_lt_iff {width left right : Nat} (positive : 0 < width)
    (leftFits : left < 10 ^ width) (rightFits : right < 10 ^ width) :
    padDecimal width left < padDecimal width right ↔ left < right := by
  rw [lt_iff_ofDigitChars_lt (fun _ => isDigit_of_mem_padDecimal)
    (fun _ => isDigit_of_mem_padDecimal)
    (by rw [padDecimal_length positive leftFits, padDecimal_length positive rightFits]),
    ofDigitChars_padDecimal, ofDigitChars_padDecimal]

/-- A counter that was written with `to_string` is read back unchanged. -/
theorem parseUnsigned_toDigits (bound value : Nat) (fits : value < bound) :
    parseUnsigned bound (Nat.toDigits 10 value) = some value := by
  have nonempty : Nat.toDigits 10 value ≠ [] := Nat.toDigits_ne_nil
  have digits : ∀ character ∈ Nat.toDigits 10 value, character.isDigit = true :=
    fun character member => Nat.isDigit_of_mem_toDigits (by omega) (by omega) member
  unfold parseUnsigned
  split
  · rename_i rest shape
    have plus := digits '+' (by rw [shape]; simp)
    simp at plus
  · simp [nonempty, List.all_eq_true.mpr digits, fits]

end SystemPilot.Text
