import SystemPilot.Shell.ContextLog

/-!
# Captured commands

The line the shell hook appends to `context.log`, and when `read_recent_entries` reads
the command and the exit code back from it.  Directories and commands are bytes; that
they have no newline is part of their type.
-/

set_option autoImplicit false

namespace SystemPilot.Shell

open SystemPilot.Text

/-- The bytes of one line. -/
def Line : Type := { bytes : List UInt8 // newline ∉ bytes }

/-- What `date -Iseconds` shows. -/
structure Moment where
  year : Nat
  month : Nat
  day : Nat
  hour : Nat
  minute : Nat
  second : Nat
  east : Bool
  offsetHours : Nat
  offsetMinutes : Nat

def Moment.iso (moment : Moment) : List Char :=
  padDecimal 4 moment.year ++ '-' :: (padDecimal 2 moment.month ++ '-' ::
    (padDecimal 2 moment.day ++ 'T' :: (padDecimal 2 moment.hour ++ ':' ::
      (padDecimal 2 moment.minute ++ ':' :: (padDecimal 2 moment.second ++
        (if moment.east then '+' else '-') :: (padDecimal 2 moment.offsetHours ++ ':' ::
          padDecimal 2 moment.offsetMinutes))))))

/-- `history 1`: the command behind its number, which is right-aligned in five columns. -/
def history (number : Nat) (command : List UInt8) : List UInt8 :=
  List.replicate (5 - (Nat.toDigits 10 number).length) 32 ++
    (encode (Nat.toDigits 10 number) ++ (32 :: 32 :: command))

def isDigitByte (byte : UInt8) : Bool := 48 ≤ byte && byte ≤ 57

/-- `sed 's/^ *[0-9]* *//'`. -/
def sed (text : List UInt8) : List UInt8 :=
  ((text.dropWhile (· == 32)).dropWhile isDigitByte).dropWhile (· == 32)

/-- What `__syspilot_precmd` appends. -/
def hookText (moment : Moment) (directory : Line) (number : Nat) (command : Line)
    (exitCode : UInt8) : List UInt8 :=
  encode moment.iso ++ (encode separator ++ (directory.1 ++ (encode separator ++
    (sed (history number command.1) ++ (encode separator ++
      encode (Nat.toDigits 10 exitCode.toNat))))))

/-- The log after some lines were appended to it. -/
def contextLog (lines : List Line) : List UInt8 := lines.flatMap fun line => line.1 ++ [newline]

/-! ## The text of the hook -/

theorem isDigitByte_of_mem_encode {digits : List Char}
    (decimal : ∀ character ∈ digits, character.isDigit = true) :
    ∀ byte ∈ encode digits, isDigitByte byte = true := by
  intro byte member
  obtain ⟨character, there, among⟩ := List.mem_flatMap.mp member
  obtain ⟨low, high⟩ := toNat_bounds_of_isDigit (decimal character there)
  have size : character.utf8Size = 1 := by
    rw [Char.utf8Size_eq_one_iff, UInt32.le_iff_toNat_le]
    exact high.trans (by decide)
  rw [String.utf8EncodeChar_eq_singleton size, List.mem_singleton] at among
  have value : byte.toNat = character.toNat := by
    rw [among, UInt32.toNat_toUInt8]
    exact Nat.mod_eq_of_lt (high.trans_lt (by decide))
  simp only [isDigitByte, Bool.and_eq_true, decide_eq_true_eq, UInt8.le_iff_toNat_le, value]
  exact ⟨low, high⟩

theorem ascii_space : String.utf8EncodeChar ' ' = [32] := by decide

theorem ascii_bar : String.utf8EncodeChar '|' = [124] := by decide

theorem ascii_newline : String.utf8EncodeChar '\n' = [newline] := by decide

theorem ascii_return : String.utf8EncodeChar '\r' = [13] := by decide

theorem encode_separator : encode separator = [32, 124, 32] := by decide

theorem dropWhile_head (strip : UInt8 → Bool) {byte : UInt8} {bytes : List UInt8}
    (kept : strip byte = false) : (byte :: bytes).dropWhile strip = byte :: bytes :=
  List.dropWhile_cons_of_neg (by simp [kept])

theorem encode_toDigits_ne_nil (number : Nat) : encode (Nat.toDigits 10 number) ≠ [] := by
  intro empty
  exact Nat.toDigits_ne_nil (encode_injective (empty.trans encode_nil.symm))

/-- The hook strips the number and the blanks in front of the command. -/
theorem sed_history (number : Nat) (command : List UInt8) :
    sed (history number command) = command.dropWhile (· == 32) := by
  have decimal := isDigitByte_of_mem_encode fun character =>
    @isDigit_of_mem_toDigits number character
  have blanks : ∀ byte ∈ List.replicate (5 - (Nat.toDigits 10 number).length) (32 : UInt8),
      (byte == 32) = true := fun byte member => by simp [List.eq_of_mem_replicate member]
  obtain ⟨first, more, digits⟩ := List.exists_cons_of_ne_nil (encode_toDigits_ne_nil number)
  rw [sed, history, List.dropWhile_append_of_pos blanks]
  rw [digits] at decimal ⊢
  have apart : (first == 32) = false := by
    have range := decimal first List.mem_cons_self
    rw [beq_eq_false_iff_ne]
    rintro rfl
    exact absurd range (by decide)
  rw [List.cons_append, dropWhile_head (· == 32) apart, ← List.cons_append,
    List.dropWhile_append_of_pos decimal, dropWhile_head isDigitByte (by decide),
    List.dropWhile_cons_of_pos (p := (· == 32)) (by decide),
    List.dropWhile_cons_of_pos (p := (· == 32)) (by decide)]

theorem isDigit_of_mem_iso {moment : Moment} {character : Char} (member : character ∈ moment.iso) :
    character.isDigit = true ∨ character ∈ ['-', 'T', ':', '+'] := by
  have digits : ∀ width value, character ∈ padDecimal width value → character.isDigit = true :=
    fun width value => isDigit_of_mem_padDecimal
  have sign : (if moment.east then '+' else '-') ∈ ['-', 'T', ':', '+'] := by
    cases moment.east <;> decide
  simp only [Moment.iso, List.mem_append, List.mem_cons] at member
  grind

/-- No field the hook writes itself has a certain character. -/
theorem not_mem_iso {moment : Moment} {character : Char} (other : character.isDigit = false)
    (mark : character ∉ ['-', 'T', ':', '+']) : character ∉ moment.iso := by
  intro member
  rcases isDigit_of_mem_iso member with digit | known
  · rw [other] at digit
    exact Bool.false_ne_true digit
  · exact mark known

theorem newline_not_mem_sed {text : List UInt8} (line : newline ∉ text) : newline ∉ sed text := by
  have sublist : (sed text).Sublist text :=
    ((List.dropWhile_sublist _).trans (List.dropWhile_sublist _)).trans (List.dropWhile_sublist _)
  exact fun member => line (sublist.subset member)

theorem newline_not_mem_digits (number : Nat) : newline ∉ encode (Nat.toDigits 10 number) := by
  intro member
  have digit := isDigit_of_mem_toDigits (mem_of_mem_encode ascii_newline member)
  exact absurd digit (by decide)

theorem newline_not_mem_hookText (moment : Moment) (directory : Line) (number : Nat)
    (command : Line) (exitCode : UInt8) :
    newline ∉ hookText moment directory number command exitCode := by
  have stamped : newline ∉ encode moment.iso := fun member =>
    not_mem_iso (by decide) (by decide) (mem_of_mem_encode ascii_newline member)
  have separated : newline ∉ encode separator := by decide
  have listed : newline ∉ history number command.1 := by
    simp only [history, List.mem_append, List.mem_cons, not_or]
    refine ⟨?_, newline_not_mem_digits number, by decide, by decide, command.2⟩
    exact fun member => absurd (List.eq_of_mem_replicate member) (by decide)
  simp only [hookText, List.mem_append, not_or]
  exact ⟨stamped, separated, directory.2, separated, newline_not_mem_sed listed, separated,
    newline_not_mem_digits exitCode.toNat⟩

/-- The line the hook appends. -/
def hookLine (moment : Moment) (directory : Line) (number : Nat) (command : Line)
    (exitCode : UInt8) : Line :=
  ⟨hookText moment directory number command exitCode,
    newline_not_mem_hookText moment directory number command exitCode⟩

/-! ## Well-formed lines -/

theorem utf8_separator {before after : List UInt8} :
    Utf8 (before ++ (encode separator ++ after)) ↔ Utf8 before ∧ Utf8 after := by
  have bar := @utf8_around '|' 124 ascii_bar [] (32 :: after)
  have space := @utf8_around ' ' 32 ascii_space [] after
  have empty : Utf8 [] := ⟨[], rfl⟩
  rw [encode_separator]
  change Utf8 (before ++ 32 :: 124 :: 32 :: after) ↔ _
  rw [utf8_around ascii_space]
  constructor
  · intro ⟨front, rest⟩
    exact ⟨front, (space.mp (bar.mp rest).2).2⟩
  · intro ⟨front, rest⟩
    exact ⟨front, bar.mpr ⟨empty, space.mpr ⟨empty, rest⟩⟩⟩

theorem utf8_hookText (moment : Moment) (directory : Line) (number : Nat) (command : Line)
    (exitCode : UInt8) :
    Utf8 (hookText moment directory number command exitCode) ↔
      Utf8 directory.1 ∧ Utf8 command.1 := by
  have stamp : Utf8 (encode moment.iso) := ⟨_, rfl⟩
  have code : Utf8 (encode (Nat.toDigits 10 exitCode.toNat)) := ⟨_, rfl⟩
  rw [hookText, utf8_separator, utf8_separator, utf8_separator, sed_history,
    utf8_dropWhile ascii_space]
  tauto

theorem utf8_chomp (line : List UInt8) : Utf8 (chomp line) ↔ Utf8 line := by
  rw [chomp]
  split
  · rename_i ended
    obtain ⟨front, rfl⟩ := List.getLast?_eq_some_iff.mp ended
    rw [List.dropLast_concat, utf8_around ascii_return]
    exact ⟨fun valid => ⟨valid, [], rfl⟩, fun valid => valid.1⟩
  · exact Iff.rfl

/-! ## The lines of a log -/

theorem byteLines_line {line : List UInt8} (single : newline ∉ line) (rest current : List UInt8) :
    byteLines (line ++ newline :: rest) current =
      chomp (current.reverse ++ line) :: byteLines rest [] := by
  induction line generalizing current with
  | nil => rw [List.nil_append, byteLines, if_pos rfl, List.append_nil]
  | cons byte line ih =>
      rw [List.mem_cons, not_or] at single
      rw [List.cons_append, byteLines, if_neg (Ne.symm single.1), ih single.2, List.reverse_cons,
        List.append_assoc, List.singleton_append]

theorem byteLines_contextLog (lines : List Line) :
    byteLines (contextLog lines) [] = lines.map fun line => chomp line.1 := by
  induction lines with
  | nil => rfl
  | cons line rest ih =>
      have next := byteLines_line line.2 (contextLog rest) []
      rw [contextLog, List.flatMap_cons, List.append_assoc, List.singleton_append]
      rw [List.map_cons, ← ih]
      exact next

theorem decodedLines_invalid {first second : List (List UInt8)}
    (invalid : ¬ ∀ line ∈ first, Utf8 line) :
    decodedLines (first ++ second) = decodedLines first := by
  induction first with
  | nil => exact absurd (List.forall_mem_nil _) invalid
  | cons line rest ih =>
      rw [List.cons_append, decodedLines, decodedLines]
      cases decoded : fromUtf8 line with
      | none => rfl
      | some text =>
          dsimp only
          rw [ih]
          intro valid
          refine invalid (List.forall_mem_cons.mpr ⟨⟨_, utf8_of_fromUtf8 decoded⟩, valid⟩)

theorem decodedLines_valid {first : List (List UInt8)} (valid : ∀ line ∈ first, Utf8 line)
    (second : List (List UInt8)) :
    decodedLines (first ++ second) = decodedLines first ++ decodedLines second := by
  induction first with
  | nil => rfl
  | cons line rest ih =>
      obtain ⟨⟨characters, rfl⟩, others⟩ := List.forall_mem_cons.mp valid
      rw [List.cons_append, decodedLines, decodedLines, fromUtf8_encode]
      dsimp only
      rw [ih others, List.cons_append]

/-- Nothing behind bytes that are no text is read. -/
theorem entriesFromEnd_unreadable {log : List Line} {line : Line}
    (unreadable : ¬ ((∀ earlier ∈ log, Utf8 earlier.1) ∧ Utf8 line.1)) :
    entriesFromEnd (some (contextLog (log ++ [line]))) =
      entriesFromEnd (some (contextLog log)) := by
  have lines : logLines (contextLog (log ++ [line])) = logLines (contextLog log) := by
    rw [logLines, logLines, byteLines_contextLog, byteLines_contextLog, List.map_append]
    by_cases valid : ∀ earlier ∈ log.map fun line => chomp line.1, Utf8 earlier
    · have ended : fromUtf8 (chomp line.1) = none := by
        refine fromUtf8_none fun text => unreadable ⟨?_, (utf8_chomp line.1).mp text⟩
        intro earlier member
        exact (utf8_chomp earlier.1).mp (valid _ (List.mem_map_of_mem member))
      rw [decodedLines_valid valid, List.map_singleton, decodedLines, ended, List.append_nil]
    · rw [decodedLines_invalid valid]
  rw [entriesFromEnd, entriesFromEnd, lines]

theorem entriesFromEnd_readable {log : List Line} {line : Line} {text : List Char}
    (readable : ∀ earlier ∈ log, Utf8 earlier.1) (shown : chomp line.1 = encode text)
    (some_text : text ≠ []) :
    entriesFromEnd (some (contextLog (log ++ [line]))) =
      (kept (String.ofList text)).toList ++ entriesFromEnd (some (contextLog log)) := by
  have valid : ∀ earlier ∈ log.map fun line => chomp line.1, Utf8 earlier := by
    intro earlier member
    obtain ⟨line, there, rfl⟩ := List.mem_map.mp member
    exact (utf8_chomp line.1).mpr (readable line there)
  have nonempty : String.ofList text ≠ "" := by
    intro empty
    exact some_text (by simpa using congrArg String.toList empty)
  have last : decodedLines [encode text] = [String.ofList text] := by
    rw [decodedLines, fromUtf8_encode]
    rfl
  have lines : logLines (contextLog (log ++ [line])) =
      logLines (contextLog log) ++ [String.ofList text] := by
    rw [logLines, logLines, byteLines_contextLog, byteLines_contextLog, List.map_append,
      decodedLines_valid valid, List.map_singleton, shown, last, List.filter_append,
      List.filter_singleton, decide_eq_true nonempty]
    rfl
  rw [entriesFromEnd, entriesFromEnd, lines, List.reverse_concat, List.filterMap_cons]
  cases kept (String.ofList text) <;> rfl

/-! ## Reading a line back -/

/-- The line is read into an entry of its own, with the command up to blanks around it
and with the exit code: whatever number of entries is asked for, the line adds this one
to those in front of it. -/
def ReadBack (log : List Line) (line command : Line) (exitCode : UInt8) : Prop :=
  ∃ entry : LogEntry,
    (∃ text, command.1 = encode text ∧ entry.command = String.ofList (trimmed text)) ∧
    entry.exitCode = exitCode.toNat ∧
    ∀ count, 1 ≤ count → readRecentEntries (some (contextLog (log ++ [line]))) (count + 1) =
      entry :: readRecentEntries (some (contextLog log)) count

theorem added_iff (longer log : Option (List UInt8)) (entry : LogEntry) :
    (∀ count, 1 ≤ count →
        readRecentEntries longer (count + 1) = entry :: readRecentEntries log count) ↔
      entriesFromEnd longer = entry :: entriesFromEnd log := by
  constructor
  · intro added
    have all := added ((entriesFromEnd longer).length + (entriesFromEnd log).length + 1) (by omega)
    rw [readRecentEntries_eq, readRecentEntries_eq, List.take_of_length_le (by omega),
      List.take_of_length_le (by omega)] at all
    exact all
  · intro whole count positive
    rw [readRecentEntries_eq, readRecentEntries_eq, whole, Nat.max_eq_right positive,
      Nat.max_eq_right (by omega), List.take_succ_cons]

/-- The text of a line the hook appends, from the command behind its leading blanks. -/
def lineText (moment : Moment) (directory command : List Char) (exitCode : UInt8) : List Char :=
  moment.iso ++ separator ++ (directory ++ separator ++ (command ++ separator ++
    Nat.toDigits 10 exitCode.toNat))

/-- The field behind the first separator of the directory and the command, when a
second one follows it. -/
def secondField (directory command : List Char) : Option (List Char) :=
  (splitOnce separator (directory ++ separator ++ (command ++ [' ', '|']))).bind fun cut =>
    (splitOnce separator cut.2).map Prod.fst

theorem separator_ne : separator ≠ [] := by decide

theorem clean_of_no_space {text : List Char} (none : ' ' ∉ text) : Clean separator text := by
  intro inside
  have counted := inside.sublist.count_le ' '
  rw [List.count_append, List.count_eq_zero.mpr none] at counted
  exact absurd counted (by decide)

theorem clean_iso (moment : Moment) : Clean separator moment.iso :=
  clean_of_no_space (not_mem_iso (by decide) (by decide))

theorem splitN_two {count : Nat} {text field rest : List Char}
    (cut : splitOnce separator text = some (field, rest)) :
    splitN separator (count + 2) text = field :: splitN separator (count + 1) rest := by
  rw [splitN, cut]

/-- The entry of a line whose first separators are known. -/
theorem readEntry_of_cuts {text stamp afterStamp directory afterDirectory command exitCode : List Char}
    (first : splitOnce separator text = some (stamp, afterStamp))
    (second : splitOnce separator afterStamp = some (directory, afterDirectory))
    (third : splitOnce separator afterDirectory = some (command, exitCode)) :
    readEntry (String.ofList text) = some {
      timestamp := String.ofList stamp
      directory := String.ofList directory
      command := String.ofList (trimmed command)
      exitCode := (parseSigned (2 ^ 31) (trimmed exitCode)).getD 0 } := by
  have fields : splitN separator 4 text = [stamp, directory, command, exitCode] := by
    rw [splitN_two first, splitN_two second, splitN_two third, splitN]
  rw [readEntry, String.toList_ofList, fields]

/-! ## The three ways to cut a line -/

/-- Trimming takes no bar away. -/
theorem count_bar_trimmed (text : List Char) : (trimmed text).count '|' = text.count '|' := by
  have dropped : ∀ part : List Char, (part.dropWhile isWhitespace).count '|' = part.count '|' := by
    intro part
    have front : (part.takeWhile isWhitespace).count '|' = 0 := by
      rw [List.count_eq_zero]
      intro member
      exact absurd (List.mem_takeWhile_imp member) (by decide)
    have whole := congrArg (List.count '|')
      (List.takeWhile_append_dropWhile (p := isWhitespace) (l := part))
    rw [List.count_append, front, Nat.zero_add] at whole
    exact whole
  rw [trimmed, trimMatches, List.count_reverse, dropped, List.count_reverse, dropped]

theorem parseSigned_bar {text : List Char} (bar : '|' ∈ text) (bound : Nat) :
    parseSigned bound (trimmed text) = none := by
  have there : '|' ∈ trimmed text := by
    rw [← List.count_pos_iff, count_bar_trimmed, List.count_pos_iff]
    exact bar
  exact parseSigned_none there (by decide) (by decide) (by decide) bound

/-- Behind a separator of a text that ends in a bar there is that bar. -/
theorem ends_of_cut {text before after : List Char} (ends : text.getLast? = some '|')
    (cut : splitOnce separator text = some (before, after)) : after.getLast? = some '|' := by
  obtain ⟨rfl, -⟩ := (splitOnce_iff separator_ne _ _ _).mp cut
  rw [List.getLast?_append] at ends
  cases last : after.getLast? with
  | none =>
      rw [last, Option.none_or, List.getLast?_append] at ends
      exact absurd ends (by simp [separator])
  | some character =>
      rw [last, Option.some_or] at ends
      exact ends

theorem getLast?_bar (text : List Char) : (text ++ [' ', '|']).getLast? = some '|' := by
  rw [List.getLast?_append]
  rfl

theorem exitCode_digits (exitCode : UInt8) :
    (parseSigned (2 ^ 31) (trimmed (Nat.toDigits 10 exitCode.toNat))).getD 0 = exitCode.toNat := by
  rw [trimmed, trimMatches_toDigits,
    parseSigned_toDigits (exitCode.toNat_lt.trans (by decide : 2 ^ 8 < 2 ^ 31))]
  rfl

section Cuts

variable (moment : Moment) {directory command : List Char} (exitCode : UInt8)

theorem cut_stamp : splitOnce separator (lineText moment directory command exitCode) =
    some (moment.iso, directory ++ separator ++ (command ++ separator ++
      Nat.toDigits 10 exitCode.toNat)) :=
  splitOnce_clean separator_ne (clean_iso moment) _

/-- Clean fields are read as they were written. -/
theorem readEntry_clean (cleanDirectory : Clean separator directory)
    (cleanCommand : Clean separator command) :
    readEntry (String.ofList (lineText moment directory command exitCode)) = some {
      timestamp := String.ofList moment.iso
      directory := String.ofList directory
      command := String.ofList (trimmed command)
      exitCode := exitCode.toNat } := by
  rw [readEntry_of_cuts (cut_stamp moment exitCode)
    (splitOnce_clean separator_ne cleanDirectory _) (splitOnce_clean separator_ne cleanCommand _),
    exitCode_digits]

/-- A field between two separators is read as the command, and the exit code as zero. -/
theorem readEntry_secondField {field : List Char} (second : secondField directory command = some field) :
    ∃ entry, readEntry (String.ofList (lineText moment directory command exitCode)) = some entry ∧
      entry.command = String.ofList (trimmed field) ∧ entry.exitCode = 0 := by
  obtain ⟨⟨front, rest⟩, first, later⟩ := Option.bind_eq_some_iff.mp second
  obtain ⟨⟨_, tail⟩, third, rfl⟩ := Option.map_eq_some_iff.mp later
  have longer : directory ++ separator ++ (command ++ separator ++
      Nat.toDigits 10 exitCode.toNat) = directory ++ separator ++ (command ++ [' ', '|']) ++
        ' ' :: Nat.toDigits 10 exitCode.toNat := by
    simp [separator]
  have ends : (directory ++ separator ++ (command ++ [' ', '|'])).getLast? = some '|' := by
    rw [← List.append_assoc]
    exact getLast?_bar _
  have bar : '|' ∈ tail ++ ' ' :: Nat.toDigits 10 exitCode.toNat :=
    List.mem_append_left _ (List.mem_of_getLast? (ends_of_cut (ends_of_cut ends first) third))
  refine ⟨_, readEntry_of_cuts (cut_stamp moment exitCode)
    (longer ▸ splitOnce_append separator_ne first _) (splitOnce_append separator_ne third _),
    rfl, ?_⟩
  dsimp only
  rw [parseSigned_bar bar]
  rfl

/-- Where the directory or the command is not clean and there is no second field, a longer
text than the command is read. -/
theorem readEntry_longer (unclean : ¬ (Clean separator directory ∧ Clean separator command))
    (single : secondField directory command = none) :
    ∃ entry field, readEntry (String.ofList (lineText moment directory command exitCode)) =
      some entry ∧ entry.command = String.ofList (trimmed field) ∧
        command.count '|' < field.count '|' := by
  have uncleanDirectory : ¬ Clean separator directory := by
    intro clean
    have first := splitOnce_clean separator_ne clean (command ++ [' ', '|'])
    rw [secondField, first, Option.bind_some, Option.map_eq_none_iff] at single
    exact unclean ⟨clean, (splitOnce_eq_none separator_ne).mp single⟩
  obtain ⟨front, rest, cut⟩ := splitOnce_isSome separator_ne (not_not.mp uncleanDirectory)
  have first := splitOnce_append separator_ne cut (' ' :: (command ++ [' ', '|']))
  have bar : '|' ∈ rest := List.mem_of_getLast? (ends_of_cut (getLast?_bar directory) cut)
  have clean : Clean separator (rest ++ ' ' :: command) := by
    have joined : directory ++ separator.dropLast ++ ' ' :: (command ++ [' ', '|']) =
        directory ++ separator ++ (command ++ [' ', '|']) := by
      simp [separator]
    rw [joined] at first
    rw [secondField, first, Option.bind_some, Option.map_eq_none_iff] at single
    have uncut := (splitOnce_eq_none separator_ne).mp single
    rw [Clean, List.append_assoc]
    exact uncut
  have second : directory ++ separator ++ (command ++ separator ++
      Nat.toDigits 10 exitCode.toNat) = directory ++ separator.dropLast ++
        ' ' :: (command ++ separator ++ Nat.toDigits 10 exitCode.toNat) := by
    simp [separator]
  have third : rest ++ ' ' :: (command ++ separator ++ Nat.toDigits 10 exitCode.toNat) =
      rest ++ ' ' :: command ++ separator ++ Nat.toDigits 10 exitCode.toNat := by
    simp
  refine ⟨_, rest ++ ' ' :: command, readEntry_of_cuts (cut_stamp moment exitCode)
    (second ▸ splitOnce_append separator_ne cut _)
    (third ▸ splitOnce_clean separator_ne clean _), rfl, ?_⟩
  have counted := List.count_pos_iff.mpr bar
  rw [List.count_append, List.count_cons_of_ne (by decide)]
  omega

end Cuts

/-! ## Commands that are read back -/

/-- The command as the hook writes it. -/
def unindented (command : List Char) : List Char := command.dropWhile (· == ' ')

/-- Log, directory and command are text, the command is no `syspilot` invocation, and
directory and command are clean, or else it happens that the exit code is zero and the
field between the separators is the command. -/
def Recoverable (log : List Line) (directory command : Line) (exitCode : UInt8) : Prop :=
  (∀ line ∈ log, Utf8 line.1) ∧
    ∃ place text, directory.1 = encode place ∧ command.1 = encode text ∧
      startsWith (String.ofList (trimmed text)) "syspilot" = false ∧
      ((Clean separator place ∧ Clean separator (unindented text)) ∨
        (exitCode = 0 ∧ ∃ field, secondField place (unindented text) = some field ∧
          trimmed field = trimmed text))

theorem trimmed_unindented (command : List Char) :
    trimmed (unindented command) = trimmed command := by
  have stripped : (unindented command).dropWhile isWhitespace =
      command.dropWhile isWhitespace := by
    induction command with
    | nil => rfl
    | cons character rest ih =>
        rw [unindented]
        by_cases blank : character = ' '
        · rw [blank, List.dropWhile_cons_of_pos (p := (· == ' ')) (by decide),
            List.dropWhile_cons_of_pos (p := isWhitespace) (by decide)]
          exact ih
        · rw [List.dropWhile_cons_of_neg (p := (· == ' ')) (by simpa using blank)]
  rw [trimmed, trimmed, trimMatches, trimMatches, stripped]

theorem hookText_encode (moment : Moment) {directory : Line} (number : Nat) {command : Line}
    (exitCode : UInt8) {place text : List Char} (placed : directory.1 = encode place)
    (written : command.1 = encode text) :
    hookText moment directory number command exitCode =
      encode (lineText moment place (unindented text) exitCode) := by
  rw [hookText, sed_history, placed, written, dropWhile_encode ascii_space, lineText, unindented]
  simp only [encode_append, List.append_assoc]

theorem chomp_hookText (moment : Moment) (directory : Line) (number : Nat) (command : Line)
    (exitCode : UInt8) :
    chomp (hookText moment directory number command exitCode) =
      hookText moment directory number command exitCode := by
  rw [chomp, if_neg]
  intro ended
  obtain ⟨last, digit⟩ : ∃ last, (encode (Nat.toDigits 10 exitCode.toNat)).getLast? = some last :=
    ⟨_, List.getLast?_eq_some_getLast (encode_toDigits_ne_nil exitCode.toNat)⟩
  have decimal := isDigitByte_of_mem_encode (fun character => isDigit_of_mem_toDigits) last
    (List.mem_of_getLast? digit)
  simp only [hookText, List.getLast?_append, digit, Option.some_or, Option.some.injEq] at ended
  rw [ended] at decimal
  exact absurd decimal (by decide)

theorem kept_eq_some {line : String} {entry : LogEntry} :
    kept line = some entry ↔ readEntry line = some entry ∧ entry.own = false := by
  rw [kept, Option.filter_eq_some_iff, Bool.not_eq_true']

section Main

variable (log : List Line) (moment : Moment) (directory : Line) (number : Nat) (command : Line)
  (exitCode : UInt8)

/-- A line that is read back is read as text. -/
theorem readBack_iff_entry {log : List Line} {moment : Moment} {directory : Line} {number : Nat}
    {command : Line} {exitCode : UInt8} :
    ReadBack log (hookLine moment directory number command exitCode) command exitCode ↔
      (∀ line ∈ log, Utf8 line.1) ∧ ∃ place text, directory.1 = encode place ∧
        command.1 = encode text ∧ ∃ entry : LogEntry,
          readEntry (String.ofList (lineText moment place (unindented text) exitCode)) =
              some entry ∧ entry.own = false ∧
            entry.command = String.ofList (trimmed text) ∧ entry.exitCode = exitCode.toNat := by
  have entries : ∀ {place text}, directory.1 = encode place → command.1 = encode text →
      (∀ line ∈ log, Utf8 line.1) →
      entriesFromEnd (some (contextLog
          (log ++ [hookLine moment directory number command exitCode]))) =
        (kept (String.ofList (lineText moment place (unindented text) exitCode))).toList ++
          entriesFromEnd (some (contextLog log)) := by
    intro place text placed written readable
    have encoded := hookText_encode moment number exitCode placed written
    refine entriesFromEnd_readable readable
      ((chomp_hookText moment directory number command exitCode).trans encoded) ?_
    simp [lineText, separator]
  constructor
  · rintro ⟨entry, ⟨text, written, shown⟩, code, added⟩
    rw [added_iff] at added
    by_cases readable : (∀ line ∈ log, Utf8 line.1) ∧
        Utf8 (hookLine moment directory number command exitCode).1
    · obtain ⟨⟨place, placed⟩, -⟩ := (utf8_hookText _ _ _ _ _).mp readable.2
      rw [entries placed written readable.1] at added
      refine ⟨readable.1, place, text, placed, written, entry, ?_⟩
      cases line : kept (String.ofList (lineText moment place (unindented text) exitCode)) with
      | none =>
          rw [line] at added
          exact absurd added List.ne_cons_self
      | some found =>
          rw [line] at added
          obtain rfl : found = entry := (List.cons.inj added).1
          obtain ⟨read, other⟩ := kept_eq_some.mp line
          exact ⟨read, other, shown, code⟩
    · rw [entriesFromEnd_unreadable readable] at added
      exact absurd added List.ne_cons_self
  · rintro ⟨readable, place, text, placed, written, entry, read, other, shown, code⟩
    refine ⟨entry, ⟨text, written, shown⟩, code, ?_⟩
    rw [added_iff, entries placed written readable, kept_eq_some.mpr ⟨read, other⟩]
    rfl

/-- The line of a command is read back exactly when it is recoverable. -/
theorem captured_command_read_back_iff :
    ReadBack log (hookLine moment directory number command exitCode) command exitCode ↔
      Recoverable log directory command exitCode := by
  rw [readBack_iff_entry, Recoverable]
  refine and_congr_right fun readable => exists_congr fun place => exists_congr fun text =>
    and_congr_right fun placed => and_congr_right fun written => ?_
  by_cases clean : Clean separator place ∧ Clean separator (unindented text)
  · have read := readEntry_clean moment exitCode clean.1 clean.2
    rw [trimmed_unindented] at read
    rw [read]
    constructor
    · intro ⟨found, equal, other, _⟩
      rw [← Option.some.inj equal] at other
      exact ⟨other, .inl clean⟩
    · intro ⟨other, _⟩
      exact ⟨_, rfl, other, rfl, rfl⟩
  · have same : ∀ first second : List Char,
        String.ofList first = String.ofList second → first = second := fun first second equal => by
      simpa using congrArg String.toList equal
    cases second : secondField place (unindented text) with
    | none =>
        obtain ⟨entry, field, read, shown, longer⟩ := readEntry_longer moment exitCode clean second
        rw [read]
        constructor
        · intro ⟨found, equal, _, command, _⟩
          obtain rfl := Option.some.inj equal
          have counts := congrArg (List.count '|') (same _ _ (shown.symm.trans command))
          rw [← trimmed_unindented text, count_bar_trimmed, count_bar_trimmed] at counts
          omega
        · intro ⟨_, either⟩
          obtain ⟨_, _, found, _⟩ := either.resolve_left clean
          cases found
    | some field =>
        obtain ⟨entry, read, shown, zero⟩ := readEntry_secondField moment exitCode second
        rw [read]
        constructor
        · intro ⟨found, equal, other, command, code⟩
          obtain rfl := Option.some.inj equal
          rw [LogEntry.own, command] at other
          refine ⟨other, .inr ⟨?_, field, rfl, same _ _ (shown.symm.trans command)⟩⟩
          rw [zero] at code
          exact UInt8.toNat_inj.mp (by rw [UInt8.toNat_zero]; omega)
        · intro ⟨other, either⟩
          obtain ⟨rfl, part, found, equal⟩ := either.resolve_left clean
          obtain rfl := Option.some.inj found
          refine ⟨entry, rfl, ?_, shown.trans (congrArg String.ofList equal), zero⟩
          rw [LogEntry.own, shown, equal]
          exact other

end Main

def newYear : Moment := ⟨2026, 1, 1, 10, 0, 0, true, 0, 0⟩

def home : Line := ⟨encode ['/', 'a'], by decide⟩

def pipeline : Line := ⟨encode ['l', 's', ' ', '|', ' ', 'w', 'c'], by decide⟩

/-- A pipeline that failed is read as its first command, with the exit code zero. -/
theorem pipeline_not_read_back : ¬ ReadBack [] (hookLine newYear home 7 pipeline 1) pipeline 1 := by
  rintro ⟨entry, -, code, added⟩
  have read : readRecentEntries (some (contextLog [hookLine newYear home 7 pipeline 1])) 2 =
      [⟨"2026-01-01T10:00:00+00:00", "/a", "ls", 0⟩] := by decide +kernel
  have alone := (added 1 le_rfl).symm.trans read
  rw [(List.cons.inj alone).1] at code
  exact absurd code (by decide)

end SystemPilot.Shell
