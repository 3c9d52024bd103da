import SystemPilot.Library.Checked
import SystemPilot.Text.Fields

/-!
# Parsing `/proc/<pid>/stat`

The three parsers of a process's `stat` file: `collect_process_telemetry_impl` for the
process itself and for its child list, and the daemon's `read_ppid`.  A process chooses
its own name, so the name is bytes.  A slice that is out of range or inside a character
panics, which is a result of its own here.
-/

set_option autoImplicit false

namespace SystemPilot.Telemetry

open SystemPilot.Library.Checked
open SystemPilot.Text

/-! ## The parsers -/

/-- `rfind(')')` and `&stat[close_paren + 2..]`. -/
def afterName (stat : List Char) : Except Fault (Option (List Char)) :=
  match rsplitOnce ')' stat with
  | none => .ok none
  | some (_, []) => .error .slice
  | some (_, next :: rest) => if next.utf8Size = 1 then .ok (some rest) else .error .slice

/-- The fields behind the name; there are none when the file cannot be read as text or
has no parenthesis. -/
def statFields (stat : Option (List UInt8)) : Except Fault (List (List Char)) :=
  match stat.bind fromUtf8 with
  | none => .ok []
  | some text =>
      match afterName text.toList with
      | .ok (some rest) => .ok (splitWhitespace rest)
      | .ok none => .ok []
      | .error fault => .error fault

/-- `parse_u64`. -/
def parseU64 (text : List Char) : Nat :=
  (parseUnsigned (2 ^ 64) (trimMatches isWhitespace text)).getD 0

/-- `parse_i32`. -/
def parseI32 (text : List Char) : Int :=
  (parseSigned (2 ^ 31) (trimMatches isWhitespace text)).getD 0

/-- What `stat` and the child list give of a process. -/
structure ProcessTelemetry where
  pid : Int
  ppid : Int := 0
  state : String := ""
  threadCount : Int := 0
  utime : Nat := 0
  stime : Nat := 0
  rssBytes : Nat := 0
  vsizeBytes : Nat := 0
  minflt : Nat := 0
  majflt : Nat := 0
  childPids : List Int := []
  deriving DecidableEq, Repr

/-- The page size from what `sysconf` returns. -/
def pageSize (sysconf : Option Int) : Nat :=
  let size := match sysconf with
    | some size => (size % 2 ^ 64).toNat
    | none => 4096
  if size = 0 then 4096 else size

/-- The assignments from the fields that are there. -/
def ProcessTelemetry.assign (telemetry : ProcessTelemetry) (sysconf : Option Int)
    (fields : List (List Char)) : ProcessTelemetry :=
  { telemetry with
    state := (fields[0]?.map String.ofList).getD telemetry.state
    ppid := (fields[1]?.map parseI32).getD telemetry.ppid
    minflt := (fields[7]?.map parseU64).getD telemetry.minflt
    majflt := (fields[9]?.map parseU64).getD telemetry.majflt
    utime := (fields[11]?.map parseU64).getD telemetry.utime
    stime := (fields[12]?.map parseU64).getD telemetry.stime
    threadCount := (fields[17]?.map parseI32).getD telemetry.threadCount
    vsizeBytes := (fields[20]?.map parseU64).getD telemetry.vsizeBytes
    rssBytes := (fields[21]?.map fun pages =>
      min (parseU64 pages * pageSize sysconf) (2 ^ 64 - 1)).getD telemetry.rssBytes }

/-- An entry of `/proc` with the contents of its `stat`. -/
structure ProcEntry where
  name : List Char
  stat : Option (List UInt8)

/-- The process an entry is about. -/
def ProcEntry.pid (entry : ProcEntry) : Option Int :=
  if entry.name.all Char.isDigit then parseSigned (2 ^ 31) entry.name else none

/-- The loop of the child list. -/
def childPids (pid : Int) : List ProcEntry → Except Fault (List Int)
  | [] => .ok []
  | entry :: rest =>
      match entry.pid with
      | none => childPids pid rest
      | some child =>
          match statFields entry.stat with
          | .error fault => .error fault
          | .ok fields =>
              match childPids pid rest with
              | .error fault => .error fault
              | .ok others =>
                  if fields[1]?.map parseI32 = some pid then .ok (child :: others)
                  else .ok others

/-- What `collect_process_telemetry_impl` finds in `/proc`. -/
structure Proc where
  directory : Bool := true
  stat : Option (List UInt8)
  entries : List ProcEntry := []

def collectProcessTelemetryImpl (sysconf : Option Int) (proc : Proc) (pid : Int)
    (includeChildren : Bool) : Except Fault ProcessTelemetry :=
  if !proc.directory then .ok { pid }
  else
    match statFields proc.stat with
    | .error fault => .error fault
    | .ok fields =>
        let telemetry := ({ pid } : ProcessTelemetry).assign sysconf fields
        if includeChildren then
          match childPids pid proc.entries with
          | .error fault => .error fault
          | .ok children => .ok { telemetry with childPids := children }
        else .ok telemetry

/-- `read_ppid` of the daemon. -/
def readPpid (stat : Option (List UInt8)) : Except Fault Int :=
  match statFields stat with
  | .error fault => .error fault
  | .ok fields => .ok ((fields[1]?.bind (parseSigned (2 ^ 31))).getD 0)

/-! ## What the kernel writes -/

/-- A decimal number. -/
def integer (value : Int) : List Char :=
  if value < 0 then '-' :: Nat.toDigits 10 value.natAbs else Nat.toDigits 10 value.natAbs

/-- A process as its `stat` file shows it; `later` are the fields behind `rss`. -/
structure KernelStat where
  pid : Fin (2 ^ 31)
  comm : List UInt8
  state : Char
  letter : state.isAlpha = true
  ppid : Fin (2 ^ 31)
  pgrp : Int := 0
  session : Int := 0
  ttyNr : Int := 0
  tpgid : Int := -1
  flags : Nat := 0
  minflt : UInt64
  cminflt : UInt64 := 0
  majflt : UInt64
  cmajflt : UInt64 := 0
  utime : UInt64
  stime : UInt64
  cutime : Int := 0
  cstime : Int := 0
  priority : Int := 20
  nice : Int := 0
  numThreads : Fin (2 ^ 31)
  itrealvalue : Nat := 0
  starttime : UInt64 := 0
  vsize : UInt64
  rss : UInt64
  later : List Int := []

namespace KernelStat

/-- The fields behind the state. -/
def numbers (stat : KernelStat) : List Int :=
  [Int.ofNat stat.ppid.val, stat.pgrp, stat.session, stat.ttyNr, stat.tpgid,
    Int.ofNat stat.flags, Int.ofNat stat.minflt.toNat, Int.ofNat stat.cminflt.toNat,
    Int.ofNat stat.majflt.toNat, Int.ofNat stat.cmajflt.toNat, Int.ofNat stat.utime.toNat,
    Int.ofNat stat.stime.toNat, stat.cutime, stat.cstime, stat.priority, stat.nice,
    Int.ofNat stat.numThreads.val, Int.ofNat stat.itrealvalue, Int.ofNat stat.starttime.toNat,
    Int.ofNat stat.vsize.toNat, Int.ofNat stat.rss.toNat] ++ stat.later

/-- The text behind the parenthesis that closes the name. -/
def tail (stat : KernelStat) : List Char :=
  ' ' :: stat.state :: ((stat.numbers.map integer).flatMap (' ' :: ·) ++ ['\n'])

/-- The contents of the file. -/
def contents (stat : KernelStat) : List UInt8 :=
  encode (Nat.toDigits 10 stat.pid.val ++ [' ']) ++ 40 :: (stat.comm ++ 41 :: encode stat.tail)

def entry (stat : KernelStat) : ProcEntry where
  name := Nat.toDigits 10 stat.pid.val
  stat := some stat.contents

end KernelStat

/-! ## Words -/

/-- A word has a character, and none that is white or a parenthesis. -/
def Word (word : List Char) : Prop :=
  word ≠ [] ∧ ∀ character ∈ word, isWhitespace character = false ∧ character ≠ ')'

theorem splitWhitespace_word {word : List Char} (plain : Word word) {white : Char}
    (ends : isWhitespace white = true) (rest : List Char) :
    splitWhitespace (word ++ white :: rest) = word :: splitWhitespace rest := by
  have inside : ∀ character ∈ word, isWhitespace character = false :=
    fun character member => (plain.2 character member).1
  rw [splitWhitespace, List.splitOnP_append_cons_of_forall_mem inside white ends,
    List.filter_cons_of_pos (by simpa using plain.1), splitWhitespace]

theorem splitWhitespace_words {word : List Char} (words : List (List Char)) (plain : Word word)
    (others : ∀ other ∈ words, Word other) :
    splitWhitespace (word ++ (words.flatMap (' ' :: ·) ++ ['\n'])) = word :: words := by
  induction words generalizing word with
  | nil =>
      rw [List.flatMap_nil, List.nil_append, splitWhitespace_word plain (by decide)]
      rfl
  | cons next rest ih =>
      obtain ⟨nextPlain, restPlain⟩ := List.forall_mem_cons.mp others
      rw [List.flatMap_cons, List.cons_append, List.cons_append,
        splitWhitespace_word plain (by decide), List.append_assoc, ih nextPlain restPlain]

theorem isWhitespace_of_isAlpha {character : Char} (letter : character.isAlpha = true) :
    isWhitespace character = false := by
  have range : (65 ≤ character.toNat ∧ character.toNat ≤ 90) ∨
      (97 ≤ character.toNat ∧ character.toNat ≤ 122) := by
    have compared : (decide ('A'.val ≤ character.val ∧ character.val ≤ 'Z'.val) ||
        decide ('a'.val ≤ character.val) && decide (character.val ≤ 'z'.val)) = true := letter
    simp only [Bool.or_eq_true, Bool.and_eq_true, decide_eq_true_eq,
      UInt32.le_iff_toNat_le] at compared
    exact compared
  rw [← Bool.not_eq_true]
  simp only [isWhitespace, Bool.or_eq_true, Bool.and_eq_true, decide_eq_true_eq, beq_iff_eq]
  omega

theorem word_digits (value : Nat) : Word (Nat.toDigits 10 value) := by
  refine ⟨Nat.toDigits_ne_nil, ?_⟩
  intro character member
  have digit := isDigit_of_mem_toDigits member
  refine ⟨isWhitespace_of_isDigit character digit, ?_⟩
  rintro rfl
  exact absurd digit (by decide)

theorem word_integer (value : Int) : Word (integer value) := by
  rw [integer]
  split
  · refine ⟨List.cons_ne_nil _ _, ?_⟩
    intro character member
    rcases List.mem_cons.mp member with rfl | digit
    · exact ⟨by decide, by decide⟩
    · exact (word_digits value.natAbs).2 character digit
  · exact word_digits value.natAbs

theorem parseI32_ofNat {value : Nat} (fits : value < 2 ^ 31) :
    parseI32 (integer (Int.ofNat value)) = value := by
  have shown : integer (Int.ofNat value) = Nat.toDigits 10 value := if_neg (by simp)
  rw [parseI32, shown, trimMatches_toDigits, parseSigned_toDigits fits]
  rfl

theorem parseU64_ofNat (value : UInt64) :
    parseU64 (integer (Int.ofNat value.toNat)) = value.toNat := by
  have shown : integer (Int.ofNat value.toNat) = Nat.toDigits 10 value.toNat := if_neg (by simp)
  rw [parseU64, shown, trimMatches_toDigits, parseUnsigned_toDigits _ _ value.toNat_lt]
  rfl

/-! ## The fields of a file -/

theorem ascii_open : String.utf8EncodeChar '(' = [40] := by decide

theorem ascii_close : String.utf8EncodeChar ')' = [41] := by decide

namespace KernelStat

theorem utf8_contents (stat : KernelStat) : Utf8 stat.contents ↔ Utf8 stat.comm := by
  rw [contents, utf8_around ascii_open, utf8_around ascii_close]
  exact ⟨fun valid => valid.2.1, fun valid => ⟨⟨_, rfl⟩, valid, _, rfl⟩⟩

theorem word_state (stat : KernelStat) : Word [stat.state] := by
  have letter := stat.letter
  refine ⟨List.cons_ne_nil _ _, ?_⟩
  intro character member
  rw [List.mem_singleton.mp member]
  refine ⟨isWhitespace_of_isAlpha letter, ?_⟩
  intro closed
  rw [closed] at letter
  exact absurd letter (by decide)

theorem words (stat : KernelStat) : ∀ word ∈ stat.numbers.map integer, Word word := by
  intro word member
  obtain ⟨value, -, rfl⟩ := List.mem_map.mp member
  exact word_integer value

theorem not_mem_tail (stat : KernelStat) : ')' ∉ stat.tail := by
  intro member
  rw [tail, List.mem_cons, List.mem_cons, List.mem_append, List.mem_flatMap] at member
  rcases member with space | state | ⟨word, among, inside⟩ | line
  · exact absurd space (by decide)
  · exact (stat.word_state.2 stat.state (List.mem_singleton_self _)).2 state.symm
  · rcases List.mem_cons.mp inside with space | inside
    · exact absurd space (by decide)
    · exact (stat.words word among).2 ')' inside |>.2 rfl
  · exact absurd line (by decide)

/-- A process with a well-formed name shows the kernel's fields. -/
theorem statFields_contents {stat : KernelStat} (text : Utf8 stat.comm) :
    statFields (some stat.contents) = .ok ([stat.state] :: stat.numbers.map integer) := by
  obtain ⟨name, named⟩ := text
  have whole : stat.contents =
      encode ((Nat.toDigits 10 stat.pid.val ++ ' ' :: '(' :: name) ++ ')' :: stat.tail) := by
    rw [contents, named, encode_append, encode_append, encode_append, encode_cons, encode_cons,
      encode_cons, encode_cons, ascii_open, ascii_close]
    simp
  have space : ' '.utf8Size = 1 := by decide
  have split := splitWhitespace_words _ stat.word_state stat.words
  rw [List.singleton_append] at split
  rw [statFields, Option.bind_some, whole, fromUtf8_encode]
  dsimp only
  rw [String.toList_ofList, afterName, rsplitOnce_append ')' _ _ stat.not_mem_tail, tail]
  dsimp only
  rw [if_pos space]
  exact congrArg Except.ok split

/-- Nothing is read of a process whose name is not well formed. -/
theorem statFields_unreadable {stat : KernelStat} (bytes : ¬ Utf8 stat.comm) :
    statFields (some stat.contents) = .ok [] := by
  rw [statFields, Option.bind_some, fromUtf8_none (mt stat.utf8_contents.mp bytes)]

end KernelStat

/-! ## Right results -/

/-- What the kernel's fields are in the telemetry, with the given children. -/
def KernelStat.telemetry (stat : KernelStat) (sysconf : Option Int) (children : List Int) :
    ProcessTelemetry where
  pid := stat.pid.val
  ppid := stat.ppid.val
  state := String.ofList [stat.state]
  threadCount := stat.numThreads.val
  utime := stat.utime.toNat
  stime := stat.stime.toNat
  rssBytes := stat.rss.toNat * pageSize sysconf
  vsizeBytes := stat.vsize.toNat
  minflt := stat.minflt.toNat
  majflt := stat.majflt.toNat
  childPids := children

/-- The processes of a table whose parent is a process. -/
def childrenOf (table : List KernelStat) (pid : Int) : List Int :=
  (table.filter fun child => (child.ppid.val : Int) = pid).map fun child => (child.pid.val : Int)

/-- The three parsers give a process of a table the kernel's fields. -/
structure ParsedRight (sysconf : Option Int) (table : List KernelStat) (stat : KernelStat) :
    Prop where
  own : ∀ includeChildren, collectProcessTelemetryImpl sysconf
      { stat := some stat.contents, entries := table.map KernelStat.entry } stat.pid.val
      includeChildren =
    .ok (stat.telemetry sysconf (if includeChildren then childrenOf table stat.pid.val else []))
  daemon : readPpid (some stat.contents) = .ok (stat.ppid.val : Int)

/-- The contents make none of the three parsers panic. -/
structure Calm (content : List UInt8) : Prop where
  own : ∀ sysconf pid, ∃ telemetry,
    collectProcessTelemetryImpl sysconf { stat := some content } pid false = .ok telemetry
  child : ∀ pid name, ∃ children, childPids pid [{ name, stat := some content }] = .ok children
  daemon : ∃ ppid, readPpid (some content) = .ok ppid

/-- The contents are no text, or have no closing parenthesis, or have a character of one
byte behind the last one. -/
def Skippable (content : List UInt8) : Prop :=
  ∀ before after, content = encode (before ++ ')' :: after) → ')' ∉ after →
    ∃ next rest, after = next :: rest ∧ next.utf8Size = 1

theorem statFields_ok_iff (content : List UInt8) :
    (∃ fields, statFields (some content) = .ok fields) ↔ Skippable content := by
  by_cases text : Utf8 content
  · obtain ⟨characters, rfl⟩ := text
    rw [statFields, Option.bind_some, fromUtf8_encode]
    dsimp only
    rw [String.toList_ofList, afterName]
    cases cut : rsplitOnce ')' characters with
    | none =>
        refine ⟨fun _ => ?_, fun _ => ⟨[], rfl⟩⟩
        intro before after whole last
        rw [encode_injective whole, rsplitOnce_append ')' before after last] at cut
        cases cut
    | some sides =>
        obtain ⟨before, after⟩ := sides
        obtain ⟨whole, last⟩ := (rsplitOnce_iff ')' _ _ _).mp cut
        cases after with
        | nil =>
            constructor
            · intro ⟨fields, read⟩
              cases read
            · intro skippable
              obtain ⟨next, rest, shape, -⟩ := skippable before [] (by rw [whole]) last
              cases shape
        | cons next rest =>
            by_cases narrow : next.utf8Size = 1
            · refine ⟨fun _ => ?_, fun _ => ⟨splitWhitespace rest, by simp [narrow]⟩⟩
              intro first second same absent
              rw [encode_injective same, rsplitOnce_append ')' first second absent] at cut
              obtain ⟨-, rfl⟩ := Prod.mk.inj (Option.some.inj cut)
              exact ⟨next, rest, rfl, narrow⟩
            · constructor
              · intro ⟨fields, read⟩
                simp [narrow] at read
              · intro skippable
                obtain ⟨head, more, shape, one⟩ := skippable before _ (by rw [whole]) last
                rw [(List.cons.inj shape).1] at narrow
                exact absurd one narrow
  · rw [statFields, Option.bind_some, fromUtf8_none text]
    refine ⟨fun _ => ?_, fun _ => ⟨[], rfl⟩⟩
    intro before after whole
    exact absurd ⟨_, whole⟩ text

theorem calm_iff (content : List UInt8) : Calm content ↔ Skippable content := by
  rw [← statFields_ok_iff]
  constructor
  · intro calm
    obtain ⟨ppid, read⟩ := calm.daemon
    rw [readPpid] at read
    cases fields : statFields (some content) with
    | error fault =>
        rw [fields] at read
        cases read
    | ok found => exact ⟨found, rfl⟩
  · intro ⟨fields, read⟩
    refine ⟨?_, ?_, ?_⟩
    · intro sysconf pid
      exact ⟨_, by rw [collectProcessTelemetryImpl, read]; rfl⟩
    · intro pid name
      rw [childPids]
      cases named : ProcEntry.pid { name, stat := some content } with
      | none => exact ⟨[], rfl⟩
      | some child =>
          dsimp only
          rw [read]
          by_cases parent : fields[1]?.map parseI32 = some pid
          · exact ⟨[child], if_pos parent⟩
          · exact ⟨[], if_neg parent⟩
    · exact ⟨_, by rw [readPpid, read]⟩

namespace KernelStat

/-- The assignments take each field from its place. -/
theorem assign_numbers {stat : KernelStat} (sysconf : Option Int)
    (fits : stat.rss.toNat * pageSize sysconf < 2 ^ 64) :
    ({ pid := stat.pid.val } : ProcessTelemetry).assign sysconf
        ([stat.state] :: stat.numbers.map integer) = stat.telemetry sysconf [] := by
  have resident : min (stat.rss.toNat * pageSize sysconf) (2 ^ 64 - 1) =
      stat.rss.toNat * pageSize sysconf := min_eq_left (by omega)
  simp only [ProcessTelemetry.assign, numbers, List.map_append, List.map_cons, List.cons_append,
    List.getElem?_cons_succ, List.getElem?_cons_zero, Option.map_some, Option.getD_some,
    parseU64_ofNat, parseI32_ofNat stat.ppid.isLt, parseI32_ofNat stat.numThreads.isLt, resident]
  rfl

theorem readPpid_contents {stat : KernelStat} (text : Utf8 stat.comm) :
    readPpid (some stat.contents) = .ok (stat.ppid.val : Int) := by
  have shown : integer (Int.ofNat stat.ppid.val) = Nat.toDigits 10 stat.ppid.val := if_neg (by simp)
  rw [readPpid, statFields_contents text]
  simp only [numbers, List.map_append, List.map_cons, List.cons_append, List.getElem?_cons_succ,
    List.getElem?_cons_zero, Option.bind_some, shown, parseSigned_toDigits stat.ppid.isLt,
    Option.getD_some]

theorem pid_entry (stat : KernelStat) : stat.entry.pid = some (stat.pid.val : Int) := by
  have digits : (Nat.toDigits 10 stat.pid.val).all Char.isDigit = true :=
    List.all_eq_true.mpr fun character member => isDigit_of_mem_toDigits member
  rw [ProcEntry.pid, entry, if_pos digits, parseSigned_toDigits stat.pid.isLt]

theorem childrenOf_cons (stat : KernelStat) (rest : List KernelStat) (pid : Int) :
    childrenOf (stat :: rest) pid =
      if (stat.ppid.val : Int) = pid then (stat.pid.val : Int) :: childrenOf rest pid
      else childrenOf rest pid := by
  by_cases parent : (stat.ppid.val : Int) = pid
  · simp [childrenOf, parent]
  · simp [childrenOf, parent]

/-- The child list finds the children of a table whose names are text. -/
theorem childPids_table {table : List KernelStat} (text : ∀ stat ∈ table, Utf8 stat.comm)
    (pid : Int) : childPids pid (table.map entry) = .ok (childrenOf table pid) := by
  induction table with
  | nil => rfl
  | cons stat rest ih =>
      obtain ⟨named, others⟩ := List.forall_mem_cons.mp text
      have second : ([stat.state] :: stat.numbers.map integer)[1]?.map parseI32 =
          some (stat.ppid.val : Int) := congrArg some (parseI32_ofNat stat.ppid.isLt)
      rw [List.map_cons, childPids, pid_entry]
      dsimp only
      rw [entry, statFields_contents named, ih others]
      dsimp only
      rw [second]
      rw [childrenOf_cons]
      by_cases parent : (stat.ppid.val : Int) = pid
      · rw [if_pos (congrArg some parent), if_pos parent]
      · rw [if_neg (mt Option.some.inj parent), if_neg parent]

/-- A table whose names are text is parsed right where the resident size fits. -/
theorem parsedRight {sysconf : Option Int} {table : List KernelStat}
    (text : ∀ stat ∈ table, Utf8 stat.comm) {stat : KernelStat} (member : stat ∈ table)
    (fits : stat.rss.toNat * pageSize sysconf < 2 ^ 64) : ParsedRight sysconf table stat := by
  refine ⟨?_, readPpid_contents (text stat member)⟩
  intro includeChildren
  rw [collectProcessTelemetryImpl, if_neg (by simp), statFields_contents (text stat member)]
  dsimp only
  rw [assign_numbers sysconf fits]
  cases includeChildren with
  | false => rfl
  | true =>
      rw [if_pos rfl, childPids_table text, if_pos rfl]
      rfl

/-- A process that is parsed right has a name that is text and a resident size that fits. -/
theorem text_of_parsedRight {sysconf : Option Int} {table : List KernelStat} {stat : KernelStat}
    (right : ParsedRight sysconf table stat) :
    Utf8 stat.comm ∧ stat.rss.toNat * pageSize sysconf < 2 ^ 64 := by
  have own := right.own false
  rw [collectProcessTelemetryImpl, if_neg (by simp)] at own
  by_cases text : Utf8 stat.comm
  · refine ⟨text, ?_⟩
    rw [statFields_contents text] at own
    have resident := congrArg ProcessTelemetry.rssBytes (Except.ok.inj own)
    simp only [ProcessTelemetry.assign, numbers, List.map_append, List.map_cons, List.cons_append,
      List.getElem?_cons_succ, List.getElem?_cons_zero, Option.map_some, Option.getD_some,
      parseU64_ofNat, telemetry] at resident
    omega
  · rw [statFields_unreadable text] at own
    have state := congrArg (fun result => result.state.toList) (Except.ok.inj own)
    simp [ProcessTelemetry.assign, telemetry] at state

end KernelStat

/-- Every process of a table is parsed right and no contents make a parser panic exactly
when the names are text, the resident sizes fit and the contents are skippable. -/
theorem stat_parsed_iff (sysconf : Option Int) (table : List KernelStat) (content : List UInt8) :
    (∀ stat ∈ table, ParsedRight sysconf table stat) ∧ Calm content ↔
      (∀ stat ∈ table, Utf8 stat.comm ∧ stat.rss.toNat * pageSize sysconf < 2 ^ 64) ∧
        Skippable content := by
  refine and_congr ⟨?_, ?_⟩ (calm_iff content)
  · intro right stat member
    exact KernelStat.text_of_parsedRight (right stat member)
  · intro fine stat member
    exact KernelStat.parsedRight (fun other among => (fine other among).1) member
      (fine stat member).2

/-- A sleeping process that named itself with the byte 0xFF. -/
def oddlyNamed : KernelStat where
  pid := 42
  comm := [255]
  state := 'S'
  letter := by decide
  ppid := 1
  minflt := 0
  majflt := 0
  utime := 0
  stime := 0
  numThreads := 1
  vsize := 0
  rss := 0

theorem odd_name_unparsed : ¬ ParsedRight none [oddlyNamed] oddlyNamed := by
  intro right
  have read : readPpid (some oddlyNamed.contents) = .ok 0 := by decide +kernel
  have daemon := right.daemon
  rw [read] at daemon
  exact absurd (Except.ok.inj daemon) (by decide)

end SystemPilot.Telemetry
