import SystemPilot.Text.Fields

/-!
# The context log

`read_recent_entries` on the bytes of `context.log`, and the entry `explain` takes
from what it returns.
-/

set_option autoImplicit false

namespace SystemPilot.Shell

open SystemPilot.Text

structure LogEntry where
  timestamp : String
  directory : String
  command : String
  exitCode : Int
  deriving DecidableEq, Repr

/-! ## Lines -/

def newline : UInt8 := 10

/-- `BufRead::lines` drops a carriage return before the newline. -/
def chomp (line : List UInt8) : List UInt8 :=
  if line.getLast? = some 13 then line.dropLast else line

/-- The lines of `BufRead::lines` before they are decoded; `current` holds the bytes
since the last newline, the last one first. -/
def byteLines : List UInt8 → List UInt8 → List (List UInt8)
  | [], [] => []
  | [], current => [current.reverse]
  | byte :: rest, current =>
      if byte = newline then chomp current.reverse :: byteLines rest []
      else byteLines rest (byte :: current)

/-- `.map_while(Result::ok)`. -/
def decodedLines : List (List UInt8) → List String
  | [] => []
  | line :: rest =>
      match fromUtf8 line with
      | some text => text :: decodedLines rest
      | none => []

def logLines (log : List UInt8) : List String :=
  (decodedLines (byteLines log [])).filter fun line => line ≠ ""

/-! ## Entries -/

def separator : List Char := [' ', '|', ' ']

def trimmed (text : List Char) : List Char := trimMatches isWhitespace text

/-- The entry of a line with four fields. -/
def readEntry (line : String) : Option LogEntry :=
  match splitN separator 4 line.toList with
  | [timestamp, directory, command, exitCode] =>
      some {
        timestamp := String.ofList timestamp
        directory := String.ofList directory
        command := String.ofList (trimmed command)
        exitCode := (parseSigned (2 ^ 31) (trimmed exitCode)).getD 0 }
  | _ => none

/-- A `syspilot` invocation. -/
def LogEntry.own (entry : LogEntry) : Bool := startsWith entry.command "syspilot"

/-- The loop of `read_recent_entries`, over the lines from the last one on. -/
def collect (count : Nat) : List String → List LogEntry → List LogEntry
  | [], entries => entries
  | line :: earlier, entries =>
      match readEntry line with
      | none => collect count earlier entries
      | some entry =>
          if entry.own then collect count earlier entries
          else
            let entries := entries ++ [entry]
            if count ≤ entries.length then entries else collect count earlier entries

/-- `read_recent_entries`; the log is missing when it cannot be opened. -/
def readRecentEntries (log : Option (List UInt8)) (count : Nat) : List LogEntry :=
  match log with
  | none => []
  | some bytes => collect count (logLines bytes).reverse []

/-! ## What the loop returns -/

/-- The entry a line leaves in the result. -/
def kept (line : String) : Option LogEntry := (readEntry line).filter fun entry => !entry.own

/-- The entries of a log that are not `syspilot` invocations, the last one first. -/
def entriesFromEnd : Option (List UInt8) → List LogEntry
  | none => []
  | some bytes => (logLines bytes).reverse.filterMap kept

theorem kept_none {line : String} (unread : readEntry line = none) : kept line = none := by
  rw [kept, unread]
  rfl

theorem kept_own {line : String} {entry : LogEntry} (read : readEntry line = some entry)
    (own : entry.own = true) : kept line = none := by
  rw [kept, read, Option.filter_some, own]
  rfl

theorem kept_other {line : String} {entry : LogEntry} (read : readEntry line = some entry)
    (other : ¬ entry.own = true) : kept line = some entry := by
  rw [kept, read, Option.filter_some, Bool.eq_false_iff.mpr other]
  rfl

theorem collect_eq (count : Nat) (lines : List String) (entries : List LogEntry)
    (room : entries.length < max 1 count) :
    collect count lines entries =
      entries ++ (lines.filterMap kept).take (max 1 count - entries.length) := by
  induction lines generalizing entries with
  | nil => simp [collect]
  | cons line earlier ih =>
      rw [collect]
      cases read : readEntry line with
      | none =>
          rw [List.filterMap_cons_none (kept_none read)]
          exact ih entries room
      | some entry =>
          dsimp only
          by_cases own : entry.own = true
          · rw [if_pos own, List.filterMap_cons_none (kept_own read own)]
            exact ih entries room
          · have longer : (entries ++ [entry]).length = entries.length + 1 := List.length_append
            have more : max 1 count - entries.length =
                max 1 count - (entries ++ [entry]).length + 1 := by omega
            rw [if_neg own, List.filterMap_cons_some (kept_other read own), more,
              List.take_succ_cons, List.append_cons entries entry (List.take _ _)]
            by_cases full : count ≤ (entries ++ [entry]).length
            · have last : max 1 count - (entries ++ [entry]).length = 0 := by omega
              rw [if_pos full, last, List.take_zero, List.append_nil]
            · rw [if_neg full]
              exact ih (entries ++ [entry]) (by omega)

/-- The result is the end of the log: one entry at least, then up to `count`. -/
theorem readRecentEntries_eq (log : Option (List UInt8)) (count : Nat) :
    readRecentEntries log count = (entriesFromEnd log).take (max 1 count) := by
  cases log with
  | none => exact List.take_nil.symm
  | some bytes => exact collect_eq count _ [] (by simp)

/-! ## The command `explain` takes -/

/-- `--number`: 1 when it is not given or its argument is no number. -/
def explainOffset (argument : Option (List Char)) : Nat :=
  (argument.bind (parseUnsigned (2 ^ 64))).getD 1

/-- The entry `explain` takes. -/
def explainEntry (log : Option (List UInt8)) (argument : Option (List Char)) : Option LogEntry :=
  (readRecentEntries log (explainOffset argument)).head?

/-- The command and the exit code in the explanation context. -/
def explainCommand (log : Option (List UInt8)) (argument : Option (List Char)) : String × Int :=
  match explainEntry log argument with
  | some entry => (entry.command, entry.exitCode)
  | none => ("No recent command found", 0)

/-- `explain` takes the last entry, whatever the number. -/
theorem explainEntry_eq (log : Option (List UInt8)) (argument : Option (List Char)) :
    explainEntry log argument = (entriesFromEnd log).head? := by
  rw [explainEntry, readRecentEntries_eq, List.head?_take, if_neg (by omega)]

/-! ## The failed commands -/

/-- The entries with a nonzero exit code. -/
def failures (log : Option (List UInt8)) : List LogEntry :=
  (entriesFromEnd log).filter fun entry => entry.exitCode ≠ 0

/-- `explain --number` takes the failed command of that number from the end, and none
exactly when there are fewer. -/
structure ExplainsFailure (log : Option (List UInt8)) (number : Nat) : Prop where
  chosen : ∀ entry, (failures log)[number - 1]? = some entry →
    explainCommand log (some (Nat.toDigits 10 number)) = (entry.command, entry.exitCode)
  placeholder : explainEntry log (some (Nat.toDigits 10 number)) = none ↔
    (failures log).length < number

/-- Two entries of one command and one exit code. -/
def LogEntry.Alike (first second : LogEntry) : Prop :=
  first.command = second.command ∧ first.exitCode = second.exitCode

/-- That holds exactly when the log has no entry, or when the failed command of that
number is there and alike the last entry. -/
theorem explains_failure_iff (log : Option (List UInt8)) (number : Nat) (positive : 1 ≤ number) :
    ExplainsFailure log number ↔
      entriesFromEnd log = [] ∨
        ∃ last ∈ (entriesFromEnd log).head?, ∃ entry ∈ (failures log)[number - 1]?,
          entry.Alike last := by
  have taken := explainEntry_eq log (some (Nat.toDigits 10 number))
  constructor
  · intro explains
    cases entries : entriesFromEnd log with
    | nil => exact .inl rfl
    | cons last earlier =>
        rw [entries, List.head?_cons] at taken
        have enough : number - 1 < (failures log).length := by
          have there : ¬ (failures log).length < number := fun fewer =>
            Option.some_ne_none last (taken.symm.trans (explains.placeholder.mpr fewer))
          omega
        have found := List.getElem?_eq_getElem enough
        have shown := explains.chosen _ found
        rw [explainCommand, taken] at shown
        obtain ⟨command, exitCode⟩ := Prod.mk.inj shown
        exact .inr ⟨last, rfl, _, found, command.symm, exitCode.symm⟩
  · rintro (empty | ⟨last, latest, entry, found, command, exitCode⟩)
    · have none_failed : failures log = [] := by rw [failures, empty, List.filter_nil]
      refine ⟨?_, ?_⟩
      · intro entry found
        rw [none_failed] at found
        cases found
      · rw [taken, empty, none_failed]
        exact ⟨fun _ => positive, fun _ => rfl⟩
    · rw [latest] at taken
      refine ⟨?_, ?_⟩
      · intro other same
        obtain rfl : entry = other := Option.some.inj (found.symm.trans same)
        rw [explainCommand, taken, command, exitCode]
      · have enough := (List.getElem?_eq_some_iff.mp found).1
        rw [taken]
        exact ⟨fun absent => absurd absent (Option.some_ne_none last), fun fewer => by omega⟩

/-- `make` failed, then `ls` succeeded. -/
def succeededLast : List UInt8 := encode
  "2026-01-01T10:00:00+00:00 | /a | make | 2\n2026-01-01T10:00:05+00:00 | /a | ls | 0\n".toList

theorem success_explained_for_failure : ¬ ExplainsFailure (some succeededLast) 1 := by
  intro explains
  have failed : (failures (some succeededLast))[1 - 1]? =
      some ⟨"2026-01-01T10:00:00+00:00", "/a", "make", 2⟩ := by decide +kernel
  have shown := explains.chosen _ failed
  have succeeded : explainCommand (some succeededLast) (some (Nat.toDigits 10 1)) = ("ls", 0) := by
    decide +kernel
  rw [succeeded] at shown
  exact absurd (Prod.mk.inj shown).1 (by decide)

/-- `make` failed twice. -/
def failedTwice : List UInt8 := encode
  "2026-01-01T10:00:00+00:00 | /a | make | 2\n2026-01-01T10:00:05+00:00 | /a | make | 2\n".toList

theorem explains_failure_repeated : ExplainsFailure (some failedTwice) 2 := by
  have both : entriesFromEnd (some failedTwice) =
      [⟨"2026-01-01T10:00:05+00:00", "/a", "make", 2⟩,
        ⟨"2026-01-01T10:00:00+00:00", "/a", "make", 2⟩] := by decide +kernel
  refine (explains_failure_iff (some failedTwice) 2 (by decide)).mpr (.inr ?_)
  rw [failures, both]
  exact ⟨_, rfl, _, rfl, rfl, rfl⟩

end SystemPilot.Shell
