import SystemPilot.Json.Compact
import SystemPilot.Json.Cuts
import SystemPilot.Library.Lines
import SystemPilot.Netlink.Socket
import SystemPilot.Text.Fields

/-!
# The provider's stream

What one line of a provider's answer says, the lines a reader takes from the bytes that
arrived, and why a line that was cut off says nothing of its own.
-/

set_option autoImplicit false

namespace SystemPilot.Ai

open SystemPilot.Text
open SystemPilot.Json
open SystemPilot.Netlink (index)
open SystemPilot.Library.Lines

/-! ## One line -/

/-- `json_data`: an event's data, or the line itself. -/
def jsonData (line : List Char) : List Char :=
  let trimmed := trimMatches isWhitespace line
  if "data:".toList <+: trimmed then trimMatches isWhitespace (trimmed.drop 5) else trimmed

/-- `Value::as_array` of what may be none, flattened. -/
def itemsOf : Value → List Value
  | .array items => items
  | _ => []

/-- The texts of a document, in the format of each provider. -/
def textsOf (provider : String) (value : Value) : List String :=
  if provider = "gemini" then
    ((itemsOf (index value "candidates")).flatMap fun candidate =>
      itemsOf (index (index candidate "content") "parts")).filterMap fun part =>
        (index part "text").asString
  else if provider = "ollama" then
    ((index (index value "message") "content").asString.or
      (index value "response").asString).toList
  else if provider = "syspilot" then
    (itemsOf (index value "choices")).filterMap fun choice =>
      (index (index choice "delta") "content").asString.or
        (index (index choice "message") "content").asString
  else []

section Streamed

variable (floats : FloatText) (provider : String)

def streamedText (line : List Char) : List String :=
  if jsonData line = [] ∨ jsonData line = "[DONE]".toList then []
  else
    match parseText floats (jsonData line) with
    | some value => textsOf provider value
    | none => []

/-- A line that ends, whose data is a document, or no start of which says anything. -/
structure Frame where
  line : List Char
  single : '\n' ∉ line
  framed : (∃ value, parseText floats (jsonData line) = some value) ∨
    ∀ start, start <+: line → streamedText floats provider start = []

end Streamed

/-! ## The reader -/

def newline : UInt8 := 10

/-- What arrived of a response, and why no more did: it ended, or reading failed. -/
structure Arrival where
  received : List UInt8
  failure : Option String

/-- A line end takes a carriage return with it. -/
def withoutReturn (line : List Char) : List Char :=
  if line.getLast? = some '\r' then line.dropLast else line

def decodeLine (bytes : List UInt8) : Except String (List Char) :=
  match fromUtf8 bytes with
  | some text => .ok text.toList
  | none => .error "stream did not contain valid UTF-8"

/-- `BufRead::lines`; what stands behind the last line feed is a line where the response
ended, and lost where reading failed. -/
def readLines (arrival : Arrival) : List (Except String (List Char)) :=
  let (lines, tail) := splitLines newline arrival.received
  (lines.map fun line => (decodeLine line).map withoutReturn) ++
    match arrival.failure with
    | some reason => [.error reason]
    | none => if tail = [] then [] else [decodeLine tail]

/-! ## Trimming a text that was cut -/

section Trim

variable {strip : Char → Bool}

theorem isPrefix_dropWhile {start text : List Char} (cut : start <+: text)
    (some : start.dropWhile strip ≠ []) : start.dropWhile strip <+: text.dropWhile strip := by
  obtain ⟨more, rfl⟩ := cut
  rw [(span_append more some).2]
  exact List.prefix_append _ _

theorem trimMatches_eq (text : List Char) :
    trimMatches strip text = (text.dropWhile strip).rdropWhile strip := rfl

theorem isPrefix_rdropWhile {start text : List Char} (cut : start <+: text) :
    start.rdropWhile strip <+: text.rdropWhile strip := by
  obtain ⟨more, rfl⟩ := cut
  induction more using List.reverseRecOn with
  | nil => rw [List.append_nil]
  | append_singleton more last inductionHypothesis =>
      rw [← List.append_assoc, List.rdropWhile_concat]
      split
      · exact inductionHypothesis
      · have kept := List.rdropWhile_prefix strip start
        exact kept.trans ((List.prefix_append start more).trans (List.prefix_append _ [last]))

theorem isPrefix_trimMatches {start text : List Char} (cut : start <+: text) :
    trimMatches strip start <+: trimMatches strip text := by
  rw [trimMatches_eq, trimMatches_eq]
  by_cases some : start.dropWhile strip = []
  · rw [some, List.rdropWhile_nil]
    exact List.nil_prefix
  · exact isPrefix_rdropWhile (isPrefix_dropWhile cut some)

theorem trim_concat {last : Char} (stripped : strip last = true) (text : List Char) :
    trimMatches strip (text ++ [last]) = trimMatches strip text := by
  rw [trimMatches_eq, trimMatches_eq, List.dropWhile_append]
  split
  · rename_i empty
    rw [List.isEmpty_iff.mp empty, List.dropWhile_cons_of_pos stripped]
    rfl
  · exact List.rdropWhile_concat_pos strip _ last stripped

end Trim

/-! ## A line that was cut -/

/-- The starts of the field name that are no field. -/
def fieldStarts : List (List Char) :=
  ["d".toList, "da".toList, "dat".toList, "data".toList]

theorem mem_fieldStarts {start : List Char} (cut : start <+: "data:".toList) (some : start ≠ [])
    (shorter : ¬"data:".toList <+: start) : start ∈ fieldStarts := by
  have listed : start ∈ "data:".toList.inits := (List.mem_inits _ _).mpr cut
  have all : "data:".toList.inits = [] :: fieldStarts ++ ["data:".toList] := by decide
  rw [all] at listed
  rcases List.mem_append.mp listed with inside | whole
  · exact List.mem_of_ne_of_mem some inside
  · rw [List.mem_singleton.mp whole] at shorter
    exact absurd (List.prefix_refl _) shorter

/-- The data of a start of a line is a start of its data, unless the cut falls into the
field's name. -/
theorem jsonData_prefix {start line : List Char} (cut : start <+: line) :
    jsonData start <+: jsonData line ∨ jsonData start ∈ fieldStarts := by
  have trimmed := @isPrefix_trimMatches isWhitespace start line cut
  unfold jsonData
  dsimp only
  by_cases named : "data:".toList <+: trimMatches isWhitespace start
  · rw [if_pos named, if_pos (named.trans trimmed)]
    exact .inl (isPrefix_trimMatches (List.IsPrefix.drop trimmed 5))
  · rw [if_neg named]
    split
    · rename_i field
      rcases List.prefix_or_prefix_of_prefix trimmed field with short | long
      · by_cases some : trimMatches isWhitespace start = []
        · rw [some]
          exact .inl List.nil_prefix
        · exact .inr (mem_fieldStarts short some named)
      · exact absurd long named
    · exact .inl trimmed

section Cut

variable {floats : FloatText} {provider : String}

theorem parse_fieldStart {data : List Char} (start : data ∈ fieldStarts) :
    parseText floats data = none := by
  simp only [fieldStarts, List.mem_cons, List.not_mem_nil, or_false] at start
  rcases start with rfl | rfl | rfl | rfl <;> rfl

theorem textsOf_number (number : Number) : textsOf provider (.number number) = [] := by
  unfold textsOf
  split
  · rfl
  · split
    · rfl
    · split <;> rfl

theorem streamedText_of_parsed {line : List Char} {value : Value}
    (parsed : parseText floats (jsonData line) = some value) :
    streamedText floats provider line = textsOf provider value := by
  have said : ¬(jsonData line = [] ∨ jsonData line = "[DONE]".toList) := by
    intro silent
    rcases silent with empty | done
    · rw [empty] at parsed
      cases parsed
    · rw [done] at parsed
      cases parsed
  rw [streamedText, if_neg said, parsed]

/-- A start of a line whose data is a document says what the line says, or nothing. -/
theorem streamedText_cut {start line : List Char} {value : Value} (cut : start <+: line)
    (parsed : parseText floats (jsonData line) = some value) :
    streamedText floats provider start = [] ∨
      streamedText floats provider start = streamedText floats provider line := by
  rw [streamedText_of_parsed parsed]
  cases found : parseText floats (jsonData start) with
  | none =>
      rw [streamedText, found]
      exact .inl (ite_self _)
  | some early =>
      rw [streamedText_of_parsed found]
      rcases jsonData_prefix cut with ⟨more, whole⟩ | field
      · cases early with
        | number number => exact .inl (textsOf_number number)
        | null | bool _ | string _ | array _ | object _ =>
            rw [← whole] at parsed
            rw [parseText_cut found (by simp) parsed]
            exact .inr rfl
      · rw [parse_fieldStart field] at found
        cases found

theorem Frame.cut (frame : Frame floats provider) {start : List Char} (cut : start <+: frame.line) :
    streamedText floats provider start = [] ∨
      streamedText floats provider start = streamedText floats provider frame.line := by
  rcases frame.framed with ⟨value, parsed⟩ | silent
  · exact streamedText_cut cut parsed
  · exact .inl (silent start cut)

theorem streamedText_withoutReturn (line : List Char) :
    streamedText floats provider (withoutReturn line) = streamedText floats provider line := by
  have same : jsonData (withoutReturn line) = jsonData line := by
    unfold withoutReturn
    split
    · rename_i last
      obtain ⟨before, rfl⟩ := List.getLast?_eq_some_iff.mp last
      have trimmed := @trim_concat isWhitespace '\r' (by decide) before
      rw [List.dropLast_concat, jsonData, jsonData, trimmed]
    · rfl
  rw [streamedText, streamedText, same]

end Cut

/-! ## A stream that was cut -/

section Wire

variable {floats : FloatText} {provider : String}

def Frame.texts (frame : Frame floats provider) : List String :=
  streamedText floats provider frame.line

/-- The bytes a provider sends. -/
def wire (frames : List (Frame floats provider)) : List UInt8 :=
  joined newline (frames.map fun frame => encode frame.line)

/-- What the reader makes of lines up to the first error. -/
def heard (floats : FloatText) (provider : String) :
    List (Except String (List Char)) → List String
  | .ok line :: reads => streamedText floats provider line ++ heard floats provider reads
  | .error _ :: _ => []
  | [] => []

theorem newline_ascii : String.utf8EncodeChar '\n' = [newline] := by decide

theorem newline_not_mem (frames : List (Frame floats provider)) :
    ∀ line ∈ frames.map (fun frame => encode frame.line), newline ∉ line := by
  intro line member inside
  obtain ⟨frame, -, rfl⟩ := List.mem_map.mp member
  exact frame.single (mem_of_mem_encode newline_ascii inside)

theorem decodeLine_encode (line : List Char) : decodeLine (encode line) = .ok line := by
  rw [decodeLine, fromUtf8_encode]
  exact congrArg Except.ok String.toList_ofList

/-- What decodes of a start of a line is a start of the line. -/
theorem prefix_of_encode {start line : List Char} (cut : encode start <+: encode line) :
    start <+: line := by
  induction start generalizing line with
  | nil => exact List.nil_prefix
  | cons first start inductionHypothesis =>
      cases line with
      | nil =>
          rw [encode_cons, encode_nil] at cut
          exact absurd (List.append_eq_nil_iff.mp (List.prefix_nil.mp cut)).1
            String.utf8EncodeChar_ne_nil
      | cons other line =>
          have same : first = other := by
            obtain ⟨more, whole⟩ := cut
            have read := congrArg decodeChar whole
            rw [encode_cons, encode_cons, List.append_assoc, decodeChar_encoded,
              decodeChar_encoded] at read
            exact Option.some.inj read
          subst same
          rw [encode_cons, encode_cons] at cut
          exact List.cons_prefix_cons.mpr
            ⟨rfl, inductionHypothesis ((List.prefix_append_right_inj _).mp cut)⟩

theorem decodeLine_start {bytes : List UInt8} {start line : List Char}
    (cut : bytes <+: encode line) (decoded : decodeLine bytes = .ok start) : start <+: line := by
  unfold decodeLine at decoded
  split at decoded
  · rename_i text read
    cases decoded
    rw [utf8_of_fromUtf8 read] at cut
    exact prefix_of_encode cut
  · cases decoded

theorem heard_frames (frames : List (Frame floats provider))
    (reads : List (Except String (List Char))) :
    heard floats provider
        ((frames.map fun frame => .ok (withoutReturn frame.line)) ++ reads) =
      frames.flatMap Frame.texts ++ heard floats provider reads := by
  induction frames with
  | nil => rfl
  | cons frame frames inductionHypothesis =>
      rw [List.map_cons, List.cons_append, heard, inductionHypothesis, streamedText_withoutReturn,
        List.flatMap_cons, List.append_assoc]
      rfl

/-- The tail of a cut stream says what the line that was cut says, or nothing. -/
theorem heard_tail {frames : List (Frame floats provider)} {tail : List UInt8}
    (failure : Option String)
    (cut : tail = [] ∨ ∃ frame ∈ frames.head?, tail <+: encode frame.line) :
    heard floats provider
        (match failure with
          | some reason => [.error reason]
          | none => if tail = [] then [] else [decodeLine tail]) <+:
      frames.flatMap Frame.texts := by
  cases failure with
  | some reason => exact List.nil_prefix
  | none =>
      rcases cut with rfl | ⟨frame, first, start⟩
      · exact List.nil_prefix
      · dsimp only
        split
        · exact List.nil_prefix
        · cases decoded : decodeLine tail with
          | error reason => exact List.nil_prefix
          | ok line =>
              obtain ⟨others, rfl⟩ := List.head?_eq_some_iff.mp first
              rw [heard, heard, List.append_nil, List.flatMap_cons]
              rcases frame.cut (decodeLine_start start decoded) with silent | same
              · rw [silent]
                exact List.nil_prefix
              · rw [same]
                exact List.prefix_append _ _

/-- However the stream was cut, the reader hears a start of what was sent, with every line
that arrived whole. -/
theorem heard_cut {frames : List (Frame floats provider)} {arrival : Arrival}
    (sent : arrival.received <+: wire frames) :
    heard floats provider (readLines arrival) <+: frames.flatMap Frame.texts ∧
      ∀ complete, complete <+: frames → wire complete <+: arrival.received →
        complete.flatMap Frame.texts <+: heard floats provider (readLines arrival) := by
  obtain ⟨ended, others, split, whole, tail⟩ := splitLines_cut (newline_not_mem frames) sent
  obtain ⟨complete, later, rfl, rfl, rfl⟩ := List.map_eq_append_iff.mp split
  have decoded : (complete.map fun frame => encode frame.line).map
      (fun line => (decodeLine line).map withoutReturn) =
        complete.map fun frame => .ok (withoutReturn frame.line) := by
    rw [List.map_map]
    refine List.map_congr_left fun frame _ => ?_
    rw [Function.comp_apply, decodeLine_encode]
    rfl
  have cut : (splitLines newline arrival.received).2 = [] ∨ ∃ frame ∈ later.head?,
      (splitLines newline arrival.received).2 <+: encode frame.line := by
    rcases tail with none | ⟨line, first, start⟩
    · exact .inl none
    · rw [List.head?_map, Option.mem_def, Option.map_eq_some_iff] at first
      obtain ⟨frame, first, rfl⟩ := first
      exact .inr ⟨frame, first, start⟩
  rw [readLines]
  dsimp only
  rw [whole, decoded, heard_frames, List.flatMap_append]
  refine ⟨(List.prefix_append_right_inj _).mpr (heard_tail arrival.failure cut), ?_⟩
  intro known start arrived
  have shorter := complete_of_arrived (newline_not_mem known) arrived whole
  have short : known.length ≤ complete.length := by simpa using shorter.length_le
  obtain ⟨rest, same⟩ := List.prefix_of_prefix_length_le start (List.prefix_append _ _) short
  rw [← same, List.flatMap_append, List.append_assoc]
  exact List.prefix_append _ _

end Wire

/-! ## Documents on lines of their own -/

section Sent

variable {floats : FloatText} {provider : String}

/-- The line of a document, as an event's data or alone. -/
def sentLine (floats : FloatText) (event : Bool) (fields : Fields) : List Char :=
  (if event then "data: ".toList else []) ++ compact floats escapeChar (.object fields)

/-- Line feeds are taken out of a text. -/
def withoutFeed (character : Char) : List Char := if character = '\n' then [] else [character]

theorem not_isSyntax_feed : ¬IsSyntax '\n' := by
  unfold IsSyntax IsNumeric
  decide

theorem withoutFeed_of_ne {character : Char} (other : character ≠ '\n') :
    withoutFeed character = [character] := if_neg other

theorem hexOf_ne_feed : ∀ digit < 16, hexOf digit ≠ '\n' := by decide

theorem feed_not_mem_escapeChar (character : Char) : '\n' ∉ escapeChar character := by
  unfold escapeChar
  dsimp only
  have feed : ('\n' : Char).toNat = 10 := rfl
  split
  · decide
  · split
    · decide
    · split_ifs with _ _ ten
      · decide
      · decide
      · decide
      · decide
      · decide
      · rename_i low
        have first := hexOf_ne_feed (character.toNat / 16) (by omega)
        have second := hexOf_ne_feed (character.toNat % 16) (by omega)
        simp [Ne.symm first, Ne.symm second]
      · intro member
        rw [← List.mem_singleton.mp member, feed] at ten
        exact ten rfl

theorem flatMap_withoutFeed {text : List Char} (absent : '\n' ∉ text) :
    text.flatMap withoutFeed = text := by
  induction text with
  | nil => rfl
  | cons character text inductionHypothesis =>
      rw [List.flatMap_cons, withoutFeed_of_ne (Ne.symm (List.ne_of_not_mem_cons absent)),
        inductionHypothesis (List.not_mem_of_not_mem_cons absent), List.singleton_append]

/-- A printed document is one line. -/
theorem feed_not_mem_compact {depth : Nat} {value : Value}
    (canonical : value.canonical depth = true) : '\n' ∉ compact floats escapeChar value := by
  have kept := @flatMap_compact floats escapeChar withoutFeed
    (fun character plain => withoutFeed_of_ne fun feed => not_isSyntax_feed (feed ▸ plain))
    depth value canonical
  have same : (fun character => (escapeChar character).flatMap withoutFeed) = escapeChar :=
    funext fun character => flatMap_withoutFeed (feed_not_mem_escapeChar character)
  rw [same] at kept
  rw [← kept, List.mem_flatMap]
  rintro ⟨character, -, member⟩
  unfold withoutFeed at member
  split at member
  · cases member
  · rename_i other
    exact other (List.mem_singleton.mp member).symm

theorem compact_object (fields : Fields) :
    compact floats escapeChar (.object fields) =
      '{' :: joinComma (compactFields floats escapeChar fields) ++ ['}'] := by
  rw [compact, List.cons_append]

theorem trim_object (before : List Char) (fields : Fields)
    (blank : ∀ character ∈ before, isWhitespace character = true) :
    trimMatches isWhitespace (before ++ compact floats escapeChar (.object fields)) =
      compact floats escapeChar (.object fields) := by
  have between := @trimMatches_between isWhitespace before
    (compact floats escapeChar (.object fields)) []
  rw [List.append_nil, List.append_nil] at between
  refine between blank ?_ ?_ ?_
  · rw [compact_object]
    exact List.cons_ne_nil _ _
  · intro character first
    rw [compact_object] at first
    cases first
    decide
  · intro character last
    rw [compact_object, List.getLast?_concat] at last
    cases last
    decide

theorem jsonData_sentLine (event : Bool) (fields : Fields) :
    jsonData (sentLine floats event fields) = compact floats escapeChar (.object fields) := by
  cases event with
  | false =>
      have unnamed : ¬"data:".toList <+: compact floats escapeChar (.object fields) := by
        rw [compact_object]
        rintro ⟨more, same⟩
        cases same
      have trimmed := @trim_object floats [] fields (by simp)
      rw [List.nil_append] at trimmed
      rw [sentLine, jsonData, if_neg Bool.false_ne_true, List.nil_append, trimmed, if_neg unnamed]
  | true =>
      have named : sentLine floats true fields = "data:".toList ++
          ([' '] ++ compact floats escapeChar (.object fields)) := rfl
      have whole : trimMatches isWhitespace (sentLine floats true fields) =
          sentLine floats true fields := by
        have between := @trimMatches_between isWhitespace [] (sentLine floats true fields) []
        rw [List.nil_append, List.append_nil] at between
        refine between (by simp) (by rw [named]; exact List.cons_ne_nil _ _) ?_ ?_
        · intro character first
          rw [named] at first
          cases first
          decide
        · intro character last
          rw [named, compact_object, ← List.append_assoc, ← List.append_assoc,
            List.getLast?_concat] at last
          cases last
          decide
      have blank : ∀ character ∈ [' '], isWhitespace character = true := by
        intro character member
        rw [List.mem_singleton.mp member]
        rfl
      have trimmed := @trim_object floats [' '] fields blank
      have starts : "data:".toList <+: sentLine floats true fields := ⟨_, named.symm⟩
      rw [jsonData, whole, if_pos starts]
      exact trimmed

theorem feed_not_mem_sentLine {fields : Fields}
    (canonical : (Value.object fields).canonical 127 = true) (event : Bool) :
    '\n' ∉ sentLine floats event fields := by
  rw [sentLine, List.mem_append, not_or]
  refine ⟨?_, feed_not_mem_compact canonical⟩
  cases event with
  | false => decide
  | true => decide

theorem parse_sentLine {fields : Fields} (canonical : (Value.object fields).canonical 127 = true)
    (event : Bool) :
    parseText floats (jsonData (sentLine floats event fields)) =
      some ((Value.object fields).mapFloats floats.reread) := by
  rw [jsonData_sentLine, parseText_compact escapes_escapeChar _ canonical]

/-- A provider's document on its line. -/
def Frame.sent (floats : FloatText) (provider : String) (event : Bool) (fields : Fields)
    (canonical : (Value.object fields).canonical 127 = true) : Frame floats provider where
  line := sentLine floats event fields
  single := feed_not_mem_sentLine canonical event
  framed := .inl ⟨_, parse_sentLine canonical event⟩

/-- It says what stands in the document. -/
theorem Frame.texts_sent (event : Bool) {fields : Fields}
    (canonical : (Value.object fields).canonical 127 = true) :
    (Frame.sent floats provider event fields canonical).texts =
      textsOf provider ((Value.object fields).mapFloats floats.reread) :=
  streamedText_of_parsed (parse_sentLine canonical event)

theorem done_silent (start : List Char) (cut : start <+: "data: [DONE]".toList) :
    streamedText floats provider start = [] := by
  have data : ∀ start ∈ "data: [DONE]".toList.inits,
      jsonData start = [] ∨ jsonData start = "[DONE]".toList ∨ jsonData start ∈ fieldStarts ∨
        jsonData start ∈ ["[".toList, "[D".toList, "[DO".toList, "[DON".toList,
          "[DONE".toList] := by
    decide +kernel
  unfold streamedText
  rcases data start ((List.mem_inits _ _).mpr cut) with empty | done | field | opened
  · exact if_pos (.inl empty)
  · exact if_pos (.inr done)
  · rw [parse_fieldStart field]
    exact ite_self _
  · have unread : parseText floats (jsonData start) = none := by
      generalize jsonData start = data at opened
      simp only [List.mem_cons, List.not_mem_nil, or_false] at opened
      rcases opened with rfl | rfl | rfl | rfl | rfl <;> rfl
    rw [unread]
    exact ite_self _

/-- The line that ends the events. -/
def Frame.done (floats : FloatText) (provider : String) : Frame floats provider where
  line := "data: [DONE]".toList
  single := by decide
  framed := .inr done_silent

end Sent

end SystemPilot.Ai
