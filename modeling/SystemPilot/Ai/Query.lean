import SystemPilot.Ai.Stream
import SystemPilot.Configuration.Settings
import SystemPilot.Json.Compact
import SystemPilot.Ui.Streamer

/-!
# A query to the provider

`query_ai_stream`: the request that is sent, and the answer as it is rendered to the
terminal while it arrives.  What the HTTP client and the terminal do are parameters; a
query shows a start of the answer's texts, whole at its end.
-/

set_option autoImplicit false

namespace SystemPilot.Ai

open SystemPilot.Text
open SystemPilot.Json
open SystemPilot.Configuration (Config)
open SystemPilot.Library.Lines
open SystemPilot.Netlink (index)
open SystemPilot.Ui (MdStreamer)

/-! ## The request -/

def reasoningSystemPrompt : String :=
  "You are the SysPilot Operating System Reasoning Agent, an expert in kernel subsystems, " ++
    "hardware architecture, program analysis, and systems performance engineering.\nYour job " ++
    "is to analyze low-level operating system telemetry, thread scheduling, memory management, " ++
    "I/O operations, performance counters, and execution stacks, and explain the underlying " ++
    "causes of the observed behavior.\nAlways seek to answer:\n1. What happened inside the " ++
    "machine?\n2. Why did it happen? What was the root cause?\n3. Which process, thread, " ++
    "function, or source code location triggered it?\n4. How did the effects propagate through " ++
    "the OS subsystems (scheduler, memory manager, VFS, block layer, network stack) and " ++
    "hardware?\n5. What was the impact on performance, latency, throughput, stability, and " ++
    "resource utilization?\n6. What specific recommendations (code modifications, " ++
    "configuration changes, architectural adjustments) will resolve the root cause?\n\nConnect " ++
    "low-level metrics to high-level software constructs.\n\nIMPORTANT TERMINAL FORMATTING " ++
    "RULES:\n1. When outputting mathematical formulas or equations, NEVER use raw LaTeX syntax " ++
    "like \\frac or \\sqrt.\n2. Instead, use user-friendly, plain-text ASCII math (e.g., (a + " ++
    "b) / c, sqrt(x)).\n3. Wrap code or math snippets in backticks (`).\n4. Keep explanations " ++
    "concise, clear, and highly technical.\n5. Clearly label observations, hypotheses, " ++
    "confidence, and recommended next steps.\n6. Never invent telemetry, commands, files, or " ++
    "source locations. If evidence is missing, say what is missing and how to collect it.\n7. " ++
    "Prefer safe, reversible checks before disruptive remediation."

structure Request where
  url : String
  headers : List (String × String)
  payload : List Char
  connectTimeoutSeconds : Nat
  timeoutSeconds : Nat
  deriving DecidableEq

def geminiPayload (prompt : String) : Value :=
  .object [
    ("contents", .array [.object [("parts", .array [.object [("text", .string prompt)]])]]),
    ("systemInstruction",
      .object [("parts", .array [.object [("text", .string reasoningSystemPrompt)]])])]

def chatMessage (role content : String) : Value :=
  .object [("content", .string content), ("role", .string role)]

/-- The payload of Ollama and of SysPilot. -/
def chatPayload (model prompt : String) : Value :=
  .object [
    ("messages", .array [chatMessage "system" reasoningSystemPrompt, chatMessage "user" prompt]),
    ("model", .string model),
    ("stream", .bool true)]

/-- The model that is asked for where the configured one is no explicit name. -/
def geminiModel (config : Config) : String :=
  if config.geminiModel = "" || config.geminiModel = "gemini" ||
      ('/' ∉ config.geminiModel.toList && '-' ∉ config.geminiModel.toList) then
    "gemini-3.6-flash"
  else config.geminiModel

/-- `header.split_once(':')`, both parts trimmed. -/
def splitHeader (header : String) : Option (String × String) :=
  let name := header.toList.takeWhile (· ≠ ':')
  match header.toList.drop name.length with
  | [] => none
  | _ :: value =>
      some (String.ofList (trimMatches isWhitespace name),
        String.ofList (trimMatches isWhitespace value))

section Query

variable (floats : FloatText)

/-- The request, or what is printed in its place. -/
def requestOf (config : Config) (prompt : String) : Except String Request :=
  let request := fun url headers payload =>
    (⟨url, headers.filterMap splitHeader, compact floats escapeChar payload,
      config.aiConnectTimeoutSeconds, config.aiRequestTimeoutSeconds⟩ : Request)
  if config.activeProvider = "disabled" then
    .error ("❌ AI explanations are disabled. Offline diagnostics remain available; " ++
      "run `syspilot provider <gemini|ollama|syspilot>` to enable them.")
  else if config.activeProvider = "gemini" then
    if config.geminiApiKey = "" then
      .error "❌ Gemini API key is not set. Run `syspilot config set-key gemini YOUR_KEY`"
    else
      .ok (request ("https://generativelanguage.googleapis.com/v1beta/models/" ++
          geminiModel config ++ ":streamGenerateContent?alt=sse")
        ["x-goog-api-key: " ++ config.geminiApiKey] (geminiPayload prompt))
  else if config.activeProvider = "ollama" then
    .ok (request (config.ollamaUrl ++ "/api/chat") [] (chatPayload config.ollamaModel prompt))
  else if config.activeProvider = "syspilot" then
    if config.syspilotApiKey = "" then
      .error "❌ SysPilot API key is not set. Run `syspilot config set-key syspilot YOUR_KEY`"
    else
      .ok (request config.syspilotUrl ["Authorization: Bearer " ++ config.syspilotApiKey]
        (chatPayload config.syspilotModel prompt))
  else .error ("❌ Unknown AI provider: " ++ config.activeProvider)

/-- What comes of a request: the client that could not be made, an error of sending, or a
status with its canonical reason and what arrives of the body. -/
inductive Reply where
  | noClient (error : String)
  | unsent (timeout connect : Bool) (error : String)
  | answered (status : Nat) (canonicalReason : Option String) (body : Arrival)

/-! ## The terminal -/

/-- How each write of standard output goes: whole, or so many bytes and an error. -/
abbrev Terminal := Nat → Option (Nat × String)

def Terminal.Works (terminal : Terminal) : Prop := ∀ write, terminal write = none

structure Session where
  streamer : MdStreamer
  writes : Nat
  shown : List UInt8

/-- `write_all` and `flush`, with the error they end in. -/
def Session.write (terminal : Terminal) (session : Session) (out : List Char) :
    Session × Option String :=
  match terminal session.writes with
  | none =>
      ({ session with writes := session.writes + 1, shown := session.shown ++ encode out }, none)
  | some (written, error) =>
      ({ session with
          writes := session.writes + 1
          shown := session.shown ++ (encode out).take written }, some error)

def Session.tryPrint (terminal : Terminal) (session : Session) (text : String) :
    Session × Option String :=
  let (streamer, out) := session.streamer.renderChunk text.toList
  { session with streamer }.write terminal out

def Session.tryFlush (terminal : Terminal) (session : Session) : Session × Option String :=
  let (streamer, out) := session.streamer.finish
  { session with streamer }.write terminal out

def Session.printTexts (terminal : Terminal) (session : Session) :
    List String → Session × Option String
  | [] => (session, none)
  | text :: texts =>
      match session.tryPrint terminal text with
      | (next, some error) => (next, some error)
      | (next, none) => next.printTexts terminal texts

/-! ## The answer -/

/-- The loop's end: whether content was received, and the message it returned with. -/
structure Streamed where
  session : Session
  receivedContent : Bool
  message : Option String

def streamLines (provider : String) (terminal : Terminal) (session : Session)
    (receivedContent : Bool) : List (Except String (List Char)) → Streamed
  | [] => ⟨session, receivedContent, none⟩
  | .error error :: _ =>
      ⟨session, receivedContent, some ("❌ AI response stream failed: " ++ error)⟩
  | .ok line :: lines =>
      let texts := streamedText floats provider line
      match session.printTexts terminal texts with
      | (next, some error) =>
          ⟨next, true,
            some ("❌ Terminal output failed while streaming AI response: " ++ error)⟩
      | (next, none) => streamLines provider terminal next (receivedContent || !texts.isEmpty) lines

/-- What a query leaves: the bytes shown, the messages, and what it returned, none where
`println!` panicked. -/
structure Queried where
  shown : List UInt8
  stderr : List String
  returned : Option Bool

def streamAnswer (provider : String) (terminal : Terminal) (arrival : Arrival) : Queried :=
  let streamed := streamLines floats provider terminal ⟨MdStreamer.new, 0, []⟩ false
    (readLines arrival)
  match streamed.message with
  | some message => ⟨streamed.session.shown, [message], some false⟩
  | none =>
      match streamed.session.tryFlush terminal with
      | (session, some error) =>
          ⟨session.shown, ["❌ Terminal output flush failed: " ++ error], some false⟩
      | (session, none) =>
          match session.write terminal ['\n'] with
          | (session, some _) => ⟨session.shown, [], none⟩
          | (session, none) =>
              if streamed.receivedContent then ⟨session.shown, [], some true⟩
              else
                ⟨session.shown, ["❌ AI provider returned no usable streamed content."], some false⟩

/-! ## Refusals -/

def providerErrorMessage (body : String) : Option String :=
  (parseText floats (jsonData body.toList)).bind fun value =>
    (index (index value "error") "message").asString.or (index value "message").asString

/-- `read_to_string`: what was read stays where it is text. -/
def readToString (arrival : Arrival) : String × Option String :=
  match fromUtf8 arrival.received with
  | some body => (body, arrival.failure)
  | none => ("", some (arrival.failure.getD "stream did not contain valid UTF-8"))

def refusal (provider : String) (status : Nat) (canonicalReason : Option String)
    (arrival : Arrival) : Queried :=
  let (body, failure) := readToString arrival
  let message := (providerErrorMessage floats body).getD (String.ofList (trim body))
  ⟨[], (failure.map fun error =>
      "❌ Could not read AI provider error response: " ++ error).toList ++
    ["❌ AI provider returned HTTP " ++ toString status ++ ": " ++
      if message = "" then canonicalReason.getD "request failed" else message] ++
    (if status = 404 ∧ provider = "gemini" then
      ["   The configured Gemini model may not exist. Run: syspilot model gemini-3.6-flash"]
    else []), some false⟩

def queryAiStream (transport : Request → Reply) (terminal : Terminal) (config : Config)
    (prompt : String) : Queried :=
  match requestOf floats config prompt with
  | .error message => ⟨[], [message], some false⟩
  | .ok request =>
      match transport request with
      | .noClient error =>
          ⟨[], ["❌ Could not initialize the AI HTTP client: " ++ error], some false⟩
      | .unsent timeout connect error =>
          let kind := if timeout then "timed out" else if connect then "could not connect"
            else "failed"
          ⟨[], ["❌ AI request " ++ kind ++ ": " ++ error], some false⟩
      | .answered status canonicalReason body =>
          if 200 ≤ status ∧ status < 300 then
            streamAnswer floats config.activeProvider terminal body
          else refusal floats config.activeProvider status canonicalReason body

end Query

/-! ## What has been shown -/

/-- The renderer and its output after some texts. -/
def rendering (said : List String) : MdStreamer × List Char :=
  MdStreamer.new.renderFrom (said.map String.toList)

/-- The session has shown the texts, and nothing else. -/
structure Session.Speaks (session : Session) (said : List String) : Prop where
  streamer : session.streamer = (rendering said).1
  shown : session.shown = encode (rendering said).2

section Shown

variable {terminal : Terminal} {session : Session} {said : List String}

theorem renderFrom_append (streamer : MdStreamer) (first second : List (List Char)) :
    streamer.renderFrom (first ++ second) =
      (((streamer.renderFrom first).1.renderFrom second).1,
        (streamer.renderFrom first).2 ++ ((streamer.renderFrom first).1.renderFrom second).2) := by
  induction first generalizing streamer with
  | nil => rfl
  | cons input first inductionHypothesis =>
      rw [List.cons_append, MdStreamer.renderFrom, MdStreamer.renderFrom]
      dsimp only
      rw [inductionHypothesis, List.append_assoc]

theorem rendering_append (said texts : List String) :
    rendering (said ++ texts) =
      (((rendering said).1.renderFrom (texts.map String.toList)).1,
        (rendering said).2 ++ ((rendering said).1.renderFrom (texts.map String.toList)).2) := by
  rw [rendering, List.map_append]
  exact renderFrom_append _ _ _

theorem rendering_concat (said : List String) (text : String) :
    rendering (said ++ [text]) =
      (((rendering said).1.renderChunk text.toList).1,
        (rendering said).2 ++ ((rendering said).1.renderChunk text.toList).2) := by
  rw [rendering_append]
  simp [MdStreamer.renderFrom]

theorem renderChunks_rendering (said : List String) :
    MdStreamer.renderChunks (said.map String.toList) =
      (rendering said).2 ++ (rendering said).1.finish.2 := rfl

/-- A write shows its bytes, or a start of them where it fails. -/
theorem write_spec (terminal : Terminal) (session : Session) (out : List Char) :
    (session.write terminal out).1.streamer = session.streamer ∧
      (session.write terminal out).1.shown <+: session.shown ++ encode out ∧
        ((session.write terminal out).2 = none →
          (session.write terminal out).1.shown = session.shown ++ encode out) ∧
          (terminal.Works → (session.write terminal out).2 = none) := by
  unfold Session.write
  split
  · exact ⟨rfl, List.prefix_refl _, fun _ => rfl, fun _ => rfl⟩
  · rename_i written error failed
    refine ⟨rfl, ?_, fun whole => ?_, fun works => ?_⟩
    · exact (List.prefix_append_right_inj _).mpr (List.take_prefix written _)
    · cases whole
    · rw [works] at failed
      cases failed

theorem tryPrint_spec (speaks : session.Speaks said) (text : String) :
    (session.tryPrint terminal text).1.shown <+: encode (rendering (said ++ [text])).2 ∧
      ((session.tryPrint terminal text).2 = none →
        (session.tryPrint terminal text).1.Speaks (said ++ [text])) ∧
        (terminal.Works → (session.tryPrint terminal text).2 = none) := by
  have written := write_spec terminal
    { session with streamer := (session.streamer.renderChunk text.toList).1 }
    (session.streamer.renderChunk text.toList).2
  obtain ⟨kept, within, whole, works⟩ := written
  rw [Session.tryPrint, rendering_concat, encode_append, ← speaks.shown, ← speaks.streamer]
  refine ⟨within, fun done => ⟨?_, ?_⟩, works⟩
  · rw [rendering_concat, ← speaks.streamer]
    exact kept
  · rw [rendering_concat, encode_append, ← speaks.shown, ← speaks.streamer]
    exact whole done

/-- What printing some texts shows: a start of them, all where no write failed. -/
theorem printTexts_spec (speaks : session.Speaks said) (texts : List String) :
    ∃ spoken, spoken <+: texts ∧
      (session.printTexts terminal texts).1.shown <+: encode (rendering (said ++ spoken)).2 ∧
        ((session.printTexts terminal texts).2 = none →
          (session.printTexts terminal texts).1.Speaks (said ++ texts)) ∧
          (terminal.Works → (session.printTexts terminal texts).2 = none) := by
  induction texts generalizing session said with
  | nil =>
      refine ⟨[], List.prefix_refl _, ?_, fun _ => ?_, fun _ => rfl⟩
      · rw [List.append_nil, Session.printTexts, speaks.shown]
      · rw [List.append_nil]
        exact speaks
  | cons text texts inductionHypothesis =>
      obtain ⟨within, whole, works⟩ := @tryPrint_spec terminal _ _ speaks text
      rw [Session.printTexts]
      generalize session.tryPrint terminal text = printed at within whole works
      obtain ⟨next, failure⟩ := printed
      cases failure with
      | some error =>
          refine ⟨[text], ?_, within, fun done => ?_, works⟩
          · exact List.cons_prefix_cons.mpr ⟨rfl, List.nil_prefix⟩
          · cases done
      | none =>
          obtain ⟨spoken, start, shown, later⟩ := inductionHypothesis (whole rfl)
          rw [List.append_assoc] at shown
          rw [List.append_assoc] at later
          exact ⟨text :: spoken, List.cons_prefix_cons.mpr ⟨rfl, start⟩, shown, later⟩

theorem tryFlush_spec (speaks : session.Speaks said) :
    let rendered := MdStreamer.renderChunks (said.map String.toList)
    (session.tryFlush terminal).1.shown <+: encode rendered ∧
      ((session.tryFlush terminal).2 = none →
        (session.tryFlush terminal).1.shown = encode rendered) ∧
        (terminal.Works → (session.tryFlush terminal).2 = none) := by
  obtain ⟨-, within, whole, works⟩ := write_spec terminal
    { session with streamer := session.streamer.finish.1 } session.streamer.finish.2
  dsimp only
  rw [renderChunks_rendering, encode_append, ← speaks.shown, ← speaks.streamer]
  exact ⟨within, whole, works⟩

end Shown

/-! ## The whole answer -/

section Answer

variable {floats : FloatText} {provider : String} {terminal : Terminal} {said : List String}

/-- What the loop leaves: it shows a start of what it hears, and all of it where it ends
without a message. -/
theorem streamLines_spec {session : Session} (speaks : session.Speaks said) (received : Bool)
    (reads : List (Except String (List Char))) :
    let streamed := streamLines floats provider terminal session received reads
    ∃ spoken, spoken <+: heard floats provider reads ∧
      streamed.session.shown <+: encode (rendering (said ++ spoken)).2 ∧
        (streamed.message = none → (∀ error, .error error ∉ reads) ∧
          streamed.receivedContent = (received || !(heard floats provider reads).isEmpty)) ∧
          (streamed.message = none ∨ terminal.Works →
            streamed.session.Speaks (said ++ heard floats provider reads)) ∧
            (terminal.Works → (∀ error, .error error ∉ reads) → streamed.message = none) := by
  induction reads generalizing session said received with
  | nil =>
      refine ⟨[], List.prefix_refl _, ?_, fun _ => ?_, fun _ => ?_, fun _ _ => rfl⟩
      · rw [List.append_nil, streamLines, speaks.shown]
      · exact ⟨fun _ => List.not_mem_nil, (Bool.or_false received).symm⟩
      · rw [heard, List.append_nil]
        exact speaks
  | cons read reads inductionHypothesis =>
      cases read with
      | error error =>
          refine ⟨[], List.prefix_refl _, ?_, fun ended => ?_, fun _ => ?_, fun _ clean => ?_⟩
          · rw [List.append_nil, streamLines, speaks.shown]
          · cases ended
          · rw [heard, List.append_nil]
            exact speaks
          · exact absurd List.mem_cons_self (clean error)
      | ok line =>
          obtain ⟨spoken, start, within, whole, works⟩ :=
            @printTexts_spec terminal _ _ speaks (streamedText floats provider line)
          rw [streamLines, heard]
          dsimp only
          generalize session.printTexts terminal _ = printed at within whole works
          obtain ⟨next, failure⟩ := printed
          cases failure with
          | some error =>
              refine ⟨spoken, start.trans (List.prefix_append _ _), within, ?_, ?_, ?_⟩
              · intro ended
                cases ended
              · intro healthy
                rcases healthy with ended | healthy
                · cases ended
                · cases works healthy
              · intro healthy
                cases works healthy
          | none =>
              obtain ⟨later, begun, shown, ended, speaking, clean⟩ := inductionHypothesis
                (whole rfl) (received || !(streamedText floats provider line).isEmpty)
              rw [List.append_assoc] at shown speaking
              refine ⟨streamedText floats provider line ++ later, ?_, shown, ?_, speaking, ?_⟩
              · exact (List.prefix_append_right_inj _).mpr begun
              · intro done
                obtain ⟨unfailed, content⟩ := ended done
                refine ⟨fun error member => ?_, ?_⟩
                · exact unfailed error (List.mem_of_ne_of_mem (by simp) member)
                · rw [content]
                  cases streamedText floats provider line with
                  | nil => rw [List.isEmpty_nil, Bool.not_true, Bool.or_false, List.nil_append]
                  | cons text texts => simp
              · intro healthy unfailed
                exact clean healthy fun error member =>
                  unfailed error (List.mem_cons_of_mem _ member)

/-- What a query shows of the lines a provider sent, once their stream is read: the
rendering of a start of their texts, or a part of it where the terminal failed. -/
structure Shows (terminal : Terminal) (frames : List (Frame floats provider)) (arrival : Arrival)
    (queried : Queried) (said : List String) : Prop where
  texts : said <+: frames.flatMap Frame.texts
  shown : queried.shown <+: encode (MdStreamer.renderChunks (said.map String.toList) ++ ['\n'])
  answered : queried.returned = some true → said ≠ [] ∧ arrival.failure = none ∧
    queried.shown = encode (MdStreamer.renderChunks (said.map String.toList) ++ ['\n'])
  explained : queried.returned = some false → queried.stderr ≠ []
  arrived : terminal.Works → encode (rendering said).2 <+: queried.shown ∧
    ∀ complete, complete <+: frames → wire complete <+: arrival.received →
      complete.flatMap Frame.texts <+: said
  whole : terminal.Works → arrival.failure = none → arrival.received = wire frames →
    said = frames.flatMap Frame.texts ∧ queried.returned = some !said.isEmpty

theorem error_of_failure {arrival : Arrival} {reason : String}
    (failed : arrival.failure = some reason) : .error reason ∈ readLines arrival := by
  rw [readLines, failed]
  exact List.mem_append_right _ (List.mem_singleton_self _)

theorem readLines_wire {arrival : Arrival} {frames : List (Frame floats provider)}
    (ended : arrival.failure = none) (whole : arrival.received = wire frames) :
    readLines arrival = frames.map fun frame => .ok (withoutReturn frame.line) := by
  have split := splitLines_joined (newline_not_mem frames) []
  rw [List.append_nil, splitLines, List.append_nil] at split
  rw [readLines, whole, ended, wire, split]
  dsimp only
  rw [if_pos rfl, List.append_nil, List.map_map]
  refine List.map_congr_left fun frame _ => ?_
  rw [Function.comp_apply, decodeLine_encode]
  rfl

theorem speaks_new : (⟨MdStreamer.new, 0, []⟩ : Session).Speaks [] := ⟨rfl, rfl⟩

/-- The rendering of some texts is shown before their end is. -/
theorem rendering_prefix_end (said : List String) :
    encode (rendering said).2 <+:
      encode (MdStreamer.renderChunks (said.map String.toList) ++ ['\n']) := by
  rw [renderChunks_rendering, List.append_assoc, encode_append]
  exact List.prefix_append _ _

/-- A loop that returned early: the terminal or the stream failed. -/
theorem shows_of_message {frames : List (Frame floats provider)} {arrival : Arrival}
    (sent : arrival.received <+: wire frames) {message : String}
    (left : (streamLines floats provider terminal ⟨MdStreamer.new, 0, []⟩ false
      (readLines arrival)).message = some message) :
    ∃ said, Shows terminal frames arrival (streamAnswer floats provider terminal arrival) said := by
  obtain ⟨within, complete⟩ := heard_cut sent
  obtain ⟨spoken, start, shown, -, speaking, clean⟩ :=
    @streamLines_spec floats provider terminal _ _ speaks_new false (readLines arrival)
  rw [List.nil_append] at shown speaking
  have unwhole : terminal.Works → arrival.failure = none → arrival.received ≠ wire frames := by
    intro healthy ended whole
    rw [clean healthy ?_] at left
    · cases left
    · intro error member
      rw [readLines_wire ended whole] at member
      obtain ⟨frame, -, impossible⟩ := List.mem_map.mp member
      cases impossible
  rw [streamAnswer, left]
  by_cases healthy : terminal.Works
  · have rendered := (speaking (.inr healthy)).shown
    refine ⟨heard floats provider (readLines arrival), within, ?_, ?_, ?_, ?_, ?_⟩
    · rw [rendered]
      exact rendering_prefix_end _
    · intro answered
      cases answered
    · intro _
      exact List.cons_ne_nil _ _
    · intro _
      rw [rendered]
      exact ⟨List.prefix_refl _, complete⟩
    · intro _ ended whole
      exact absurd whole (unwhole healthy ended)
  · refine ⟨spoken, start.trans within, shown.trans (rendering_prefix_end _), ?_, ?_, ?_, ?_⟩
    · intro answered
      cases answered
    · intro _
      exact List.cons_ne_nil _ _
    · intro works
      exact absurd works healthy
    · intro works
      exact absurd works healthy

/-- A loop that came to the end of the stream. -/
theorem shows_of_end {frames : List (Frame floats provider)} {arrival : Arrival}
    (sent : arrival.received <+: wire frames)
    (done : (streamLines floats provider terminal ⟨MdStreamer.new, 0, []⟩ false
      (readLines arrival)).message = none) :
    ∃ said, Shows terminal frames arrival (streamAnswer floats provider terminal arrival) said := by
  obtain ⟨within, complete⟩ := heard_cut sent
  obtain ⟨-, -, -, ended, speaking, -⟩ :=
    @streamLines_spec floats provider terminal _ _ speaks_new false (readLines arrival)
  obtain ⟨unfailed, content⟩ := ended done
  have speaks := speaking (.inl done)
  rw [List.nil_append] at speaks
  rw [Bool.false_or] at content
  have failed : arrival.failure = none := by
    cases reason : arrival.failure with
    | none => rfl
    | some reason => exact absurd (error_of_failure reason) (unfailed _)
  have everything : arrival.received = wire frames →
      heard floats provider (readLines arrival) = frames.flatMap Frame.texts := by
    intro whole
    have all := complete frames (List.prefix_refl _) (by rw [whole])
    exact within.eq_of_length_le all.length_le
  refine ⟨heard floats provider (readLines arrival), ?_⟩
  rw [streamAnswer, done, content]
  dsimp only
  obtain ⟨flushing, flushed, works⟩ := @tryFlush_spec terminal _ _ speaks
  generalize Session.tryFlush terminal _ = flush at flushing flushed works
  obtain ⟨session, failure⟩ := flush
  cases failure with
  | some error =>
      refine ⟨within, ?_, ?_, ?_, ?_, ?_⟩
      · rw [encode_append]
        exact flushing.trans (List.prefix_append _ _)
      · intro answered
        cases answered
      · intro _
        exact List.cons_ne_nil _ _
      · intro healthy
        cases works healthy
      · intro healthy
        cases works healthy
  | none =>
      obtain ⟨-, ending, endedLine, printed⟩ := write_spec terminal session ['\n']
      dsimp only
      rw [flushed rfl, ← encode_append] at ending endedLine
      generalize session.write terminal ['\n'] = last at ending endedLine printed
      obtain ⟨final, failure⟩ := last
      cases failure with
      | some error =>
          refine ⟨within, ending, ?_, ?_, ?_, ?_⟩
          · intro answered
            cases answered
          · intro returned
            cases returned
          · intro healthy
            cases printed healthy
          · intro healthy
            cases printed healthy
      | none =>
          have shown := endedLine rfl
          dsimp only at shown ⊢
          have said := rendering_prefix_end (heard floats provider (readLines arrival))
          rw [← shown] at said
          split
          · rename_i content
            refine ⟨within, ending, ?_, ?_, ?_, ?_⟩
            · intro _
              refine ⟨?_, failed, shown⟩
              intro none
              rw [none] at content
              cases content
            · intro returned
              cases returned
            · intro _
              exact ⟨said, complete⟩
            · intro _ _ whole
              refine ⟨everything whole, ?_⟩
              rw [content]
          · rename_i silent
            refine ⟨within, ending, ?_, ?_, ?_, ?_⟩
            · intro answered
              cases answered
            · intro _
              exact List.cons_ne_nil _ _
            · intro _
              exact ⟨said, complete⟩
            · intro _ _ whole
              refine ⟨everything whole, ?_⟩
              rw [Bool.eq_false_iff.mpr silent]

theorem streamAnswer_shows {frames : List (Frame floats provider)} {arrival : Arrival}
    (sent : arrival.received <+: wire frames) :
    ∃ said, Shows terminal frames arrival (streamAnswer floats provider terminal arrival) said := by
  cases ended : (streamLines floats provider terminal ⟨MdStreamer.new, 0, []⟩ false
    (readLines arrival)).message with
  | some message => exact shows_of_message sent ended
  | none => exact shows_of_end sent ended

/-- The stream a query reads, where its request is answered by one. -/
def streamOf (floats : FloatText) (transport : Request → Reply) (config : Config)
    (prompt : String) : Option Arrival :=
  match requestOf floats config prompt with
  | .error _ => none
  | .ok request =>
      match transport request with
      | .answered status _ body => if 200 ≤ status ∧ status < 300 then some body else none
      | _ => none

theorem queryAiStream_of_streamOf {transport : Request → Reply} {config : Config}
    {prompt : String} {arrival : Arrival}
    (read : streamOf floats transport config prompt = some arrival) :
    queryAiStream floats transport terminal config prompt =
      streamAnswer floats config.activeProvider terminal arrival := by
  unfold streamOf at read
  unfold queryAiStream
  cases asked : requestOf floats config prompt with
  | error message =>
      rw [asked] at read
      cases read
  | ok request =>
      rw [asked] at read
      dsimp only at read ⊢
      cases reply : transport request with
      | noClient error =>
          rw [reply] at read
          cases read
      | unsent timeout connect error =>
          rw [reply] at read
          cases read
      | answered status canonicalReason body =>
          rw [reply] at read
          dsimp only at read ⊢
          split at read
          · rename_i success
            rw [if_pos success, Option.some.inj read]
          · cases read

/-- Without a stream nothing is shown, and a message says why. -/
theorem queryAiStream_of_none {transport : Request → Reply} {config : Config}
    {prompt : String} (unread : streamOf floats transport config prompt = none) :
    let queried := queryAiStream floats transport terminal config prompt
    queried.shown = [] ∧ queried.returned = some false ∧ queried.stderr ≠ [] := by
  unfold streamOf at unread
  unfold queryAiStream
  cases asked : requestOf floats config prompt with
  | error message => exact ⟨rfl, rfl, List.cons_ne_nil _ _⟩
  | ok request =>
      rw [asked] at unread
      dsimp only at unread ⊢
      cases reply : transport request with
      | noClient error => exact ⟨rfl, rfl, List.cons_ne_nil _ _⟩
      | unsent timeout connect error => exact ⟨rfl, rfl, List.cons_ne_nil _ _⟩
      | answered status canonicalReason body =>
          rw [reply] at unread
          dsimp only at unread ⊢
          split at unread
          · cases unread
          · rename_i refused
            rw [if_neg refused]
            refine ⟨rfl, rfl, ?_⟩
            rw [refusal]
            simp

/-- An answer in two documents. -/
def twoFrames : List (Frame bitFloats "ollama") :=
  [.sent _ _ false [("response", .string "hel")] (by decide),
    .sent _ _ false [("response", .string "lo")] (by decide)]

/-- A response that ends within its second document. -/
def cutArrival : Arrival := ⟨(wire twoFrames).take 30, none⟩

theorem streamOf_cutArrival :
    streamOf bitFloats (fun _ => .answered 200 (some "OK") cutArrival)
      { activeProvider := "ollama" } "why" = some cutArrival := rfl

end Answer

end SystemPilot.Ai
