import SystemPilot.Json.Refusal
import SystemPilot.Agent.RecordEvent

/-!
# The daemon socket

`handle_client` writes its responses by hand, with an escaping of its own, and
the client reads them with a JSON parser.  The response to a known request reads
back as the table or the queue it was made of exactly when no name and no reason
in it has a control character; the response to an unknown one is JSON exactly
when the name of the request closes the message it is put into.
-/

set_option autoImplicit false

namespace SystemPilot.Netlink

open SystemPilot.Json
open SystemPilot.Text
open SystemPilot.Telemetry
open SystemPilot.Cloud (integerValue optionalText)

/-! ## The daemon -/

/-- `str::replace` of one character. -/
def replaceChar (pattern : Char) (replacement text : List Char) : List Char :=
  text.flatMap fun character => if character = pattern then replacement else [character]

def jsonEscape (text : String) : String :=
  String.ofList (replaceChar '"' ['\\', '"'] (replaceChar '\\' ['\\', '\\'] text.toList))

/-- The object of one process. -/
def processJson (node : ProcessNode) : String :=
  "\x7b\"pid\":" ++ toString node.pid ++ ",\"ppid\":" ++ toString node.ppid ++
    ",\"name\":\"" ++ jsonEscape node.name ++ "\",\"state\":\"" ++ node.state.toString ++ "\"\x7d"

/-- `build_process_tree_json`, from the processes in the order of the iterator. -/
def buildProcessTreeJson (tree : List ProcessNode) : String :=
  "\x7b\"status\":\"ok\",\"processes\":[" ++ ",".intercalate (tree.map processJson) ++ "]\x7d"

/-- The object of one event. -/
def eventJson (event : ProcessEvent) : String :=
  "\x7b\"time\":" ++ toString event.timestampNs ++ ",\"type\":\"" ++ event.eventType ++
    "\",\"pid\":" ++ toString event.pid ++ ",\"ppid\":" ++ toString event.ppid ++
    ",\"name\":\"" ++ jsonEscape event.name ++
    "\",\"exit_status\":" ++ (event.exitStatus.map toString).getD "null" ++
    ",\"parent_exit_signal\":" ++ (event.parentExitSignal.map toString).getD "null" ++
    ",\"reason\":" ++
      (event.exitReason.map fun reason => "\"" ++ jsonEscape reason ++ "\"").getD "null" ++ "\x7d"

/-- `build_events_json`, of the events it takes from the queue. -/
def buildEventsJson (events : List ProcessEvent) : String :=
  "\x7b\"status\":\"ok\",\"events\":[" ++ ",".intercalate (events.map eventJson) ++ "]\x7d"

section Socket

variable (floats : FloatText)

/-- The `request` of a document, if the text is one. -/
def requestName (request : String) : Option String :=
  (parseText floats request.toList).map fun document =>
    match document with
    | .object fields => ((Fields.get fields "request").bind Value.asString).getD ""
    | _ => ""

/-- `handle_client` after its read: the response, and the events left in the
queue. -/
def handleClient (tree : List ProcessNode) (queued : List ProcessEvent) (request : String) :
    String × List ProcessEvent :=
  match requestName floats request with
  | some name =>
      if name = "process_tree" then (buildProcessTreeJson tree, queued)
      else if name = "events" then (buildEventsJson queued, [])
      else ("\x7b\"status\":\"error\",\"message\":\"unknown: " ++ name ++ "\"\x7d", queued)
  | none => ("\x7b\"status\":\"error\",\"message\":\"invalid json\"\x7d", queued)

/-! ## The client -/

/-- `decode_response`; `explain` is what `serde_json` says about a text it
refuses. -/
def decodeResponse (explain : String → String) (response : String) : AppResult Value :=
  if isBlank response then .error (.protocol "daemon returned an empty response")
  else
    match parseText floats response.toList with
    | some value => .ok value
    | none => .error (.protocol ("malformed daemon response: " ++ explain response))

/-- `value[key]`. -/
def index (value : Value) (key : String) : Value :=
  match value with
  | .object fields => (Fields.get fields key).getD .null
  | _ => .null

def validateTypedResponse (value : Value) (collection : String) : AppResult Value :=
  if (index value "status").asString ≠ some "ok" then
    .error (.protocol ("daemon rejected request: " ++
      (index value "message").asString.getD "unknown daemon error"))
  else
    match index value collection with
    | .array _ => .ok value
    | _ => .error (.protocol ("daemon response is missing " ++ collection ++ " array"))

/-! ## Escaped names -/

/-- No character of the text is below the space. -/
def NoControl (text : String) : Prop := ∀ character ∈ text.toList, 0x20 ≤ character.toNat

instance (text : String) : Decidable (NoControl text) :=
  List.decidableBAll _ _

/-- What `json_escape` makes of one character. -/
def escaped (character : Char) : List Char :=
  if character = '"' then ['\\', '"']
  else if character = '\\' then ['\\', '\\']
  else [character]

theorem jsonEscape_toList (text : String) :
    (jsonEscape text).toList = text.toList.flatMap escaped := by
  rw [jsonEscape, String.toList_ofList, replaceChar, replaceChar, List.flatMap_assoc]
  congr 1
  funext character
  by_cases backslash : character = '\\'
  · subst backslash
    rfl
  · rw [if_neg backslash, List.flatMap_singleton, escaped, if_neg backslash]

theorem parseString_escaped_char (fuel : Nat) (character : Char) (rest : List Char)
    (printable : 0x20 ≤ character.toNat) :
    parseString (fuel + 1) (escaped character ++ rest) =
      (parseString fuel rest).map fun parsed => (character :: parsed.1, parsed.2) := by
  unfold escaped
  split
  · rename_i quote
    exact parseString_escaped fuel ['"'] rest rest character (by rw [quote]; rfl)
  · rename_i quote
    split
    · rename_i backslash
      exact parseString_escaped fuel ['\\'] rest rest character (by rw [backslash]; rfl)
    · rename_i backslash
      exact parseString_plain fuel character rest quote backslash printable

/-- A control character is put into the string as it is, and ends the parse. -/
theorem parseString_control (fuel : Nat) {character : Char} (rest : List Char)
    (control : character.toNat < 0x20) :
    parseString fuel (escaped character ++ rest) = none := by
  have plain : escaped character = [character] := by
    unfold escaped
    rw [if_neg, if_neg]
    · rintro rfl
      revert control
      decide
    · rintro rfl
      revert control
      decide
  rw [plain, List.singleton_append]
  cases fuel with
  | zero => rw [parseString]
  | succ fuel =>
      rw [parseString, if_neg, if_neg, if_pos control]
      · rintro rfl
        revert control
        decide
      · rintro rfl
        revert control
        decide

theorem readsString_escape {text : String} (printable : NoControl text) :
    ReadsString ((jsonEscape text).toList ++ ['"']) text.toList := by
  rw [jsonEscape_toList]
  unfold NoControl at printable
  generalize text.toList = characters at printable
  induction characters with
  | nil =>
      intro fuel rest enough
      obtain ⟨fuel, rfl⟩ := Nat.exists_eq_succ_of_ne_zero
        (Nat.ne_of_gt (Nat.lt_of_lt_of_le (by simp) enough))
      rfl
  | cons character characters inductionHypothesis =>
      have later := inductionHypothesis fun other member => printable other (by simp [member])
      have first := printable character (by simp)
      intro fuel rest enough
      have positive : 0 < (escaped character).length := by
        unfold escaped
        split_ifs <;> simp
      rw [List.flatMap_cons, List.append_assoc, List.length_append] at enough
      obtain ⟨fuel, rfl⟩ := Nat.exists_eq_succ_of_ne_zero (by omega : fuel ≠ 0)
      rw [List.flatMap_cons, List.append_assoc, List.append_assoc,
        parseString_escaped_char fuel character _ first, ← List.append_assoc,
        later fuel rest (by omega)]
      rfl

theorem refusesString_escape {text : String} (control : ¬NoControl text) (after : List Char) :
    RefusesString ((jsonEscape text).toList ++ after) := by
  rw [jsonEscape_toList]
  unfold NoControl at control
  generalize text.toList = characters at control
  intro fuel rest
  induction characters generalizing fuel with
  | nil => exact absurd (by simp) control
  | cons character characters inductionHypothesis =>
      rw [List.flatMap_cons, List.append_assoc, List.append_assoc]
      by_cases printable : 0x20 ≤ character.toNat
      · cases fuel with
        | zero => rw [parseString]
        | succ fuel =>
            rw [parseString_escaped_char fuel character _ printable, ← List.append_assoc,
              inductionHypothesis, Option.map_none]
            intro others
            apply control
            intro other member
            rcases List.mem_cons.mp member with rfl | later
            · exact printable
            · exact others other later
      · exact parseString_control fuel _ (by omega)

/-! ## One process and one event -/

variable {floats}

/-- The integers of the node are of the widths of its fields, and it is marked as
every node is. -/
structure ProcessNode.Tracked (node : ProcessNode) : Prop where
  pid : -(2 ^ 31) ≤ node.pid ∧ node.pid < 2 ^ 31
  ppid : -(2 ^ 31) ≤ node.ppid ∧ node.ppid < 2 ^ 31
  state : node.state = 'S'

/-- The integers of the event are of the widths of its fields, and it has one of
the three types. -/
structure ProcessEvent.Tracked (event : ProcessEvent) : Prop where
  time : event.timestampNs < 2 ^ 64
  type : event.eventType = "FORK" ∨ event.eventType = "EXEC" ∨ event.eventType = "EXIT"
  pid : -(2 ^ 31) ≤ event.pid ∧ event.pid < 2 ^ 31
  ppid : -(2 ^ 31) ≤ event.ppid ∧ event.ppid < 2 ^ 31
  status : ∀ status ∈ event.exitStatus, -(2 ^ 31) ≤ status ∧ status < 2 ^ 31
  signal : ∀ signal ∈ event.parentExitSignal, -(2 ^ 31) ≤ signal ∧ signal < 2 ^ 31

/-- The process in the answer, its fields in the order of the map. -/
def ProcessNode.answer (node : ProcessNode) : Value :=
  .object [
    ("name", .string node.name),
    ("pid", integerValue node.pid),
    ("ppid", integerValue node.ppid),
    ("state", .string (String.singleton node.state))]

/-- The event in the answer, its fields in the order of the map. -/
def ProcessEvent.answer (event : ProcessEvent) : Value :=
  .object [
    ("exit_status", optionalInteger event.exitStatus),
    ("name", .string event.name),
    ("parent_exit_signal", optionalInteger event.parentExitSignal),
    ("pid", integerValue event.pid),
    ("ppid", integerValue event.ppid),
    ("reason", optionalText event.exitReason),
    ("time", .number (.posInt event.timestampNs)),
    ("type", .string event.eventType)]

/-- The text of a string between its quotes. -/
def quoted (text : String) : List Char := '"' :: (text.toList ++ ['"'])

theorem reads_integer (depth : Nat) {value : Int} (low : -(2 ^ 31) ≤ value)
    (high : value < 2 ^ 31) :
    Reads floats depth (toString value).toList (integerValue value) := by
  cases value with
  | ofNat magnitude =>
      rw [Int.ofNat_eq_natCast] at high
      have reads : Reads floats depth (Nat.toDigits 10 magnitude) (.number (.posInt magnitude)) :=
        reads_natural depth magnitude (by omega)
      simpa [integerValue, Int.repr, Nat.repr] using reads
  | negSucc magnitude =>
      have reads : Reads floats depth ('-' :: Nat.toDigits 10 (magnitude + 1))
          (.number (.negInt (-(magnitude + 1 : Nat)))) :=
        reads_negative depth (magnitude + 1) (by omega) (by omega)
      have text : (toString (Int.negSucc magnitude)).toList = '-' :: Nat.toDigits 10 (magnitude + 1) := by
        change ("-" ++ Nat.repr (magnitude + 1)).toList = _
        simp [Nat.repr]
      rw [text, integerValue, if_neg (Int.not_le.mpr (Int.negSucc_lt_zero _))]
      exact reads

theorem reads_quoted_plain (depth : Nat) {text : String} (plain : PlainText text) :
    Reads floats depth (quoted text) (.string text) := by
  have reads : Reads floats depth (quoted text) (.string (String.ofList text.toList)) :=
    reads_string depth (readsString_of_plain plain)
  rwa [String.ofList_toList] at reads

theorem reads_quoted_escape (depth : Nat) {text : String} (printable : NoControl text) :
    Reads floats depth (quoted (jsonEscape text)) (.string text) := by
  have reads : Reads floats depth (quoted (jsonEscape text)) (.string (String.ofList text.toList)) :=
    reads_string depth (readsString_escape printable)
  rwa [String.ofList_toList] at reads

theorem refuses_quoted_escape (depth : Nat) {text : String} (control : ¬NoControl text) :
    Refuses floats depth (quoted (jsonEscape text)) :=
  refuses_string depth (refusesString_escape control _)

theorem ProcessEvent.Tracked.plainType {event : ProcessEvent} (tracked : event.Tracked) :
    PlainText event.eventType := by
  rcases tracked.type with type | type | type
  · rw [type]
    decide
  · rw [type]
    decide
  · rw [type]
    decide

/-- The members of the object of a process. -/
def processMembers (node : ProcessNode) : List (List Char) := [
  memberText "pid" (toString node.pid).toList,
  memberText "ppid" (toString node.ppid).toList,
  memberText "name" (quoted (jsonEscape node.name)),
  memberText "state" (quoted (String.singleton node.state))]

theorem processJson_toList (node : ProcessNode) :
    (processJson node).toList = objectText (processMembers node) := by
  unfold processJson
  simp only [processMembers, objectText, memberText, quoted, joinComma_cons_cons,
    joinComma_singleton, String.toList_append, List.append_assoc, List.cons_append,
    List.nil_append, String.reduceToList]
  rfl

theorem reads_process {depth : Nat} {node : ProcessNode} (tracked : node.Tracked)
    (printable : NoControl node.name) :
    Reads floats (depth + 1) (processJson node).toList node.answer := by
  rw [processJson_toList]
  have reads : Reads floats (depth + 1) (objectText (processMembers node))
      (.object (fieldsOfMembers [
        ("pid", integerValue node.pid),
        ("ppid", integerValue node.ppid),
        ("name", .string node.name),
        ("state", .string (String.singleton node.state))])) := by
    refine reads_objectText (.cons ?_ (.cons ?_ (.cons ?_ (.cons ?_ .nil)))) (by simp [processMembers])
    · exact readsMember_text (by decide) (reads_integer _ tracked.pid.1 tracked.pid.2)
    · exact readsMember_text (by decide) (reads_integer _ tracked.ppid.1 tracked.ppid.2)
    · exact readsMember_text (by decide) (reads_quoted_escape _ printable)
    · rw [tracked.state]
      exact readsMember_text (by decide) (reads_quoted_plain _ (by decide))
  have sorted : fieldsOfMembers [
      ("pid", integerValue node.pid),
      ("ppid", integerValue node.ppid),
      ("name", .string node.name),
      ("state", .string (String.singleton node.state))] = [
      ("name", .string node.name),
      ("pid", integerValue node.pid),
      ("ppid", integerValue node.ppid),
      ("state", .string (String.singleton node.state))] := by
    simp only [fieldsOfMembers, List.foldl_cons, List.foldl_nil, Fields.insert, String.reduceLT,
      String.reduceEq, if_true, if_false]
  rw [sorted] at reads
  exact reads

theorem refuses_process {depth : Nat} {node : ProcessNode} (tracked : node.Tracked)
    (control : ¬NoControl node.name) :
    Refuses floats (depth + 1) (processJson node).toList := by
  rw [processJson_toList]
  have refused : RefusesMembers floats depth (memberText "name" (quoted (jsonEscape node.name))) :=
    refusesMember_text (by decide) (refuses_quoted_escape depth control)
  refine refuses_objectText ?_ ⟨_, by simp, refused⟩
  intro other present
  simp only [List.mem_cons, List.not_mem_nil, or_false] at present
  rcases present with rfl | rfl | rfl | rfl
  · exact .inl ⟨_, readsMember_text (by decide) (reads_integer _ tracked.pid.1 tracked.pid.2)⟩
  · exact .inl ⟨_, readsMember_text (by decide) (reads_integer _ tracked.ppid.1 tracked.ppid.2)⟩
  · exact .inr refused
  · rw [tracked.state]
    exact .inl ⟨_, readsMember_text (by decide) (reads_quoted_plain _ (by decide))⟩

/-- The text of an optional integer. -/
def nullableText (value : Option Int) : List Char :=
  ((value.map toString).getD "null").toList

/-- The text of an optional reason. -/
def reasonText (reason : Option String) : List Char :=
  ((reason.map fun reason => "\"" ++ jsonEscape reason ++ "\"").getD "null").toList

theorem reads_nullable (depth : Nat) {value : Option Int}
    (fits : ∀ integer ∈ value, -(2 ^ 31) ≤ integer ∧ integer < 2 ^ 31) :
    Reads floats depth (nullableText value) (optionalInteger value) := by
  cases value with
  | none => exact reads_null depth
  | some integer =>
      obtain ⟨low, high⟩ := fits integer rfl
      exact reads_integer depth low high

theorem reads_reason (depth : Nat) {reason : Option String}
    (printable : ∀ text ∈ reason, NoControl text) :
    Reads floats depth (reasonText reason) (optionalText reason) := by
  cases reason with
  | none => exact reads_null depth
  | some text =>
      have reads : Reads floats depth (quoted (jsonEscape text)) (.string text) :=
        reads_quoted_escape depth (printable text rfl)
      simpa [reasonText, quoted, optionalText] using reads

theorem refuses_reason (depth : Nat) {reason : Option String}
    (control : ¬∀ text ∈ reason, NoControl text) :
    Refuses floats depth (reasonText reason) := by
  cases reason with
  | none => exact absurd (by simp) control
  | some text =>
      have refuses : Refuses floats depth (quoted (jsonEscape text)) :=
        refuses_quoted_escape depth fun printable => control (by simpa using printable)
      simpa [reasonText, quoted] using refuses

/-- No text of the event that is escaped has a control character. -/
def ProcessEvent.Printable (event : ProcessEvent) : Prop :=
  NoControl event.name ∧ ∀ reason ∈ event.exitReason, NoControl reason

/-- The members of the object of an event. -/
def eventMembers (event : ProcessEvent) : List (List Char) := [
  memberText "time" (toString event.timestampNs).toList,
  memberText "type" (quoted event.eventType),
  memberText "pid" (toString event.pid).toList,
  memberText "ppid" (toString event.ppid).toList,
  memberText "name" (quoted (jsonEscape event.name)),
  memberText "exit_status" (nullableText event.exitStatus),
  memberText "parent_exit_signal" (nullableText event.parentExitSignal),
  memberText "reason" (reasonText event.exitReason)]

theorem eventJson_toList (event : ProcessEvent) :
    (eventJson event).toList = objectText (eventMembers event) := by
  unfold eventJson
  simp only [eventMembers, objectText, memberText, quoted, nullableText, reasonText,
    joinComma_cons_cons, joinComma_singleton, String.toList_append, List.append_assoc,
    List.cons_append, List.nil_append, String.reduceToList]

theorem reads_time (depth : Nat) {time : Nat} (fits : time < 2 ^ 64) :
    Reads floats depth (toString time).toList (.number (.posInt time)) := by
  have text : (toString time).toList = Nat.toDigits 10 time := by
    change (Nat.repr time).toList = _
    simp [Nat.repr]
  rw [text]
  exact reads_natural depth time fits

theorem reads_event {depth : Nat} {event : ProcessEvent} (tracked : event.Tracked)
    (printable : event.Printable) :
    Reads floats (depth + 1) (eventJson event).toList event.answer := by
  rw [eventJson_toList]
  have reads : Reads floats (depth + 1) (objectText (eventMembers event))
      (.object (fieldsOfMembers [
        ("time", .number (.posInt event.timestampNs)),
        ("type", .string event.eventType),
        ("pid", integerValue event.pid),
        ("ppid", integerValue event.ppid),
        ("name", .string event.name),
        ("exit_status", optionalInteger event.exitStatus),
        ("parent_exit_signal", optionalInteger event.parentExitSignal),
        ("reason", optionalText event.exitReason)])) := by
    refine reads_objectText (.cons ?_ (.cons ?_ (.cons ?_ (.cons ?_ (.cons ?_ (.cons ?_
      (.cons ?_ (.cons ?_ .nil)))))))) (by simp [eventMembers])
    · exact readsMember_text (by decide) (reads_time _ tracked.time)
    · exact readsMember_text (by decide) (reads_quoted_plain _ tracked.plainType)
    · exact readsMember_text (by decide) (reads_integer _ tracked.pid.1 tracked.pid.2)
    · exact readsMember_text (by decide) (reads_integer _ tracked.ppid.1 tracked.ppid.2)
    · exact readsMember_text (by decide) (reads_quoted_escape _ printable.1)
    · exact readsMember_text (by decide) (reads_nullable _ tracked.status)
    · exact readsMember_text (by decide) (reads_nullable _ tracked.signal)
    · exact readsMember_text (by decide) (reads_reason _ printable.2)
  have sorted : fieldsOfMembers [
      ("time", .number (.posInt event.timestampNs)),
      ("type", .string event.eventType),
      ("pid", integerValue event.pid),
      ("ppid", integerValue event.ppid),
      ("name", .string event.name),
      ("exit_status", optionalInteger event.exitStatus),
      ("parent_exit_signal", optionalInteger event.parentExitSignal),
      ("reason", optionalText event.exitReason)] = [
      ("exit_status", optionalInteger event.exitStatus),
      ("name", .string event.name),
      ("parent_exit_signal", optionalInteger event.parentExitSignal),
      ("pid", integerValue event.pid),
      ("ppid", integerValue event.ppid),
      ("reason", optionalText event.exitReason),
      ("time", .number (.posInt event.timestampNs)),
      ("type", .string event.eventType)] := by
    simp only [fieldsOfMembers, List.foldl_cons, List.foldl_nil, Fields.insert, String.reduceLT,
      String.reduceEq, if_true, if_false]
  rw [sorted] at reads
  exact reads

theorem refuses_event {depth : Nat} {event : ProcessEvent} (tracked : event.Tracked)
    (control : ¬event.Printable) :
    Refuses floats (depth + 1) (eventJson event).toList := by
  rw [eventJson_toList]
  have name : (∃ field, ReadsMember floats depth
      (memberText "name" (quoted (jsonEscape event.name))) field) ∨
      RefusesMembers floats depth (memberText "name" (quoted (jsonEscape event.name))) := by
    by_cases printable : NoControl event.name
    · exact .inl ⟨_, readsMember_text (by decide) (reads_quoted_escape _ printable)⟩
    · exact .inr (refusesMember_text (by decide) (refuses_quoted_escape _ printable))
  have reason : (∃ field, ReadsMember floats depth
      (memberText "reason" (reasonText event.exitReason)) field) ∨
      RefusesMembers floats depth (memberText "reason" (reasonText event.exitReason)) := by
    by_cases printable : ∀ reason ∈ event.exitReason, NoControl reason
    · exact .inl ⟨_, readsMember_text (by decide) (reads_reason _ printable)⟩
    · exact .inr (refusesMember_text (by decide) (refuses_reason _ printable))
  have refused : ∃ other ∈ eventMembers event, RefusesMembers floats depth other := by
    by_cases printable : NoControl event.name
    · refine ⟨memberText "reason" (reasonText event.exitReason), by simp [eventMembers], ?_⟩
      exact refusesMember_text (by decide)
        (refuses_reason depth fun plain => control ⟨printable, plain⟩)
    · refine ⟨memberText "name" (quoted (jsonEscape event.name)), by simp [eventMembers], ?_⟩
      exact refusesMember_text (by decide) (refuses_quoted_escape depth printable)
  refine refuses_objectText ?_ refused
  intro other present
  simp only [List.mem_cons, List.not_mem_nil, or_false] at present
  rcases present with rfl | rfl | rfl | rfl | rfl | rfl | rfl | rfl
  · exact .inl ⟨_, readsMember_text (by decide) (reads_time _ tracked.time)⟩
  · exact .inl ⟨_, readsMember_text (by decide) (reads_quoted_plain _ tracked.plainType)⟩
  · exact .inl ⟨_, readsMember_text (by decide) (reads_integer _ tracked.pid.1 tracked.pid.2)⟩
  · exact .inl ⟨_, readsMember_text (by decide) (reads_integer _ tracked.ppid.1 tracked.ppid.2)⟩
  · exact name
  · exact .inl ⟨_, readsMember_text (by decide) (reads_nullable _ tracked.status)⟩
  · exact .inl ⟨_, readsMember_text (by decide) (reads_nullable _ tracked.signal)⟩
  · exact reason

end Socket

end SystemPilot.Netlink
