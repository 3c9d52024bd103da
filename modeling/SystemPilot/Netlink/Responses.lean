import SystemPilot.Netlink.Socket

/-!
# Responses of the daemon

When the response to a request reads back: for a known request by the items of its
collection, for an unknown one by what its name makes of the message it is put
into.  The listener keeps the table and the queue as the socket needs them.
-/

set_option autoImplicit false

namespace SystemPilot.Netlink

open SystemPilot.Json
open SystemPilot.Text
open SystemPilot.Telemetry
open SystemPilot.Alert (ProcessAlertEngine)
open SystemPilot.Cloud (ProcessAlert)

section Responses

variable {floats : FloatText}

/-! ## The table and the queue -/

theorem intercalate_toList (texts : List String) :
    (",".intercalate texts).toList = joinComma (texts.map String.toList) := by
  rw [String.toList_intercalate]
  induction texts with
  | nil => rfl
  | cons text rest inductionHypothesis =>
      cases rest with
      | nil => simp [joinComma]
      | cons next others =>
          rw [List.map_cons, List.map_cons, joinComma_cons_cons, ← List.map_cons,
            ← inductionHypothesis]
          simp

/-- The answer that holds a collection. -/
def collectionAnswer (collection : String) (items : List Value) : Value :=
  .object (fieldsOfMembers [("status", .string "ok"), (collection, .array items)])

/-- The response that holds a collection. -/
def collectionText (collection : String) (items : List (List Char)) : List Char :=
  objectText [memberText "status" (quoted "ok"), memberText collection (arrayText items)]

theorem reads_collection {depth : Nat} {collection : String} (plain : PlainText collection)
    {texts : List (List Char)} {values : List Value}
    (reads : List.Forall₂ (Reads floats depth) texts values) :
    Reads floats (depth + 2) (collectionText collection texts)
      (collectionAnswer collection values) := by
  refine reads_objectText (.cons ?_ (.cons ?_ .nil)) (by simp)
  · exact readsMember_text (by decide) (reads_quoted_plain _ (by decide))
  · exact readsMember_text plain (reads_arrayText reads)

theorem refuses_collection {depth : Nat} {collection : String} (plain : PlainText collection)
    {texts : List (List Char)}
    (each : ∀ text ∈ texts, (∃ value, Reads floats depth text value) ∨ Refuses floats depth text)
    (refused : ∃ text ∈ texts, Refuses floats depth text)
    (opened : ∀ text ∈ texts, ∃ tail, text = '{' :: tail) :
    Refuses floats (depth + 2) (collectionText collection texts) := by
  have items : RefusesMembers floats (depth + 1) (memberText collection (arrayText texts)) :=
    refusesMember_text plain (refuses_arrayText each refused opened)
  refine refuses_objectText ?_ ⟨_, by simp, items⟩
  intro other present
  simp only [List.mem_cons, List.not_mem_nil, or_false] at present
  rcases present with rfl | rfl
  · exact .inl ⟨_, readsMember_text (by decide) (reads_quoted_plain _ (by decide))⟩
  · exact .inr items

/-- A collection reads back when each item does, and is refused when one is. -/
theorem parseText_collection {Item : Type} {collection : String} (plain : PlainText collection)
    (text : Item → List Char) (answer : Item → Value) (printable : Item → Prop)
    (items : List Item) (opened : ∀ item ∈ items, ∃ tail, text item = '{' :: tail)
    (reads : ∀ item ∈ items, printable item → Reads floats 125 (text item) (answer item))
    (refuses : ∀ item ∈ items, ¬printable item → Refuses floats 125 (text item)) :
    ((∀ item ∈ items, printable item) →
      parseText floats (collectionText collection (items.map text)) =
        some (collectionAnswer collection (items.map answer))) ∧
    ((¬∀ item ∈ items, printable item) →
      parseText floats (collectionText collection (items.map text)) = none) := by
  constructor
  · intro all
    apply parseText_of_reads
    apply reads_collection plain
    rw [List.forall₂_map_left_iff, List.forall₂_map_right_iff, List.forall₂_same]
    exact fun item member => reads item member (all item member)
  · intro control
    rw [not_forall₂] at control
    obtain ⟨bad, present, control⟩ := control
    apply parseText_of_refuses
    apply refuses_collection plain
    · intro other member
      obtain ⟨item, itemMember, rfl⟩ := List.mem_map.mp member
      by_cases fine : printable item
      · exact .inl ⟨_, reads item itemMember fine⟩
      · exact .inr (refuses item itemMember fine)
    · exact ⟨_, List.mem_map_of_mem present, refuses bad present control⟩
    · intro other member
      obtain ⟨item, itemMember, rfl⟩ := List.mem_map.mp member
      exact opened item itemMember

theorem buildProcessTreeJson_toList (tree : List ProcessNode) :
    (buildProcessTreeJson tree).toList =
      collectionText "processes" (tree.map fun node => (processJson node).toList) := by
  have items := intercalate_toList (tree.map processJson)
  rw [List.map_map] at items
  unfold buildProcessTreeJson
  simp only [collectionText, objectText, memberText, arrayText, quoted, joinComma_cons_cons,
    joinComma_singleton, String.toList_append, items, List.append_assoc, List.cons_append,
    List.nil_append, String.reduceToList]
  rfl

theorem buildEventsJson_toList (events : List ProcessEvent) :
    (buildEventsJson events).toList =
      collectionText "events" (events.map fun event => (eventJson event).toList) := by
  have items := intercalate_toList (events.map eventJson)
  rw [List.map_map] at items
  unfold buildEventsJson
  simp only [collectionText, objectText, memberText, arrayText, quoted, joinComma_cons_cons,
    joinComma_singleton, String.toList_append, items, List.append_assoc, List.cons_append,
    List.nil_append, String.reduceToList]
  rfl

theorem parseText_tree {tree : List ProcessNode} (tracked : ∀ node ∈ tree, node.Tracked) :
    ((∀ node ∈ tree, NoControl node.name) →
      parseText floats (buildProcessTreeJson tree).toList =
        some (collectionAnswer "processes" (tree.map ProcessNode.answer))) ∧
    ((¬∀ node ∈ tree, NoControl node.name) →
      parseText floats (buildProcessTreeJson tree).toList = none) := by
  rw [buildProcessTreeJson_toList]
  have plain : PlainText "processes" := by decide
  refine parseText_collection plain _ _ (fun node => NoControl node.name) tree ?_ ?_ ?_
  · exact fun node _ => ⟨_, processJson_toList node⟩
  · exact fun node member printable => reads_process (tracked node member) printable
  · exact fun node member control => refuses_process (tracked node member) control

theorem parseText_events {events : List ProcessEvent}
    (tracked : ∀ event ∈ events, event.Tracked) :
    ((∀ event ∈ events, event.Printable) →
      parseText floats (buildEventsJson events).toList =
        some (collectionAnswer "events" (events.map ProcessEvent.answer))) ∧
    ((¬∀ event ∈ events, event.Printable) →
      parseText floats (buildEventsJson events).toList = none) := by
  rw [buildEventsJson_toList]
  have plain : PlainText "events" := by decide
  refine parseText_collection plain _ _ ProcessEvent.Printable events ?_ ?_ ?_
  · exact fun event _ => ⟨_, eventJson_toList event⟩
  · exact fun event member printable => reads_event (tracked event member) printable
  · exact fun event member control => refuses_event (tracked event member) control

/-! ## Requests that are not known -/

variable (floats) in
/-- The name of a request closes the message it is put into: up to its quote it is
the inside of a string, and what it adds after a quote of its own goes on with
members up to the brace of the response. -/
def closesMessage (name : String) : Bool :=
  let text := name.toList ++ ['"', '}']
  match parseString (text.length + 1) text with
  | none => false
  | some (_, rest) =>
      match skipSpace rest with
      | '}' :: rest => (skipSpace rest).isEmpty
      | ',' :: rest =>
          match parseMembers floats (rest.length + 1) 126 rest with
          | some (_, rest) => (skipSpace rest).isEmpty
          | none => false
      | _ => false

/-- Without a quote, a backslash and a control character the name is fine. -/
theorem closesMessage_of_plain {name : String} (plain : PlainText name) :
    closesMessage floats name = true := by
  have token := readsString_of_plain plain ((name.toList ++ ['"', '}']).length + 1) ['}'] (by simp)
  rw [List.append_assoc] at token
  unfold closesMessage
  dsimp only
  rw [show name.toList ++ ['"', '}'] = name.toList ++ (['"'] ++ ['}']) from rfl] at token ⊢
  rw [token]
  rfl

/-- An object is read when its members are, up to the end. -/
theorem parseText_object_iff (text : List Char) :
    (∃ value, parseText floats ('{' :: '"' :: text) = some value) ↔
      ∃ fuel members rest, parseMembers floats fuel 126 ('"' :: text) = some (members, rest) ∧
        skipSpace rest = [] := by
  have brace : skipSpace ('{' :: '"' :: text) = '{' :: '"' :: text := rfl
  have quote : skipSpace ('"' :: text) = '"' :: text := rfl
  have opened (fuel : Nat) : parseValue floats (fuel + 1) 127 ('{' :: '"' :: text) =
      (parseMembers floats fuel 126 ('"' :: text)).map fun parsed =>
        (.object (fieldsOfMembers parsed.1), parsed.2) := by
    rw [parseValue, brace]
    simp only [quote]
    rfl
  constructor
  · rintro ⟨value, parsed⟩
    rw [parseText, opened] at parsed
    cases found : parseMembers floats ('{' :: '"' :: text).length 126 ('"' :: text) with
    | none =>
        rw [found] at parsed
        cases parsed
    | some result =>
        rw [found] at parsed
        refine ⟨_, result.1, result.2, found, ?_⟩
        simp only [Option.map_some] at parsed
        split at parsed
        · rename_i ended
          exact List.isEmpty_iff.mp ended
        · cases parsed
  · rintro ⟨fuel, members, rest, found, ended⟩
    have enough := ((parsed_enough fuel).2.2 _ _ _ _ found).2 ('{' :: '"' :: text).length
      (by simp only [List.length_cons]; omega)
    rw [parseText, opened, enough]
    exact ⟨.object (fieldsOfMembers members), by simp [ended]⟩

/-- A first member that is read leaves the rest of the members to be read. -/
theorem parseMembers_later_iff {text : List Char} {first : String × Value}
    (reads : ReadsMember floats 126 text first) (later : List Char) :
    (∃ fuel members rest, parseMembers floats fuel 126 (text ++ ',' :: later) = some (members, rest) ∧
      skipSpace rest = []) ↔
    ∃ fuel members rest, parseMembers floats fuel 126 later = some (members, rest) ∧
      skipSpace rest = [] := by
  have ends : Ends (',' :: later) := ends_of_spaces spaces_nil (Or.inl rfl) _
  have step (fuel : Nat) (room : text.length ≤ fuel + 1) :=
    (parseMembers_first reads room ends).1 later rfl
  constructor
  · rintro ⟨fuel, members, rest, found, ended⟩
    have enough := ((parsed_enough fuel).2.2 _ _ _ _ found).2
      ((text ++ ',' :: later).length + 1) (by omega)
    rw [step _ (by rw [List.length_append]; omega)] at enough
    obtain ⟨inner, parsed, same⟩ := Option.map_eq_some_iff.mp enough
    cases same
    exact ⟨_, inner.1, inner.2, parsed, ended⟩
  · rintro ⟨fuel, members, rest, found, ended⟩
    have enough := ((parsed_enough fuel).2.2 _ _ _ _ found).2 (later.length + text.length)
      (by omega)
    refine ⟨later.length + text.length + 1, first :: members, rest, ?_, ended⟩
    rw [step _ (by omega), enough]
    rfl

/-- The member of the message, up to the end of the response. -/
def messageTail (name : String) : List Char :=
  '"' :: ("message".toList ++ ['"'] ++
    ':' :: '"' :: ("unknown: ".toList ++ (name.toList ++ ['"', '}'])))

/-- The member is read as far as the string of its value. -/
theorem parseMembers_messageTail (name : String) (fuel : Nat) :
    parseMembers floats (fuel + 2) 126 (messageTail name) =
      match parseString ((name.toList ++ ['"', '}']).length + 1) (name.toList ++ ['"', '}']) with
      | none => none
      | some (body, rest) =>
          let message := ("message", Value.string (String.ofList ("unknown: ".toList ++ body)))
          match skipSpace rest with
          | ',' :: rest =>
              (parseMembers floats (fuel + 1) 126 rest).map fun parsed =>
                (message :: parsed.1, parsed.2)
          | '}' :: rest => some ([message], rest)
          | _ => none := by
  generalize tail : name.toList ++ ['"', '}'] = after
  have quote : skipSpace (messageTail name) = messageTail name := rfl
  have plainKey : PlainText "message" := by decide
  have plainStart : PlainText "unknown: " := by decide
  have keyed := readsString_of_plain plainKey
    (("message".toList ++ ['"'] ++ ':' :: '"' :: ("unknown: ".toList ++ after)).length + 1)
    (':' :: '"' :: ("unknown: ".toList ++ after)) (by simp)
  have colon : skipSpace (':' :: '"' :: ("unknown: ".toList ++ after)) =
    ':' :: '"' :: ("unknown: ".toList ++ after) := rfl
  have opened : skipSpace ('"' :: ("unknown: ".toList ++ after)) =
    '"' :: ("unknown: ".toList ++ after) := rfl
  have named := parseString_of_plain plainStart (after.length + 1) after
  have length : ("unknown: ".toList ++ after).length + 1 =
      after.length + 1 + "unknown: ".toList.length := by
    rw [List.length_append]
    omega
  rw [parseMembers, quote, messageTail, tail]
  simp only [keyed, colon, parseValue, opened, length, named]
  cases parseString (after.length + 1) after with
  | none => rfl
  | some parsed => rfl

theorem messageTail_iff (name : String) :
    (∃ fuel members rest, parseMembers floats fuel 126 (messageTail name) = some (members, rest) ∧
      skipSpace rest = []) ↔ closesMessage floats name = true := by
  constructor
  · rintro ⟨fuel, members, rest, found, ended⟩
    have enough := ((parsed_enough fuel).2.2 _ _ _ _ found).2 ((messageTail name).length + 2)
      (by omega)
    rw [parseMembers_messageTail] at enough
    unfold closesMessage
    dsimp only
    split at enough
    · cases enough
    · rename_i body after string
      simp only at enough
      split at enough
      · rename_i later comma
        obtain ⟨inner, parsed, same⟩ := Option.map_eq_some_iff.mp enough
        cases same
        have again := ((parsed_enough _).2.2 _ _ _ _ parsed).2 (later.length + 1) (by omega)
        simp only [comma, again, List.isEmpty_iff, ended]
      · rename_i later brace
        cases enough
        simp only [brace, List.isEmpty_iff, ended]
      · cases enough
  · intro closes
    unfold closesMessage at closes
    dsimp only at closes
    split at closes
    · cases closes
    · rename_i body after string
      split at closes
      · rename_i later brace
        refine ⟨2, [("message", .string (String.ofList ("unknown: ".toList ++ body)))], later, ?_,
          List.isEmpty_iff.mp closes⟩
        rw [parseMembers_messageTail, string]
        simp only [brace]
      · rename_i later comma
        split at closes
        · rename_i members rest parsed
          have again := ((parsed_enough _).2.2 _ _ _ _ parsed).2 (later.length + 1) (by omega)
          refine ⟨later.length + 2,
            ("message", .string (String.ofList ("unknown: ".toList ++ body))) :: members, rest, ?_,
            List.isEmpty_iff.mp closes⟩
          rw [parseMembers_messageTail, string]
          simp only [comma, again, Option.map_some]
        · cases closes
      · cases closes

theorem unknown_valid_iff (name : String) :
    (∃ value, parseText floats
      ("\x7b\"status\":\"error\",\"message\":\"unknown: " ++ name ++ "\"\x7d").toList = some value) ↔
      closesMessage floats name = true := by
  have status : ReadsMember floats 126 (memberText "status" (quoted "error"))
      ("status", .string "error") :=
    readsMember_text (by decide) (reads_quoted_plain 126 (by decide))
  have shape : ("\x7b\"status\":\"error\",\"message\":\"unknown: " ++ name ++ "\"\x7d").toList =
      '{' :: (memberText "status" (quoted "error") ++ ',' :: messageTail name) := by
    simp only [memberText, quoted, messageTail, String.toList_append, List.cons_append,
      List.nil_append, String.reduceToList]
  rw [shape, ← messageTail_iff, ← parseMembers_later_iff status]
  exact parseText_object_iff _

/-! ## The round trip -/

section RoundTrip

variable (floats) (tree : List ProcessNode) (queued : List ProcessEvent) (request : String)

/-- The response is JSON; the response to a known request is accepted by the
client and decodes to the processes of the table or the events of the queue. -/
structure RoundTrip : Prop where
  valid : ∃ value, parseText floats (handleClient floats tree queued request).1.toList = some value
  processes : requestName floats request = some "process_tree" → ∀ explain,
    let answer := collectionAnswer "processes" (tree.map ProcessNode.answer)
    decodeResponse floats explain (handleClient floats tree queued request).1 = .ok answer ∧
      validateTypedResponse answer "processes" = .ok answer
  events : requestName floats request = some "events" → ∀ explain,
    let answer := collectionAnswer "events" (queued.map ProcessEvent.answer)
    decodeResponse floats explain (handleClient floats tree queued request).1 = .ok answer ∧
      validateTypedResponse answer "events" = .ok answer

/-- What the response puts into its strings can stand there. -/
def Encodable : Prop :=
  match requestName floats request with
  | none => True
  | some name =>
      if name = "process_tree" then ∀ node ∈ tree, NoControl node.name
      else if name = "events" then ∀ event ∈ queued, event.Printable
      else closesMessage floats name = true

end RoundTrip

theorem decodeResponse_of_parsed {response : String} {value : Value} {tail : List Char}
    (opened : response.toList = '{' :: tail)
    (parsed : parseText floats response.toList = some value) (explain : String → String) :
    decodeResponse floats explain response = .ok value := by
  have visible : isBlank response = false := by
    rw [← Bool.not_eq_true, isBlank_iff]
    intro blank
    have brace := blank '{' (by rw [opened]; exact List.mem_cons_self)
    revert brace
    decide
  rw [decodeResponse, visible, parsed]
  rfl

theorem validateTypedResponse_collection {collection : String} (apart : "status" ≠ collection)
    (items : List Value) :
    validateTypedResponse (collectionAnswer collection items) collection =
      .ok (collectionAnswer collection items) := by
  have distinct : List.Pairwise (fun left right => left.1 ≠ right.1)
      [("status", Value.string "ok"), (collection, Value.array items)] := by
    simp [apart]
  have status : index (collectionAnswer collection items) "status" = .string "ok" := by
    simp only [index, collectionAnswer, get_fieldsOfMembers distinct, Fields.get_cons, if_true,
      Option.getD_some]
  have held : index (collectionAnswer collection items) collection = .array items := by
    simp only [index, collectionAnswer, get_fieldsOfMembers distinct, Fields.get_cons,
      if_neg apart, if_true, Option.getD_some]
  rw [validateTypedResponse, status, held]
  rfl

theorem invalid_response_valid :
    ∃ value, parseText floats
      "\x7b\"status\":\"error\",\"message\":\"invalid json\"\x7d".toList = some value := by
  have shape : "\x7b\"status\":\"error\",\"message\":\"invalid json\"\x7d".toList =
      objectText [memberText "status" (quoted "error"),
        memberText "message" (quoted "invalid json")] := by
    simp only [objectText, memberText, quoted, joinComma_cons_cons, joinComma_singleton,
      List.cons_append, List.nil_append, String.reduceToList]
  have status : ReadsMember floats 126 (memberText "status" (quoted "error"))
      ("status", .string "error") :=
    readsMember_text (by decide) (reads_quoted_plain 126 (by decide))
  have message : ReadsMember floats 126 (memberText "message" (quoted "invalid json"))
      ("message", .string "invalid json") :=
    readsMember_text (by decide) (reads_quoted_plain 126 (by decide))
  rw [shape]
  exact ⟨_, parseText_of_reads (reads_objectText (.cons status (.cons message .nil)) (by simp))⟩

/-- Of a response that is read exactly when all is well: it is valid, and what it
answers decodes, exactly then. -/
theorem answered_iff {response : String} {tail : List Char} {collection : String}
    {items : List Value} {fine : Prop} (opened : response.toList = '{' :: tail)
    (apart : "status" ≠ collection)
    (reads : fine → parseText floats response.toList = some (collectionAnswer collection items))
    (refuses : ¬fine → parseText floats response.toList = none) :
    ((∃ value, parseText floats response.toList = some value) ↔ fine) ∧
    (fine → ∀ explain,
      decodeResponse floats explain response = .ok (collectionAnswer collection items) ∧
        validateTypedResponse (collectionAnswer collection items) collection =
          .ok (collectionAnswer collection items)) := by
  refine ⟨⟨?_, fun holds => ⟨_, reads holds⟩⟩, ?_⟩
  · rintro ⟨value, parsed⟩
    by_contra fails
    rw [refuses fails] at parsed
    cases parsed
  · exact fun holds explain => ⟨decodeResponse_of_parsed opened (reads holds) explain,
      validateTypedResponse_collection apart items⟩

/-- For every table and queue the daemon fills, in any order, and every request:
the response round trips exactly when what it puts into its strings can stand
there. -/
theorem response_round_trips_iff (floats : FloatText) (tree : List ProcessNode)
    (queued : List ProcessEvent) (nodes : ∀ node ∈ tree, node.Tracked)
    (events : ∀ event ∈ queued, event.Tracked) (request : String) :
    RoundTrip floats tree queued request ↔ Encodable floats tree queued request := by
  have known {name other : String} (found : requestName floats request = some name)
      (apart : name ≠ other) : requestName floats request ≠ some other := by
    rw [found]
    simpa using apart
  unfold Encodable
  cases found : requestName floats request with
  | none =>
      have response : (handleClient floats tree queued request).1 =
          "\x7b\"status\":\"error\",\"message\":\"invalid json\"\x7d" := by
        rw [handleClient, found]
      refine iff_of_true ⟨?_, ?_, ?_⟩ trivial
      · rw [response]
        exact invalid_response_valid
      · rw [found]
        exact fun answered => nomatch answered
      · rw [found]
        exact fun answered => nomatch answered
  | some name =>
      dsimp only
      split
      · rename_i process
        subst process
        have response : (handleClient floats tree queued request).1 = buildProcessTreeJson tree := by
          rw [handleClient, found]
          rfl
        obtain ⟨reads, refuses⟩ := @parseText_tree floats tree nodes
        obtain ⟨valid, decodes⟩ := answered_iff (buildProcessTreeJson_toList tree) (by decide)
          reads refuses
        rw [← response] at valid decodes
        refine ⟨fun roundTrip => valid.mp roundTrip.valid, fun printable => ⟨?_, ?_, ?_⟩⟩
        · exact valid.mpr printable
        · exact fun _ => decodes printable
        · exact fun answered => absurd answered (known found (by decide))
      · rename_i process
        split
        · rename_i lifecycle
          subst lifecycle
          have response : (handleClient floats tree queued request).1 = buildEventsJson queued := by
            rw [handleClient, found]
            rfl
          obtain ⟨reads, refuses⟩ := @parseText_events floats queued events
          obtain ⟨valid, decodes⟩ := answered_iff (buildEventsJson_toList queued) (by decide)
            reads refuses
          rw [← response] at valid decodes
          refine ⟨fun roundTrip => valid.mp roundTrip.valid, fun printable => ⟨?_, ?_, ?_⟩⟩
          · exact valid.mpr printable
          · exact fun answered => absurd answered (known found (by decide))
          · exact fun _ => decodes printable
        · rename_i lifecycle
          have response : (handleClient floats tree queued request).1 =
              "\x7b\"status\":\"error\",\"message\":\"unknown: " ++ name ++ "\"\x7d" := by
            rw [handleClient, found]
            simp only [if_neg process, if_neg lifecycle]
          have valid := @unknown_valid_iff floats name
          rw [← response] at valid
          refine ⟨fun roundTrip => valid.mp roundTrip.valid, fun closes => ⟨?_, ?_, ?_⟩⟩
          · exact valid.mpr closes
          · exact fun answered => absurd answered (known found process)
          · exact fun answered => absurd answered (known found lifecycle)

end Responses

/-! ## What the listener fills -/

/-- Every node in the table and every event in the queue is as the socket needs
it. -/
structure Daemon.Tracked (daemon : Daemon) : Prop where
  nodes : ∀ (pid : Int) (node : ProcessNode), daemon.tree[pid]? = some node → node.Tracked
  events : ∀ event ∈ daemon.queued, event.Tracked

/-- The parent and the clock are of the widths of their types. -/
structure Answers.Typed (answers : Answers) : Prop where
  ppid : ∀ pid, -(2 ^ 31) ≤ answers.ppid pid ∧ answers.ppid pid < 2 ^ 31
  now : answers.now < 2 ^ 64

/-- Every field is an `i32`. -/
def Frame.Typed : Frame → Prop
  | .fork parent child =>
      (-(2 ^ 31) ≤ parent ∧ parent < 2 ^ 31) ∧ -(2 ^ 31) ≤ child ∧ child < 2 ^ 31
  | .exec pid => -(2 ^ 31) ≤ pid ∧ pid < 2 ^ 31
  | .exit pid status signal =>
      (-(2 ^ 31) ≤ pid ∧ pid < 2 ^ 31) ∧ (-(2 ^ 31) ≤ status ∧ status < 2 ^ 31) ∧
        -(2 ^ 31) ≤ signal ∧ signal < 2 ^ 31
  | .kernelError code => -(2 ^ 31) ≤ code ∧ code < 2 ^ 31

theorem signedWord_bounds (bytes : List UInt8) (offset : Nat) :
    -(2 ^ 31) ≤ signedWord bytes offset ∧ signedWord bytes offset < 2 ^ 31 := by
  have small (index : Nat) : byteAt bytes index < 256 := UInt8.toNat_lt _
  have first := small offset
  have second := small (offset + 1)
  have third := small (offset + 2)
  have fourth := small (offset + 2 + 1)
  have bounded : word bytes offset < 2 ^ 32 := by
    unfold word half
    omega
  unfold signedWord signed
  split
  · omega
  · omega

theorem listenEvent_typed (buffer : List UInt8) (received event : Nat) :
    ∀ frame ∈ (listenEvent buffer received event).1, frame.Typed := by
  unfold listenEvent
  intro frame member
  split at member
  · rw [List.mem_singleton.mp member]
    exact ⟨signedWord_bounds _ _, signedWord_bounds _ _⟩
  · split at member
    · rw [List.mem_singleton.mp member]
      exact signedWord_bounds _ _
    · split at member
      · rw [List.mem_singleton.mp member]
        exact ⟨signedWord_bounds _ _, signedWord_bounds _ _, signedWord_bounds _ _⟩
      · contradiction

theorem listenReadings_typed (buffer : List UInt8) (received offset : Nat) :
    ∀ reading ∈ listenReadings buffer received offset, ∀ frame ∈ reading.frames, frame.Typed := by
  have connector (message : Message) :
      ∀ frame ∈ (listenConnector buffer received message).frames, frame.Typed := by
    unfold listenConnector
    dsimp only
    split
    · split
      · exact listenEvent_typed _ _ _
      · simp
    · simp
  have error (message : Message) : -(2 ^ 31) ≤ (listenError buffer message).1 ∧
      (listenError buffer message).1 < 2 ^ 31 := by
    unfold listenError
    split
    · exact signedWord_bounds _ _
    · decide
  fun_induction listenReadings buffer received offset with
  | case1 => simp
  | case2 offset header length rejected isError code ends listened nonzero =>
      have bounds := error ⟨offset, length⟩
      rw [listened] at bounds
      intro reading member
      rw [List.mem_singleton.mp member]
      simpa [Frame.Typed] using bounds
  | case3 offset header length rejected isError code ends listened zero inductionHypothesis =>
      intro reading member
      rcases List.mem_cons.mp member with rfl | later
      · simp
      · exact inductionHypothesis reading later
  | case4 => simp
  | case5 offset header length rejected isMessage long inductionHypothesis =>
      intro reading member
      rcases List.mem_cons.mp member with rfl | later
      · exact connector _
      · exact inductionHypothesis reading later
  | case6 => simp

namespace Daemon

theorem track_tracked {answers : Answers} (typed : answers.Typed)
    {tree : Std.ExtTreeMap Int ProcessNode}
    (nodes : ∀ (pid : Int) (node : ProcessNode), tree[pid]? = some node → node.Tracked)
    {frame : Frame} (frameTyped : frame.Typed) :
    (∀ (pid : Int) (node : ProcessNode), (track answers tree frame).1[pid]? = some node →
      node.Tracked) ∧
      ∀ event ∈ (track answers tree frame).2, event.Tracked := by
  cases frame with
  | fork parent child =>
      obtain ⟨parentTyped, childTyped⟩ := frameTyped
      constructor
      · intro pid node found
        simp only [track, Std.ExtTreeMap.getElem?_insert] at found
        split at found
        · cases found
          exact ⟨childTyped, parentTyped, rfl⟩
        · exact nodes pid node found
      · intro event made
        cases made
        exact ⟨typed.now, .inl rfl, childTyped, parentTyped, by simp, by simp⟩
  | exec pid =>
      constructor
      · intro other node found
        simp only [track, Std.ExtTreeMap.getElem?_insert] at found
        split at found
        · cases found
          split
          · rename_i known same
            have before := nodes pid known same
            exact ⟨before.pid, before.ppid, before.state⟩
          · exact ⟨frameTyped, typed.ppid pid, rfl⟩
        · exact nodes other node found
      · intro event made
        cases made
        exact ⟨typed.now, .inr (.inl rfl), frameTyped, by simp, by simp, by simp⟩
  | exit pid status signal =>
      obtain ⟨pidTyped, statusTyped, signalTyped⟩ := frameTyped
      constructor
      · intro other node found
        simp only [track, Std.ExtTreeMap.getElem?_erase] at found
        split at found
        · cases found
        · exact nodes other node found
      · intro event made
        cases made
        exact ⟨typed.now, .inr (.inr rfl), pidTyped, by simp, by simpa using statusTyped,
          by simpa using signalTyped⟩
  | kernelError code => exact ⟨nodes, by simp [track]⟩

theorem applyAlert_queued (answers : Answers) (daemon : Daemon) (raised : List ProcessAlert) :
    (raised.foldl (applyAlert answers) daemon).queued = daemon.queued := by
  induction raised generalizing daemon with
  | nil => rfl
  | cons alert rest inductionHypothesis =>
      rw [List.foldl_cons, inductionHypothesis]
      unfold applyAlert
      split
      · rfl
      · split <;> rfl

theorem recordEvent_queued (alerts : ProcessAlertEngine) (answers : Answers) (daemon : Daemon)
    (event : ProcessEvent) :
    ∀ held ∈ (recordEvent alerts answers daemon event).queued, held ∈ daemon.queued ∨ held = event := by
  intro held member
  unfold recordEvent at member
  dsimp only at member
  split at member
  · rcases List.mem_append.mp member with old | new
    · rw [applyAlert_queued] at old
      exact .inl old
    · exact .inr (List.mem_singleton.mp new)
  · rw [applyAlert_queued] at member
    exact .inl member

theorem handleFrame_tracked (alerts : ProcessAlertEngine) {world : Nat → Answers}
    (typed : ∀ frame, (world frame).Typed) {daemon : Daemon} (tracked : daemon.Tracked)
    {frame : Frame} (frameTyped : frame.Typed) :
    (handleFrame alerts world daemon frame).Tracked := by
  obtain ⟨nodes, events⟩ := track_tracked (typed daemon.handled) tracked.nodes frameTyped
  unfold handleFrame
  dsimp only
  split
  · rename_i tree event made
    rw [made] at nodes events
    constructor
    · rw [(recordEvent_spec alerts (world daemon.handled) _ event).1]
      exact nodes
    · intro held member
      rcases recordEvent_queued _ _ _ _ held member with old | rfl
      · exact tracked.events held old
      · exact events held rfl
  · exact tracked

/-- The hypotheses on the table and the queue hold in every run of the listener. -/
theorem netlinkListener_tracked (alerts : ProcessAlertEngine) {world : Nat → Answers}
    (typed : ∀ frame, (world frame).Typed) (received : List (List UInt8)) {daemon : Daemon}
    (tracked : daemon.Tracked) :
    (netlinkListener alerts world daemon received).Tracked := by
  induction received generalizing daemon with
  | nil => exact tracked
  | cons buffer rest inductionHypothesis =>
      have frames : ∀ frame ∈ listenFrames buffer buffer.length, frame.Typed := by
        intro frame member
        obtain ⟨reading, listed, held⟩ := List.mem_flatMap.mp member
        exact listenReadings_typed buffer buffer.length 0 reading listed frame held
      have handled : ((listenFrames buffer buffer.length).foldl (handleFrame alerts world)
          daemon).Tracked := by
        generalize listenFrames buffer buffer.length = list at frames
        induction list generalizing daemon with
        | nil => exact tracked
        | cons frame later framesHypothesis =>
            exact framesHypothesis (handleFrame_tracked alerts typed tracked (frames frame (by simp)))
              fun other member => frames other (by simp [member])
      unfold netlinkListener
      dsimp only
      split
      · exact inductionHypothesis handled
      · exact handled

/-- `scan_proc`, over the numbers in the process file system. -/
def scanProc (answers : Answers) (pids : List Int) : Std.ExtTreeMap Int ProcessNode :=
  pids.foldl (fun tree pid => tree.insert pid {
    pid
    ppid := answers.ppid pid
    name := answers.comm pid
    state := 'S' }) ∅

theorem scanProc_tracked {answers : Answers} (typed : answers.Typed) {pids : List Int}
    (pidsTyped : ∀ pid ∈ pids, -(2 ^ 31) ≤ pid ∧ pid < 2 ^ 31) :
    ∀ (pid : Int) (node : ProcessNode), (scanProc answers pids)[pid]? = some node →
      node.Tracked := by
  have extended (tree : Std.ExtTreeMap Int ProcessNode)
      (nodes : ∀ (pid : Int) (node : ProcessNode), tree[pid]? = some node → node.Tracked) :
      ∀ (pid : Int) (node : ProcessNode), (pids.foldl (fun tree pid => tree.insert pid {
        pid
        ppid := answers.ppid pid
        name := answers.comm pid
        state := 'S' }) tree)[pid]? = some node → node.Tracked := by
    induction pids generalizing tree with
    | nil => exact nodes
    | cons first rest inductionHypothesis =>
        refine inductionHypothesis (fun pid member => pidsTyped pid (by simp [member])) _ ?_
        intro pid node found
        rw [Std.ExtTreeMap.getElem?_insert] at found
        split at found
        · cases found
          exact ⟨pidsTyped first (by simp), typed.ppid first, rfl⟩
        · exact nodes pid node found
  exact extended ∅ (by simp)

end Daemon

/-! ## Two requests -/

theorem response_round_trips_worker :
    RoundTrip bitFloats [⟨42, 1, "a\"b\\c", 'S'⟩] [] "\x7b\"request\":\"process_tree\"\x7d" := by
  refine (response_round_trips_iff bitFloats _ [] ?_ (by simp) _).mpr ?_
  · intro node member
    rw [List.mem_singleton.mp member]
    exact ⟨by decide, by decide, rfl⟩
  · have known : requestName bitFloats "\x7b\"request\":\"process_tree\"\x7d" =
        some "process_tree" := by
      decide +kernel
    have printable : NoControl "a\"b\\c" := by decide
    rw [Encodable, known]
    intro node member
    rw [List.mem_singleton.mp member]
    exact printable

/-- A process sets its name to one with a line feed: the response about its start is
no JSON, and the event is gone from the queue. -/
theorem line_feed_breaks_response :
    let event : ProcessEvent := {
      timestampNs := 5
      eventType := "EXEC"
      pid := 42
      ppid := 0
      name := "a\nb" }
    event.Tracked ∧
      (handleClient bitFloats [] [event] "\x7b\"request\":\"events\"\x7d").2 = [] ∧
      ¬RoundTrip bitFloats [] [event] "\x7b\"request\":\"events\"\x7d" := by
  refine ⟨⟨by decide, .inr (.inl rfl), by decide, by decide, by simp, by simp⟩, ?_, ?_⟩
  · decide +kernel
  · intro roundTrip
    obtain ⟨value, parsed⟩ := roundTrip.valid
    have refused : parseText bitFloats (handleClient bitFloats [] [{
        timestampNs := 5
        eventType := "EXEC"
        pid := 42
        ppid := 0
        name := "a\nb" }] "\x7b\"request\":\"events\"\x7d").1.toList = none := by
      decide +kernel
    rw [refused] at parsed
    cases parsed

end SystemPilot.Netlink
