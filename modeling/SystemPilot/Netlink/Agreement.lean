import SystemPilot.Netlink.Listener

/-!
# Two parsers of one format

`parse_frames` bounds the fields of a connector event by the message and those
of an error by the buffer; the daemon's loop does the opposite.  They make the
same frames, each from the message's own bytes, exactly when no message is cut
short in front of bytes that would complete it.
-/

set_option autoImplicit false

namespace SystemPilot.Netlink

/-- The frames up to the first kernel error, where the daemon stops. -/
def upToError : List Frame → List Frame
  | [] => []
  | frame :: rest => if frame.isEvent then frame :: upToError rest else [frame]

/-- `NLMSG_ERROR`. -/
def Message.IsError (bytes : List UInt8) (message : Message) : Prop :=
  half bytes (message.offset + 4) = 2

instance (bytes : List UInt8) (message : Message) : Decidable (message.IsError bytes) :=
  inferInstanceAs (Decidable (_ = _))

/-- The code of an error lies in the message, or not in the buffer at all. -/
def Message.ErrorComplete (bytes : List UInt8) (message : Message) : Prop :=
  20 ≤ message.length ∨ bytes.length < message.offset + 20

/-- A message for the daemon's arms: a process event whose kind was received. -/
def Message.Active (bytes : List UInt8) (message : Message) : Prop :=
  word bytes (message.offset + 16) = 1 ∧ word bytes (message.offset + 20) = 1 ∧
    message.offset + 40 ≤ bytes.length

instance (bytes : List UInt8) (message : Message) : Decidable (message.Active bytes) :=
  inferInstanceAs (Decidable (_ ∧ _))

/-- The connector's identifiers lie in the message, and so does the event, as far
as the buffer has the bytes of one. -/
def Message.EventComplete (bytes : List UInt8) (message : Message) : Prop :=
  24 ≤ message.length ∧ (message.Active bytes → 40 ≤ message.length ∧
    (word bytes (message.offset + 36) = 2 →
      message.offset + 60 ≤ bytes.length → 60 ≤ message.length) ∧
    (word bytes (message.offset + 36) = 1 ∨ word bytes (message.offset + 36) = 0x80000000 →
      message.offset + 68 ≤ bytes.length → 68 ≤ message.length))

/-- An error of code zero, which stops nobody. -/
def Message.Acknowledges (bytes : List UInt8) (message : Message) : Prop :=
  20 ≤ message.length ∧ signedWord bytes (message.offset + 16) = 0

/-- What the daemon meets before it stops is complete, and no error follows a
message that it stops at for want of bytes. -/
def Contained (bytes : List UInt8) : List Message → Prop
  | [] => True
  | message :: rest =>
      if message.IsError bytes then message.Acknowledges bytes → Contained bytes rest
      else if bytes.length < message.offset + 36 then
        ∀ later ∈ rest, ¬later.IsError bytes
      else message.EventComplete bytes ∧ Contained bytes rest

/-! ## One message -/

section Message

variable {bytes : List UInt8} {message : Message}

theorem parseMessage_error (isError : message.IsError bytes) :
    parseMessage bytes message =
      if message.offset + 20 ≤ bytes.length then
        ⟨message, errorFrames (signedWord bytes (message.offset + 16)), [message.offset + 20]⟩
      else ⟨message, errorFrames (-eproto), []⟩ :=
  if_pos isError

/-- A connector message is parsed as the daemon would if nothing followed it. -/
theorem parseMessage_connector (accepted : message.Accepted bytes)
    (notError : ¬message.IsError bytes) :
    parseMessage bytes message =
      if message.length < 40 then ⟨message, [], []⟩
      else if word bytes (message.offset + 16) ≠ 1 then ⟨message, [], [message.offset + 20]⟩
      else if word bytes (message.offset + 20) ≠ 1 then
        ⟨message, [], [message.offset + 20, message.offset + 24]⟩
      else
        ⟨message,
          (listenEvent bytes (message.offset + message.length) (message.offset + 36)).1,
          [message.offset + 20, message.offset + 24, message.offset + 40] ++
            (listenEvent bytes (message.offset + message.length) (message.offset + 36)).2⟩ := by
  obtain ⟨minimum, inside⟩ := accepted
  have size : ((bytes.drop (message.offset + 16)).take (message.length - 16)).length =
      message.length - 16 := by
    rw [List.length_take, List.length_drop]
    omega
  have field : ∀ offset, offset + 4 ≤ message.length - 16 →
      word ((bytes.drop (message.offset + 16)).take (message.length - 16)) offset =
        word bytes (message.offset + 16 + offset) := by
    intro offset room
    rw [word_take _ room, word_drop]
  have eventField : ∀ offset, offset + 24 ≤ message.length - 16 →
      word (((bytes.drop (message.offset + 16)).take (message.length - 16)).drop 20) offset =
        word bytes (message.offset + 36 + offset) := by
    intro offset room
    rw [word_drop, field _ (by omega)]
    congr 1
    omega
  have eventSize : (((bytes.drop (message.offset + 16)).take (message.length - 16)).drop 20).length =
      message.length - 36 := by
    rw [List.length_drop, size]
    omega
  unfold parseMessage
  rw [if_neg (show ¬half bytes (message.offset + 4) = 2 from notError)]
  unfold parseConnector
  rw [size]
  by_cases short : message.length < 40
  · rw [if_pos (by omega), if_pos short]
    rfl
  · rw [if_neg (by omega), if_neg short, field 0 (by omega), field 4 (by omega)]
    dsimp only
    split
    · rfl
    · split
      · rfl
      · rw [eventSize, eventField 0 (by omega)]
        unfold listenEvent signedWord
        simp only [Nat.add_zero]
        by_cases fork : word bytes (message.offset + 36) = 1 ∧
            message.offset + 36 + 32 ≤ message.offset + message.length
        · have whole : 32 ≤ message.length - 36 := by omega
          rw [if_pos ⟨fork.1, whole⟩, if_pos fork, eventField 16 (by omega),
            eventField 24 (by omega)]
          rfl
        rw [if_neg fork, if_neg fun made => fork ⟨made.1, by omega⟩]
        by_cases exec : word bytes (message.offset + 36) = 2 ∧
            message.offset + 36 + 24 ≤ message.offset + message.length
        · have whole : 24 ≤ message.length - 36 := by omega
          rw [if_pos ⟨exec.1, whole⟩, if_pos exec, eventField 16 (by omega)]
          rfl
        rw [if_neg exec, if_neg fun made => exec ⟨made.1, by omega⟩]
        by_cases exit : word bytes (message.offset + 36) = 0x80000000 ∧
            message.offset + 36 + 32 ≤ message.offset + message.length
        · have whole : 32 ≤ message.length - 36 := by omega
          rw [if_pos ⟨exit.1, whole⟩, if_pos exit, eventField 16 (by omega),
            eventField 24 (by omega), eventField 28 (by omega)]
          rfl
        rw [if_neg exit, if_neg fun made => exit ⟨made.1, by omega⟩]
        rfl

/-! ## The connector of one message -/

theorem parseMessage_within (accepted : message.Accepted bytes)
    (notError : ¬message.IsError bytes) : (parseMessage bytes message).Within := by
  rw [parseMessage_connector accepted notError]
  have inside := listenEvent_within bytes (message.offset + message.length)
    (message.offset + 36)
  split
  · simp [Reading.Within]
  · split
    · simp [Reading.Within]
      omega
    · split
      · simp [Reading.Within]
        omega
      · intro fieldEnd member
        rcases List.mem_append.mp member with ids | event
        · dsimp only
          simp at ids
          omega
        · exact inside fieldEnd event

/-- What the daemon makes of a message that it does not stop at. -/
theorem listenConnector_eq (message : Message) :
    listenConnector bytes bytes.length message =
      if message.Active bytes then
        ⟨message, (listenEvent bytes bytes.length (message.offset + 36)).1,
          [message.offset + 20, message.offset + 24, message.offset + 40] ++
            (listenEvent bytes bytes.length (message.offset + 36)).2⟩
      else ⟨message, [], [message.offset + 20, message.offset + 24]⟩ := by
  unfold listenConnector
  dsimp only
  by_cases ids : word bytes (message.offset + 16) = 1 ∧ word bytes (message.offset + 20) = 1
  · rw [if_pos ids]
    by_cases event : message.offset + 40 ≤ bytes.length
    · rw [if_pos event, if_pos ⟨ids.1, ids.2, event⟩]
      rfl
    · rw [if_neg event, if_neg fun active => event active.2.2]
  · rw [if_neg ids, if_neg fun active => ids ⟨active.1, active.2.1⟩]

/-- `parse_frames` makes of a message what the daemon does, or nothing. -/
theorem parse_or (accepted : message.Accepted bytes) (notError : ¬message.IsError bytes) :
    (parseMessage bytes message).frames = [] ∨
      (parseMessage bytes message).frames =
        (listenConnector bytes bytes.length message).frames := by
  have inside := accepted.inside
  rw [parseMessage_connector accepted notError, listenConnector_eq message]
  split
  · exact Or.inl rfl
  · rename_i long
    split
    · exact Or.inl rfl
    · rename_i index
      split
      · exact Or.inl rfl
      · rename_i value
        rw [if_pos ⟨not_not.mp index, not_not.mp value, by omega⟩]
        rcases listenEvent_mono bytes (message.offset + 36) inside with none | same
        · exact Or.inl (by rw [none])
        · exact Or.inr (by rw [same])

variable (bytes) in
theorem listenConnector_events (message : Message) :
    (listenConnector bytes bytes.length message).frames = [] ∨
      ∃ frame, frame.isEvent = true ∧
        (listenConnector bytes bytes.length message).frames = [frame] := by
  rw [listenConnector_eq message]
  split
  · rcases listenEvent_frames bytes bytes.length (message.offset + 36) with none | made
    · exact Or.inl (by rw [none])
    · exact Or.inr made
  · exact Or.inl rfl

/-- The event is made from the message alone: the same frames, and no end
outside. -/
theorem listenEvent_own_iff (inside : message.offset + message.length ≤ bytes.length) :
    (listenEvent bytes (message.offset + message.length) (message.offset + 36)).1 =
        (listenEvent bytes bytes.length (message.offset + 36)).1 ↔
      listenEvent bytes (message.offset + message.length) (message.offset + 36) =
        listenEvent bytes bytes.length (message.offset + 36) := by
  constructor
  · intro same
    rcases listenEvent_mono bytes (message.offset + 36) inside with none | all
    · rcases listenEvent_frames bytes bytes.length (message.offset + 36) with
        empty | ⟨frame, -, made⟩
      · rw [none, empty]
      · rw [none, made] at same
        contradiction
    · exact all
  · intro all
    rw [all]

/-- The step lemma for a message that the daemon does not stop at. -/
theorem connector_agrees_iff (accepted : message.Accepted bytes)
    (notError : ¬message.IsError bytes) :
    ((parseMessage bytes message).frames =
        (listenConnector bytes bytes.length message).frames ∧
      (listenConnector bytes bytes.length message).Within) ↔ message.EventComplete bytes := by
  have inside := accepted.inside
  have maybe := parse_or accepted notError
  by_cases active : message.Active bytes
  · obtain ⟨index, value, event⟩ := active
    have complete := listenEvent_frames_eq_iff bytes (message.offset + 36) inside
    have parsed := parseMessage_connector accepted notError
    rw [if_neg (not_not.mpr index), if_neg (not_not.mpr value)] at parsed
    rw [listenConnector_eq message, if_pos ⟨index, value, event⟩, parsed]
    constructor
    · rintro ⟨same, within⟩
      have whole : message.offset + 40 ≤ message.offset + message.length :=
        within (message.offset + 40) (by simp)
      rw [if_neg (by omega)] at same
      obtain ⟨exec, task⟩ := complete.mp same
      refine ⟨by omega, fun _ => ⟨by omega, ?_, ?_⟩⟩
      · intro what room
        have own := exec what room
        omega
      · intro what room
        have own := task what room
        omega
    · rintro ⟨-, events⟩
      obtain ⟨whole, exec, task⟩ := events ⟨index, value, event⟩
      have same := complete.mpr
        ⟨fun what room => by have own := exec what room; omega,
          fun what room => by have own := task what room; omega⟩
      rw [if_neg (by omega)]
      refine ⟨same, ?_⟩
      intro fieldEnd member
      rw [← (listenEvent_own_iff inside).mp same] at member
      dsimp only
      rcases List.mem_append.mp member with header | own
      · simp at header
        omega
      · exact listenEvent_within bytes _ _ fieldEnd own
  · rw [listenConnector_eq message, if_neg active] at maybe ⊢
    constructor
    · rintro ⟨-, within⟩
      have ids : message.offset + 24 ≤ message.offset + message.length :=
        within (message.offset + 24) (by simp)
      exact ⟨by omega, fun present => absurd present active⟩
    · rintro ⟨ids, -⟩
      refine ⟨maybe.elim id id, ?_⟩
      intro fieldEnd member
      simp at member
      dsimp only
      omega

/-! ## The error of one message -/

theorem parse_error_within_iff (isError : message.IsError bytes) :
    (parseMessage bytes message).Within ↔ message.ErrorComplete bytes := by
  rw [parseMessage_error isError]
  unfold Message.ErrorComplete Reading.Within
  split
  · simp
    omega
  · simp
    omega

theorem error_agrees (accepted : message.Accepted bytes) (isError : message.IsError bytes)
    (complete : message.ErrorComplete bytes) :
    (parseMessage bytes message).frames = errorFrames (listenError bytes message).1 := by
  have inside := accepted.inside
  rw [parseMessage_error isError]
  unfold listenError
  rcases complete with own | absent
  · rw [if_pos own, if_pos (by omega)]
  · rw [if_neg (by omega), if_neg (by omega)]

theorem parse_at_end (accepted : message.Accepted bytes)
    (atEnd : bytes.length < message.offset + 20) :
    (parseMessage bytes message).frames =
      if message.IsError bytes then [.kernelError (-eproto)] else [] := by
  have inside := accepted.inside
  split
  · rename_i isError
    rw [parseMessage_error isError, if_neg (by omega)]
    rfl
  · rename_i notError
    rw [parseMessage_connector accepted notError, if_pos (by omega)]

theorem listenError_eq_zero_iff :
    (listenError bytes message).1 = 0 ↔ message.Acknowledges bytes := by
  unfold listenError Message.Acknowledges
  split
  · rename_i own
    exact ⟨fun code => ⟨own, code⟩, fun acknowledged => acknowledged.2⟩
  · rename_i short
    exact ⟨nofun, fun acknowledged => absurd acknowledged.1 short⟩

theorem listenError_within (message : Message) :
    ∀ fieldEnd ∈ (listenError bytes message).2,
      fieldEnd ≤ message.offset + message.length := by
  unfold listenError
  split
  · simp
    omega
  · simp

end Message

/-! ## The chain -/

section Chain

variable {bytes : List UInt8}

/-- The frames `parse_frames` makes of a chain. -/
def parsed (bytes : List UInt8) (messages : List Message) : List Frame :=
  (messages.map (parseMessage bytes)).flatMap Reading.frames

/-- The frames the daemon makes of it. -/
def listened (bytes : List UInt8) (messages : List Message) : List Frame :=
  (listenMessages bytes messages).flatMap Reading.frames

/-- A chain of messages of the buffer, each after the header of the one before. -/
structure Chain (bytes : List UInt8) (messages : List Message) : Prop where
  accepted : ∀ message ∈ messages, message.Accepted bytes
  ordered : messages.Pairwise fun message later => message.offset + 16 ≤ later.offset

theorem Chain.tail {message : Message} {rest : List Message}
    (chain : Chain bytes (message :: rest)) : Chain bytes rest where
  accepted later member := chain.accepted later (List.mem_cons_of_mem message member)
  ordered := chain.ordered.of_cons

/-- Every error has its code in the message, or not at all. -/
def ErrorsComplete (bytes : List UInt8) (messages : List Message) : Prop :=
  ∀ message ∈ messages, message.IsError bytes → message.ErrorComplete bytes

theorem ErrorsComplete.tail {message : Message} {rest : List Message}
    (complete : ErrorsComplete bytes (message :: rest)) : ErrorsComplete bytes rest :=
  fun later member => complete later (List.mem_cons_of_mem message member)

theorem parsed_cons (message : Message) (rest : List Message) :
    parsed bytes (message :: rest) = (parseMessage bytes message).frames ++ parsed bytes rest :=
  rfl

theorem upToError_event {frame : Frame} (isEvent : frame.isEvent = true) (frames : List Frame) :
    upToError (frame :: frames) = frame :: upToError frames :=
  if_pos isEvent

theorem upToError_eq_nil_iff (frames : List Frame) : upToError frames = [] ↔ frames = [] := by
  cases frames with
  | nil => exact ⟨fun _ => rfl, fun _ => rfl⟩
  | cons frame rest =>
      unfold upToError
      split <;> simp

theorem listenMessages_error {message : Message} (isError : message.IsError bytes)
    (rest : List Message) :
    listenMessages bytes (message :: rest) =
      if (listenError bytes message).1 ≠ 0 then
        [⟨message, [.kernelError (listenError bytes message).1], (listenError bytes message).2⟩]
      else ⟨message, [], (listenError bytes message).2⟩ :: listenMessages bytes rest :=
  if_pos isError

theorem listenMessages_connector {message : Message} (notError : ¬message.IsError bytes)
    (rest : List Message) :
    listenMessages bytes (message :: rest) =
      if bytes.length < message.offset + 36 then [⟨message, [], []⟩]
      else listenConnector bytes bytes.length message :: listenMessages bytes rest :=
  if_neg notError

/-- Past a message without room for a header, only errors make frames. -/
theorem parse_later {message later : Message} {rest : List Message}
    (chain : Chain bytes (message :: rest)) (atEnd : bytes.length < message.offset + 36)
    (member : later ∈ rest) :
    (parseMessage bytes later).frames =
      if later.IsError bytes then [.kernelError (-eproto)] else [] := by
  have after := List.rel_of_pairwise_cons chain.ordered member
  exact parse_at_end (chain.tail.accepted later member) (by omega)

theorem parsed_at_end {message : Message} {rest : List Message}
    (chain : Chain bytes (message :: rest)) (atEnd : bytes.length < message.offset + 36) :
    parsed bytes rest = [] ↔ ∀ later ∈ rest, ¬later.IsError bytes := by
  unfold parsed
  rw [List.flatMap_eq_nil_iff, List.forall_mem_map]
  constructor
  · intro none later member isError
    have empty := none later member
    rw [parse_later chain atEnd member, if_pos isError] at empty
    contradiction
  · intro clean later member
    rw [parse_later chain atEnd member, if_neg (clean later member)]

theorem no_event_at_end {message : Message} {rest : List Message}
    (chain : Chain bytes (message :: rest)) (atEnd : bytes.length < message.offset + 36) :
    ∀ frame ∈ parsed bytes rest, frame.isEvent = false := by
  intro frame member
  unfold parsed at member
  rw [List.flatMap_map, List.mem_flatMap] at member
  obtain ⟨later, inRest, made⟩ := member
  rw [parse_later chain atEnd inRest] at made
  split at made
  · rw [List.mem_singleton.mp made]
    rfl
  · simp at made

theorem parse_connector_at_end {message : Message} (accepted : message.Accepted bytes)
    (notError : ¬message.IsError bytes) (atEnd : bytes.length < message.offset + 36) :
    (parseMessage bytes message).frames = [] := by
  have inside := accepted.inside
  rw [parseMessage_connector accepted notError, if_pos (by omega)]

theorem upToError_events (frames : List Frame) :
    (upToError frames).countP Frame.isEvent ≤ frames.countP Frame.isEvent := by
  induction frames with
  | nil => exact le_rfl
  | cons frame rest inductionHypothesis =>
      unfold upToError
      split
      · rename_i isEvent
        rw [List.countP_cons_of_pos isEvent, List.countP_cons_of_pos isEvent]
        omega
      · rename_i notEvent
        rw [List.countP_cons_of_neg notEvent]
        exact Nat.zero_le _

/-- The daemon makes every event that `parse_frames` makes. -/
theorem events_le {messages : List Message} (chain : Chain bytes messages)
    (complete : ErrorsComplete bytes messages) :
    (upToError (parsed bytes messages)).countP Frame.isEvent ≤
      (listened bytes messages).countP Frame.isEvent := by
  induction messages with
  | nil => exact le_rfl
  | cons message rest inductionHypothesis =>
      have accepted := chain.accepted message List.mem_cons_self
      have tail := inductionHypothesis chain.tail complete.tail
      unfold listened at tail ⊢
      rw [parsed_cons]
      by_cases isError : message.IsError bytes
      · rw [listenMessages_error isError,
          error_agrees accepted isError (complete message List.mem_cons_self isError)]
        unfold errorFrames
        split
        · exact le_rfl
        · exact tail
      · rw [listenMessages_connector isError]
        split
        · rename_i atEnd
          rw [parse_connector_at_end accepted isError atEnd, List.nil_append]
          refine (upToError_events _).trans (le_of_eq ?_)
          rw [List.countP_eq_zero.mpr fun frame member => by
            rw [no_event_at_end chain atEnd frame member]
            exact Bool.false_ne_true]
          rfl
        · rw [List.flatMap_cons, List.countP_append]
          rcases parse_or accepted isError with none | same
          · rw [none, List.nil_append]
            omega
          · rw [same]
            rcases listenConnector_events bytes message with none | ⟨frame, isEvent, made⟩
            · rw [none, List.nil_append, List.countP_nil]
              omega
            · rw [made, List.singleton_append, upToError_event isEvent,
                List.countP_cons_of_pos isEvent, List.countP_singleton, isEvent]
              simp only [if_true]
              omega

/-- The daemon agrees with `parse_frames` on a chain and reads every field from
its own message. -/
def ChainAgrees (bytes : List UInt8) (messages : List Message) : Prop :=
  listened bytes messages = upToError (parsed bytes messages) ∧
    ∀ reading ∈ listenMessages bytes messages, reading.Within

/-- The step lemma at an error. -/
theorem chainAgrees_error_iff {message : Message} {rest : List Message}
    (chain : Chain bytes (message :: rest)) (complete : ErrorsComplete bytes (message :: rest))
    (isError : message.IsError bytes) :
    ChainAgrees bytes (message :: rest) ↔
      (message.Acknowledges bytes → ChainAgrees bytes rest) := by
  rw [← listenError_eq_zero_iff]
  unfold ChainAgrees listened
  rw [listenMessages_error isError, parsed_cons, error_agrees (chain.accepted message
    List.mem_cons_self) isError (complete message List.mem_cons_self isError)]
  unfold errorFrames
  by_cases code : (listenError bytes message).1 = 0
  · rw [if_neg (not_not.mpr code), if_neg (not_not.mpr code), List.forall_mem_cons]
    constructor
    · rintro ⟨same, -, within⟩ -
      exact ⟨same, within⟩
    · intro agrees
      exact ⟨(agrees code).1, listenError_within message, (agrees code).2⟩
  · rw [if_pos code, if_pos code, List.forall_mem_singleton]
    constructor
    · intro _ acknowledged
      exact absurd acknowledged code
    · intro _
      exact ⟨rfl, listenError_within message⟩

/-- The step lemma at a message without room for a connector header. -/
theorem chainAgrees_at_end_iff {message : Message} {rest : List Message}
    (chain : Chain bytes (message :: rest)) (notError : ¬message.IsError bytes)
    (atEnd : bytes.length < message.offset + 36) :
    ChainAgrees bytes (message :: rest) ↔ ∀ later ∈ rest, ¬later.IsError bytes := by
  unfold ChainAgrees listened
  rw [listenMessages_connector notError, if_pos atEnd, parsed_cons, parse_connector_at_end
    (chain.accepted message List.mem_cons_self) notError atEnd, List.nil_append,
    List.forall_mem_singleton, ← parsed_at_end chain atEnd, ← upToError_eq_nil_iff]
  constructor
  · rintro ⟨none, -⟩
    exact none.symm
  · intro none
    exact ⟨none.symm, nofun⟩

/-- The step lemma at a message that the daemon does not stop at: an event that
only the daemon makes is not made up for later. -/
theorem chainAgrees_connector_iff {message : Message} {rest : List Message}
    (chain : Chain bytes (message :: rest)) (complete : ErrorsComplete bytes (message :: rest))
    (notError : ¬message.IsError bytes) (room : ¬bytes.length < message.offset + 36) :
    ChainAgrees bytes (message :: rest) ↔
      message.EventComplete bytes ∧ ChainAgrees bytes rest := by
  have accepted := chain.accepted message List.mem_cons_self
  have fewer := events_le chain.tail complete.tail
  rw [← connector_agrees_iff accepted notError]
  unfold ChainAgrees listened at *
  rw [listenMessages_connector notError, if_neg room, parsed_cons, List.flatMap_cons,
    List.forall_mem_cons]
  rcases listenConnector_events bytes message with none | ⟨frame, isEvent, made⟩
  · have parsedNone : (parseMessage bytes message).frames = [] := by
      rcases parse_or accepted notError with empty | same
      · exact empty
      · rw [same, none]
    rw [none, parsedNone, List.nil_append, List.nil_append]
    tauto
  · rw [made]
    rcases parse_or accepted notError with empty | same
    · rw [empty, List.nil_append, List.singleton_append]
      constructor
      · rintro ⟨equal, -⟩
        rw [← equal, List.countP_cons_of_pos isEvent] at fewer
        omega
      · rintro ⟨⟨impossible, -⟩, -⟩
        contradiction
    · rw [same, made, List.singleton_append, List.singleton_append, upToError_event isEvent,
        List.cons.injEq]
      tauto

theorem chainAgrees_iff {messages : List Message} (chain : Chain bytes messages)
    (complete : ErrorsComplete bytes messages) :
    ChainAgrees bytes messages ↔ Contained bytes messages := by
  induction messages with
  | nil => exact ⟨fun _ => trivial, fun _ => ⟨rfl, nofun⟩⟩
  | cons message rest inductionHypothesis =>
      have tail := inductionHypothesis chain.tail complete.tail
      unfold Contained
      split
      · rename_i isError
        rw [chainAgrees_error_iff chain complete isError, tail]
      · rename_i notError
        split
        · rename_i atEnd
          exact chainAgrees_at_end_iff chain notError atEnd
        · rename_i room
          rw [chainAgrees_connector_iff chain complete notError room, tail]

/-- `parse_frames` reads every field from its own message exactly when no error
is cut short. -/
theorem parsed_within_iff {messages : List Message} (chain : Chain bytes messages) :
    (∀ message ∈ messages, (parseMessage bytes message).Within) ↔
      ErrorsComplete bytes messages := by
  constructor
  · intro within message member isError
    exact (parse_error_within_iff isError).mp (within message member)
  · intro complete message member
    by_cases isError : message.IsError bytes
    · exact (parse_error_within_iff isError).mpr (complete message member isError)
    · exact parseMessage_within (chain.accepted message member) isError

end Chain

/-! ## Two parsers -/

/-- The daemon and `parse_frames` agree on what was received, up to the first
kernel error, and neither reads a field beyond the end of its message. -/
structure ParsersAgree (buffer : List UInt8) (received : Nat) : Prop where
  frames : listenFrames buffer received = upToError (parseFrames (buffer.take received))
  listened : ∀ reading ∈ listenReadings buffer received 0, reading.Within
  parsed : ∀ reading ∈ parseReadings (buffer.take received) 0, reading.Within

theorem chain_messagesFrom (bytes : List UInt8) (offset : Nat) :
    Chain bytes (messagesFrom bytes offset) where
  accepted message member := ((messagesFrom_spec bytes offset).1 message member).2
  ordered := (messagesFrom_spec bytes offset).2

/-- For every buffer and every received length: the two parsers agree, each field
read from its own message, exactly when no error is cut short and every message
the daemon meets is complete. -/
theorem parsers_agree_iff (buffer : List UInt8) (received : Nat)
    (fits : received ≤ buffer.length) :
    ParsersAgree buffer received ↔
      ErrorsComplete (buffer.take received) (messagesFrom (buffer.take received) 0) ∧
        Contained (buffer.take received) (messagesFrom (buffer.take received) 0) := by
  have chain := chain_messagesFrom (buffer.take received) 0
  constructor
  · rintro ⟨frames, listenedWithin, parsedWithin⟩
    rw [parseReadings_eq, List.forall_mem_map] at parsedWithin
    have complete := (parsed_within_iff chain).mp parsedWithin
    refine ⟨complete, (chainAgrees_iff chain complete).mp ⟨?_, ?_⟩⟩
    · unfold listened parsed
      rw [← listenReadings_eq buffer fits, ← parseReadings_eq]
      exact frames
    · rw [← listenReadings_eq buffer fits]
      exact listenedWithin
  · rintro ⟨complete, contained⟩
    obtain ⟨frames, within⟩ := (chainAgrees_iff chain complete).mpr contained
    refine ⟨?_, ?_, ?_⟩
    · unfold listenFrames parseFrames
      rw [listenReadings_eq buffer fits, parseReadings_eq]
      exact frames
    · rw [listenReadings_eq buffer fits]
      exact within
    · rw [parseReadings_eq, List.forall_mem_map]
      exact (parsed_within_iff chain).mpr complete

/-- One EXEC message of process 7, as the kernel lays it out. -/
def execMessage : List UInt8 :=
  [76, 0, 0, 0, 3, 0, 0, 0, 0, 0, 0, 0, 0, 0, 0, 0] ++
  [1, 0, 0, 0, 1, 0, 0, 0, 0, 0, 0, 0, 0, 0, 0, 0, 40, 0, 0, 0] ++
  [2, 0, 0, 0, 0, 0, 0, 0, 0, 0, 0, 0, 0, 0, 0, 0] ++
  [7, 0, 0, 0, 7, 0, 0, 0, 0, 0, 0, 0, 0, 0, 0, 0, 0, 0, 0, 0, 0, 0, 0, 0]

theorem parsers_agree_iff_exec : ParsersAgree execMessage 76 :=
  (parsers_agree_iff execMessage 76 (by decide)).mpr (by
    have chain : messagesFrom (execMessage.take 76) 0 = [⟨0, 76⟩] := by decide +kernel
    rw [chain]
    refine ⟨?_, ?_⟩
    · intro message member isError
      rw [List.mem_singleton.mp member] at isError
      exact absurd isError (by decide)
    · unfold Contained
      rw [if_neg (by decide), if_neg (by decide)]
      exact ⟨⟨by decide, fun _ => by decide⟩, trivial⟩)

/-- A message that ends after its connector identifiers, and another one. -/
def cutMessage : List UInt8 :=
  [24, 0, 0, 0, 3, 0, 0, 0, 0, 0, 0, 0, 0, 0, 0, 0, 1, 0, 0, 0, 1, 0, 0, 0] ++
  [44, 0, 0, 0, 3, 0, 0, 0, 0, 0, 0, 0, 1, 0, 0, 0, 0, 0, 0, 0, 0, 0, 0, 0] ++
  [0, 0, 0, 0, 7, 0, 0, 0, 0, 0, 0, 0, 9, 0, 0, 0, 0, 0, 0, 0]

/-- The daemon takes a FORK event for the first message from the second. -/
theorem cut_message_forks :
    messagesFrom (cutMessage.take 68) 0 = [⟨0, 24⟩, ⟨24, 44⟩] ∧
      listenFrames cutMessage 68 = [.fork 7 9] ∧
      parseFrames (cutMessage.take 68) = [] ∧
      ¬ParsersAgree cutMessage 68 := by
  have daemon : listenFrames cutMessage 68 = [.fork 7 9] := by decide +kernel
  have sibling : parseFrames (cutMessage.take 68) = [] := by decide +kernel
  refine ⟨by decide +kernel, daemon, sibling, ?_⟩
  rintro ⟨frames, -, -⟩
  rw [daemon, sibling] at frames
  contradiction

end SystemPilot.Netlink
