import SystemPilot.Netlink.Locality
import SystemPilot.Netlink.Overflow
import SystemPilot.Netlink.Threads

/-!
# Messages and their frames

Well-formed messages of any length, one behind another, and what `parse_frames`
makes of them: the encoded events and the errors that are not zero, in order.
-/

set_option autoImplicit false

namespace SystemPilot.Netlink

open SystemPilot.Library.Checked

/-- What a message says, with the bytes between its fields. -/
inductive Content where
  | error (code : Int32)
  | event (connector clock : Vector UInt8 12) (task : TaskEvent)

namespace Content

def bytes : Content → List UInt8
  | error code => wordBytes code
  | event connector clock task =>
      [1, 0, 0, 0, 1, 0, 0, 0] ++
        (connector.toList ++ (task.what ++ (clock.toList ++ task.fields)))

/-- An error that is not zero, or the event. -/
def frames : Content → List Frame
  | error code => errorFrames code.toInt
  | event _ _ task => [task.frame]

def IsError : Content → Prop
  | error _ => True
  | event _ _ _ => False

end Content

theorem half_drop (bytes : List UInt8) (count offset : Nat) :
    half (bytes.drop count) offset = half bytes (count + offset) := by
  unfold half
  rw [byteAt_drop, byteAt_drop, Nat.add_assoc]

/-- The four bytes of a `u32`. -/
def lengthBytes (value : UInt32) : List UInt8 :=
  [UInt8.ofNat value.toNat, UInt8.ofNat (value.toNat / 256), UInt8.ofNat (value.toNat / 65536),
    UInt8.ofNat (value.toNat / 16777216)]

/-- `nlmsghdr` and a content, more payload than is read, and padding to four
bytes; the declared length leaves the padding out. -/
structure WireMessage where
  length : UInt32
  kind : Vector UInt8 2
  rest : Vector UInt8 10
  content : Content
  more : List UInt8
  padding : List UInt8
  kinds : half kind.toList 0 = 2 ↔ content.IsError
  declared : length.toNat = 16 + content.bytes.length + more.length
  padded : length.toNat + padding.length = nlmsgAlign length.toNat

namespace WireMessage

variable (message : WireMessage)

/-- The message up to its declared length. -/
def declaredBytes : List UInt8 :=
  lengthBytes message.length ++ (message.kind.toList ++ (message.rest.toList ++
    (message.content.bytes ++ message.more)))

def bytes : List UInt8 :=
  message.declaredBytes ++ message.padding

theorem length_declaredBytes : message.declaredBytes.length = message.length.toNat := by
  rw [message.declared]
  simp [declaredBytes, lengthBytes]
  omega

theorem length_bytes : message.bytes.length = nlmsgAlign message.length.toNat := by
  unfold bytes
  rw [List.length_append, length_declaredBytes, message.padded]

theorem word_declaredBytes (rest : List UInt8) :
    word (message.declaredBytes ++ rest) 0 = message.length.toNat := by
  have bound : message.length.toNat < 2 ^ 32 := message.length.toNat_lt
  have bytes : word (message.declaredBytes ++ rest) 0 =
      message.length.toNat % 256 + 256 * (message.length.toNat / 256 % 256) +
        65536 * (message.length.toNat / 65536 % 256 +
          256 * (message.length.toNat / 16777216 % 256)) := rfl
  omega

theorem half_declaredBytes : half message.declaredBytes 4 = half message.kind.toList 0 := by
  have behind : message.declaredBytes.drop 4 = message.kind.toList ++ (message.rest.toList ++
      (message.content.bytes ++ message.more)) := rfl
  have own : (message.declaredBytes.drop 4).take 2 = message.kind.toList := by
    rw [behind]
    exact List.take_left' (by simp)
  rw [show 4 = 4 + 0 from rfl, ← half_drop, ← half_take _ (Nat.le_refl 2), own]

theorem drop_declaredBytes :
    message.declaredBytes.drop 16 = message.content.bytes ++ message.more := by
  unfold declaredBytes
  rw [← List.append_assoc, ← List.append_assoc]
  exact List.drop_left' (by simp [lengthBytes])

end WireMessage

/-! ## One message alone -/

section Alone

variable (message : WireMessage)

/-- The declared bytes are one message of the buffer they make. -/
def WireMessage.whole : Message := ⟨0, message.length.toNat⟩

theorem accepted_whole : message.whole.Accepted message.declaredBytes where
  minimum := by
    rw [WireMessage.whole, message.declared]
    dsimp only
    omega
  inside := by
    rw [WireMessage.whole, message.length_declaredBytes]
    dsimp only
    omega

theorem isError_whole :
    message.whole.IsError message.declaredBytes ↔ message.content.IsError := by
  rw [← message.kinds, ← message.half_declaredBytes]
  exact Iff.rfl

theorem signedWord_content (offset : Nat) :
    signedWord message.declaredBytes (16 + offset) =
      signedWord (message.content.bytes ++ message.more) offset := by
  rw [← message.drop_declaredBytes, signedWord_drop]

theorem word_content (offset : Nat) :
    word message.declaredBytes (16 + offset) =
      word (message.content.bytes ++ message.more) offset := by
  rw [← message.drop_declaredBytes, word_drop]

theorem parseMessage_error_content {code : Int32} (content : message.content = .error code) :
    (parseMessage message.declaredBytes message.whole).frames = message.content.frames := by
  have isError : message.whole.IsError message.declaredBytes :=
    (isError_whole message).mpr (by rw [content]; trivial)
  have size := message.length_declaredBytes
  have declared := message.declared
  have field := signedWord_content message 0
  rw [content] at declared field
  rw [Content.bytes, length_wordBytes] at declared
  rw [Content.bytes, signedWord_wordBytes] at field
  rw [parseMessage_error isError, if_pos (by
    rw [WireMessage.whole]
    dsimp only
    omega), content]
  exact congrArg errorFrames field

theorem drop_event_content (connector clock : Vector UInt8 12) (task : TaskEvent)
    (more : List UInt8) :
    ((Content.event connector clock task).bytes ++ more).drop 20 =
      task.what ++ (clock.toList ++ (task.fields ++ more)) := by
  simp [Content.bytes]

theorem drop_fields_content (connector clock : Vector UInt8 12) (task : TaskEvent)
    (more : List UInt8) :
    ((Content.event connector clock task).bytes ++ more).drop 36 = task.fields ++ more := by
  rw [show 36 = 20 + 16 from rfl, ← List.drop_drop, drop_event_content, ← List.append_assoc]
  exact List.drop_left' (by simp [length_what])

theorem parseMessage_event_content {connector clock : Vector UInt8 12} {task : TaskEvent}
    (content : message.content = .event connector clock task) :
    (parseMessage message.declaredBytes message.whole).frames = message.content.frames := by
  have notError : ¬message.whole.IsError message.declaredBytes := by
    rw [isError_whole, content]
    exact id
  have declared := message.declared
  have size : message.content.bytes.length = 36 + task.fields.length := by
    rw [content]
    simp [Content.bytes, length_what]
    omega
  have what : word message.declaredBytes 36 =
      word (task.what ++ (clock.toList ++ (task.fields ++ message.more))) 0 := by
    rw [← drop_event_content connector, ← content, word_drop, ← word_content]
  have fields : ∀ field, signedWord message.declaredBytes (36 + 16 + field) =
      signedWord (task.fields ++ message.more) field := by
    intro field
    rw [← drop_fields_content connector clock, ← content, signedWord_drop, ← signedWord_content,
      ← Nat.add_assoc]
  have index : word message.declaredBytes 16 = 1 := by
    rw [show 16 = 16 + 0 from rfl, word_content, content]
    rfl
  have value : word message.declaredBytes 20 = 1 := by
    rw [show 20 = 16 + 4 from rfl, word_content, content]
    rfl
  have event : (listenEvent message.declaredBytes message.length.toNat 36).1 = [task.frame] :=
    listenEvent_fields what fields (by omega)
  rw [parseMessage_connector (accepted_whole message) notError]
  unfold WireMessage.whole
  dsimp only
  rw [if_neg (by omega), Nat.zero_add, Nat.zero_add, Nat.zero_add, Nat.zero_add,
    if_neg (not_not.mpr index), if_neg (not_not.mpr value), event, content]
  rfl

theorem parseMessage_content :
    (parseMessage message.declaredBytes message.whole).frames = message.content.frames := by
  cases content : message.content with
  | error code => rw [← content, parseMessage_error_content message content]
  | event connector clock task => rw [← content, parseMessage_event_content message content]

end Alone

/-! ## Messages one behind another -/

section Concatenation

variable {bytes : List UInt8} {offset : Nat}

/-- A message at an offset, up to its declared length. -/
theorem own_at {message : WireMessage} {rest : List UInt8}
    (starts : bytes.drop offset = message.bytes ++ rest) :
    (⟨offset, message.length.toNat⟩ : Message).own bytes = message.declaredBytes := by
  unfold Message.own
  dsimp only
  rw [starts, WireMessage.bytes, List.append_assoc]
  exact List.take_left' message.length_declaredBytes

theorem length_at {message : WireMessage} {rest : List UInt8}
    (starts : bytes.drop offset = message.bytes ++ rest) :
    offset + nlmsgAlign message.length.toNat + rest.length = bytes.length := by
  have minimum := (accepted_whole message).minimum
  have size := congrArg List.length starts
  rw [List.length_drop, List.length_append, message.length_bytes] at size
  unfold WireMessage.whole at minimum
  unfold nlmsgAlign at size ⊢
  dsimp only at minimum
  omega

theorem accepted_at {message : WireMessage} {rest : List UInt8}
    (starts : bytes.drop offset = message.bytes ++ rest) :
    (⟨offset, message.length.toNat⟩ : Message).Accepted bytes := by
  have size := length_at starts
  unfold nlmsgAlign at size
  exact ⟨(accepted_whole message).minimum, by dsimp only; omega⟩

theorem half_at {message : WireMessage} {rest : List UInt8}
    (starts : bytes.drop offset = message.bytes ++ rest) :
    half bytes (offset + 4) = half message.declaredBytes 4 := by
  have minimum := (accepted_at starts).minimum
  dsimp only at minimum
  rw [← own_at starts]
  exact (@half_own bytes ⟨offset, message.length.toNat⟩ 4 (by dsimp only; omega)).symm

/-- An error message has room for its code. -/
theorem error_whole (message : WireMessage) (isError : message.content.IsError) :
    20 ≤ message.length.toNat := by
  have declared := message.declared
  cases content : message.content with
  | error code =>
      rw [content, Content.bytes, length_wordBytes] at declared
      omega
  | event connector clock task =>
      rw [content] at isError
      exact absurd isError id

/-- The message at an offset is read as it is alone. -/
theorem parseMessage_at {message : WireMessage} {rest : List UInt8}
    (starts : bytes.drop offset = message.bytes ++ rest) :
    (parseMessage bytes ⟨offset, message.length.toNat⟩).frames = message.content.frames := by
  have whole : (⟨offset, message.length.toNat⟩ : Message).IsError bytes →
      20 ≤ message.length.toNat := by
    intro isError
    apply error_whole message
    rw [← isError_whole message]
    exact (half_at starts).symm.trans isError
  rw [parseMessage_own (accepted_at starts) whole, own_at starts]
  exact parseMessage_content message

/-- The loop makes the frames of the message and goes on behind its padding. -/
theorem parseReadings_message {message : WireMessage} {rest : List UInt8}
    (starts : bytes.drop offset = message.bytes ++ rest) :
    (parseReadings bytes offset).flatMap Reading.frames =
      message.content.frames ++
        (parseReadings bytes (offset + message.bytes.length)).flatMap Reading.frames := by
  have accepted := accepted_at starts
  have minimum := accepted.minimum
  have inside := accepted.inside
  dsimp only at minimum inside
  have length : word bytes offset = message.length.toNat := by
    rw [← Nat.add_zero offset, ← word_drop, starts, WireMessage.bytes, List.append_assoc]
    exact message.word_declaredBytes _
  rw [parseReadings, dif_pos (by omega)]
  dsimp only
  rw [length, dif_neg (by omega), List.flatMap_cons, parseMessage_at starts, message.length_bytes]

theorem parseReadings_messages (messages : List WireMessage)
    (starts : bytes.drop offset = messages.flatMap WireMessage.bytes) :
    (parseReadings bytes offset).flatMap Reading.frames =
      messages.flatMap fun message => message.content.frames := by
  induction messages generalizing offset with
  | nil =>
      have ended : bytes.length ≤ offset := List.drop_eq_nil_iff.mp starts
      rw [parseReadings, dif_neg (by omega)]
      rfl
  | cons message others inductionHypothesis =>
      have next : bytes.drop (offset + message.bytes.length) =
          others.flatMap WireMessage.bytes := by
        rw [← List.drop_drop, starts]
        exact List.drop_left
      rw [parseReadings_message starts, inductionHypothesis next, List.flatMap_cons]

end Concatenation

/-! ## Both parsers -/

/-- The part of the buffer that was received. -/
def Received.slice (received : Received) : ByteSlice where
  bytes := received.buffer.take received.length
  bounded := (List.length_take_le' _ _).trans_lt received.bounded

/-- Both loops end, each pass at least 16 bytes further, and no check fails. -/
structure ParsersSafe (received : Received) : Prop where
  parseAdvances : ∀ {offset next : Nat} {frames : List Frame},
    (parseScanner received.slice).body offset = .ok (.next frames next) → offset + 16 ≤ next
  listenAdvances : ∀ {offset next : Nat} {frames : List Frame},
    (listenScanner received).body offset = .ok (.next frames next) → offset + 16 ≤ next
  parsePasses : ∀ {count : Nat}, (parseScanner received.slice).Passes 0 count →
    16 * count ≤ received.length
  listenPasses : ∀ {count : Nat}, (listenScanner received).Passes 0 count →
    16 * count ≤ received.length
  parsed : ∃ frames, parseFramesChecked received.slice = .ok frames
  listened : ∃ frames, listenFramesChecked received = .ok frames

/-- Messages that fit one allocation together. -/
structure MessageStream where
  messages : List WireMessage
  bounded : (messages.flatMap WireMessage.bytes).length < 2 ^ 63

def MessageStream.slice (stream : MessageStream) : ByteSlice :=
  ⟨stream.messages.flatMap WireMessage.bytes, stream.bounded⟩

def MessageStream.frames (stream : MessageStream) : List Frame :=
  stream.messages.flatMap fun message => message.content.frames

/-- Both parsers are safe on a receive exactly when the daemon gets to no error
whose code has no negative, and `parse_frames` makes of well-formed messages the
encoded events and the errors that are not zero. -/
theorem parsers_safe_iff (received : Received) (stream : MessageStream) :
    (ParsersSafe received ↔
      ¬LeastReached received.slice.bytes (messagesFrom received.slice.bytes 0)) ∧
    parseFramesChecked stream.slice = .ok stream.frames := by
  constructor
  · have size : received.slice.bytes.length = received.length :=
      List.length_take_of_le received.fits
    constructor
    · intro safe
      obtain ⟨frames, listened⟩ := safe.listened
      apply (listenFramesChecked_ok_iff received).mp
      rcases listenFramesChecked_or received with aborts | made
      · rw [aborts] at listened
        contradiction
      · exact made
    · intro unreached
      refine ⟨?_, ?_, ?_, ?_, ?_, ?_⟩
      · intro offset next frames pass
        exact ((parseScanner received.slice).advances pass).2
      · intro offset next frames pass
        exact ((listenScanner received).advances pass).2
      · intro count passes
        rw [← size]
        exact passes.bounded
      · intro count passes
        exact passes.bounded
      · exact ⟨_, parseFramesChecked_ok received.slice⟩
      · exact ⟨_, (listenFramesChecked_ok_iff received).mpr unreached⟩
  · rw [parseFramesChecked_ok]
    exact congrArg Except.ok (parseReadings_messages stream.messages rfl)

/-- An error message whose code is the least `i32`. -/
def leastErrorMessage : List UInt8 :=
  [20, 0, 0, 0, 2, 0, 0, 0, 0, 0, 0, 0, 0, 0, 0, 0, 0, 0, 0, 0x80]

/-- The message in the daemon's buffer. -/
def leastErrorReceived : Received where
  buffer := leastErrorMessage ++ List.replicate 8172 0
  length := 20
  fits := by
    rw [List.length_append, List.length_replicate]
    decide
  bounded := by
    rw [List.length_append, List.length_replicate]
    decide

/-- The daemon aborts on it. -/
theorem least_error_aborts :
    listenFramesChecked leastErrorReceived = .error .overflow ∧
      ¬ParsersSafe leastErrorReceived := by
  have received : leastErrorReceived.buffer.take leastErrorReceived.length = leastErrorMessage :=
    List.take_left' (by decide)
  have chain : messagesFrom leastErrorMessage 0 = [⟨0, 20⟩] := by decide +kernel
  have reached : LeastReached leastErrorMessage (messagesFrom leastErrorMessage 0) := by
    rw [chain]
    refine ⟨[], ⟨0, 20⟩, [], rfl, ⟨by decide, by decide, by decide⟩, ?_⟩
    intro earlier member
    exact absurd member List.not_mem_nil
  have aborts : listenFramesChecked leastErrorReceived = .error .overflow := by
    rcases listenFramesChecked_or leastErrorReceived with overflow | made
    · exact overflow
    · have clean := (listenFramesChecked_ok_iff leastErrorReceived).mp made
      rw [received] at clean
      exact absurd reached clean
  refine ⟨aborts, ?_⟩
  intro safe
  obtain ⟨frames, made⟩ := safe.listened
  exact absurd (aborts.symm.trans made) (by simp)

end SystemPilot.Netlink
