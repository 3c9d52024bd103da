import SystemPilot.Netlink.Agreement

/-!
# Frames of a cut or changed buffer

Whether `parse_frames` makes of each message what the message's own bytes say.
A connector event is read from a slice of its message; the code of an error is
read from the buffer, so that an error message shorter than its code takes it
from whatever follows.
-/

set_option autoImplicit false

namespace SystemPilot.Netlink

/-- The bytes inside the declared length of a message. -/
def Message.own (bytes : List UInt8) (message : Message) : List UInt8 :=
  (bytes.drop message.offset).take message.length

/-- The frames made before the first message that reaches past `limit`. -/
def framesWithin (bytes : List UInt8) (limit : Nat) : List Frame :=
  ((parseReadings bytes 0).takeWhile fun reading =>
    reading.message.offset + reading.message.length ≤ limit).flatMap Reading.frames

/-- What a cut keeps is a prefix, each message is read from its own bytes, and
bytes after `limit` change no frame made before it. -/
structure Monotone (bytes : List UInt8) : Prop where
  cut : ∀ count ≤ bytes.length, parseFrames (bytes.take count) <+: parseFrames bytes
  own : ∀ message ∈ messagesFrom bytes 0, ∀ other : List UInt8,
    message.own other = message.own bytes →
      (parseMessage other message).frames = (parseMessage bytes message).frames
  earlier : ∀ (limit : Nat) (other : List UInt8), other.take limit = bytes.take limit →
    framesWithin other limit = framesWithin bytes limit

/-- No error message that the loop reaches ends before its code does. -/
def ErrorsWhole (bytes : List UInt8) : Prop :=
  ∀ message ∈ messagesFrom bytes 0, message.IsError bytes → 20 ≤ message.length

/-! ## One message -/

section Message

variable {bytes : List UInt8} {message : Message}

theorem length_own (accepted : message.Accepted bytes) :
    (message.own bytes).length = message.length := by
  have inside := accepted.inside
  unfold Message.own
  rw [List.length_take, List.length_drop]
  omega

theorem byteAt_own {offset : Nat} (inside : offset < message.length) :
    byteAt (message.own bytes) offset = byteAt bytes (message.offset + offset) := by
  unfold Message.own
  rw [byteAt_take _ inside, byteAt_drop]

theorem half_own {offset : Nat} (inside : offset + 2 ≤ message.length) :
    half (message.own bytes) offset = half bytes (message.offset + offset) := by
  unfold half
  rw [byteAt_own (by omega), byteAt_own (by omega), Nat.add_assoc]

theorem signedWord_own {offset : Nat} (inside : offset + 4 ≤ message.length) :
    signedWord (message.own bytes) offset = signedWord bytes (message.offset + offset) := by
  unfold Message.own
  rw [signedWord_take _ inside, signedWord_drop]

/-- The payload as a slice of the buffer or of the message. -/
theorem payload_own :
    ((message.own bytes).drop 16).take (message.length - 16) =
      (bytes.drop (message.offset + 16)).take (message.length - 16) := by
  unfold Message.own
  rw [List.drop_take, List.drop_drop, List.take_take, min_self]

/-- A whole message makes the same frames alone and in the buffer. -/
theorem parseMessage_own (accepted : message.Accepted bytes)
    (whole : message.IsError bytes → 20 ≤ message.length) :
    (parseMessage bytes message).frames =
      (parseMessage (message.own bytes) ⟨0, message.length⟩).frames := by
  have minimum := accepted.minimum
  have inside := accepted.inside
  have kind : half (message.own bytes) (0 + 4) = half bytes (message.offset + 4) :=
    half_own (by omega)
  by_cases isError : message.IsError bytes
  · have room := whole isError
    have alone : (⟨0, message.length⟩ : Message).IsError (message.own bytes) :=
      kind.trans isError
    rw [parseMessage_error isError, parseMessage_error alone, if_pos (by omega),
      length_own accepted, if_pos (by omega)]
    dsimp only
    rw [Nat.zero_add, signedWord_own room]
  · have alone : ¬(⟨0, message.length⟩ : Message).IsError (message.own bytes) :=
      fun also => isError (kind.symm.trans also)
    unfold parseMessage
    rw [if_neg (show ¬half bytes (message.offset + 4) = 2 from isError),
      if_neg (show ¬half (message.own bytes) (0 + 4) = 2 from alone)]
    dsimp only
    rw [Nat.zero_add, payload_own]

/-- Bytes outside a whole message do not change its frames. -/
theorem parseMessage_congr {other : List UInt8} (accepted : message.Accepted bytes)
    (whole : message.IsError bytes → 20 ≤ message.length)
    (same : message.own other = message.own bytes) :
    (parseMessage other message).frames = (parseMessage bytes message).frames := by
  have minimum := accepted.minimum
  have size : (message.own other).length = message.length := by
    rw [same, length_own accepted]
  have kept : message.Accepted other := by
    unfold Message.own at size
    rw [List.length_take, List.length_drop] at size
    exact ⟨minimum, by omega⟩
  have kind : half other (message.offset + 4) = half bytes (message.offset + 4) := by
    rw [← half_own (by omega), same, half_own (by omega)]
  rw [parseMessage_own kept fun isError => whole (kind.symm.trans isError),
    parseMessage_own accepted whole, same]

/-- The buffer up to the end of the message, and zeros after it. -/
def Message.padded (bytes : List UInt8) (message : Message) (zeros : Nat) : List UInt8 :=
  bytes.take (message.offset + message.length) ++ List.replicate zeros 0

theorem own_padded (accepted : message.Accepted bytes) (zeros : Nat) :
    message.own (message.padded bytes zeros) = message.own bytes := by
  have inside := accepted.inside
  have size : (bytes.take (message.offset + message.length)).length =
      message.offset + message.length := List.length_take_of_le inside
  unfold Message.own Message.padded
  rw [List.drop_append_of_le_length (by omega), List.take_append_of_le_length (by
    rw [List.length_drop]; omega), List.drop_take, List.take_take]
  congr 1
  omega

theorem length_padded (accepted : message.Accepted bytes) (zeros : Nat) :
    (message.padded bytes zeros).length = message.offset + message.length + zeros := by
  have inside := accepted.inside
  unfold Message.padded
  rw [List.length_append, List.length_replicate, List.length_take_of_le inside]

theorem isError_padded (accepted : message.Accepted bytes) (isError : message.IsError bytes)
    (zeros : Nat) : message.IsError (message.padded bytes zeros) := by
  have minimum := accepted.minimum
  have kind : half (message.padded bytes zeros) (message.offset + 4) =
      half bytes (message.offset + 4) := by
    rw [← half_own (by omega), own_padded accepted, half_own (by omega)]
  exact kind.trans isError

/-- The last byte of the code is the first zero that is past the message. -/
theorem code_padded (accepted : message.Accepted bytes) (short : message.length < 20) :
    0 ≤ signedWord (message.padded bytes 4) (message.offset + 16) := by
  have minimum := accepted.minimum
  have inside := accepted.inside
  have last : byteAt (message.padded bytes 4) (message.offset + 19) = 0 := by
    unfold byteAt Message.padded
    rw [List.getElem?_append_right (by rw [List.length_take_of_le inside]; omega),
      List.getElem?_replicate]
    split <;> rfl
  have bound : ∀ offset, byteAt (message.padded bytes 4) offset < 256 :=
    fun offset => UInt8.toNat_lt _
  have first := bound (message.offset + 16)
  have second := bound (message.offset + 17)
  have third := bound (message.offset + 18)
  unfold signedWord signed word half
  simp only [Nat.add_assoc, Nat.reduceAdd, last]
  split <;> omega

/-- An error message without room for a code reads as `EPROTO` at the end of the
buffer and as something else in front of zeros. -/
theorem short_error_differs (accepted : message.Accepted bytes)
    (isError : message.IsError bytes) (short : message.length < 20) :
    ∃ other, message.own other = message.own bytes ∧
      (parseMessage other message).frames ≠ (parseMessage bytes message).frames := by
  have minimum := accepted.minimum
  have atEnd : (parseMessage (message.padded bytes 0) message).frames =
      [.kernelError (-eproto)] := by
    rw [parseMessage_error (isError_padded accepted isError 0), length_padded accepted,
      if_neg (by omega)]
    rfl
  have inFront : (parseMessage (message.padded bytes 4) message).frames ≠
      [.kernelError (-eproto)] := by
    rw [parseMessage_error (isError_padded accepted isError 4), length_padded accepted,
      if_pos (by omega)]
    have code := code_padded accepted short
    unfold errorFrames eproto
    dsimp only
    split
    · rw [Ne, List.singleton_inj, Frame.kernelError.injEq]
      omega
    · simp
  by_cases same : (parseMessage bytes message).frames = [.kernelError (-eproto)]
  · exact ⟨message.padded bytes 4, own_padded accepted 4, by rw [same]; exact inFront⟩
  · exact ⟨message.padded bytes 0, own_padded accepted 0, by rw [atEnd]; exact Ne.symm same⟩

end Message

/-! ## The chain -/

section Chain

variable (bytes : List UInt8)

/-- The loop over a cut buffer accepts the messages up to the first that the cut
goes through. -/
theorem messagesFrom_take {count : Nat} (offset : Nat) :
    messagesFrom (bytes.take count) offset =
      (messagesFrom bytes offset).takeWhile fun message =>
        message.offset + message.length ≤ count := by
  have size : (bytes.take count).length = min count bytes.length := List.length_take
  fun_induction messagesFrom bytes offset with
  | case1 offset header length rejected =>
      rw [messagesFrom, List.takeWhile_nil]
      split
      · rename_i own
        rw [size] at own
        have sameLength : word (bytes.take count) offset = length := word_take bytes (by omega)
        dsimp only
        rw [sameLength, size, dif_pos (by omega)]
      · rfl
  | case2 offset header length rejected inductionHypothesis =>
      rw [messagesFrom, List.takeWhile_cons]
      dsimp only
      by_cases inside : offset + length ≤ count
      · have sameLength : word (bytes.take count) offset = length := word_take bytes (by omega)
        rw [dif_pos (by omega), sameLength, dif_neg (by omega), inductionHypothesis,
          if_pos (by exact decide_eq_true inside)]
      · rw [if_neg (by simpa using inside)]
        split
        · rename_i own
          rw [size] at own
          have sameLength : word (bytes.take count) offset = length :=
            word_take bytes (by omega)
          rw [sameLength, dif_pos (by omega)]
        · rfl
  | case3 offset header =>
      rw [messagesFrom, dif_neg (by omega), List.takeWhile_nil]

theorem parseMessage_message (message : Message) :
    (parseMessage bytes message).message = message := by
  unfold parseMessage
  split
  · split <;> rfl
  · rfl

/-- The frames before `limit` are those of the messages that a cut there keeps. -/
theorem framesWithin_eq (limit : Nat) :
    framesWithin bytes limit = parsed bytes (messagesFrom (bytes.take limit) 0) := by
  have same : ((fun reading : Reading =>
      decide (reading.message.offset + reading.message.length ≤ limit)) ∘ parseMessage bytes) =
        fun message => decide (message.offset + message.length ≤ limit) := by
    funext message
    rw [Function.comp_apply, parseMessage_message]
  unfold framesWithin parsed
  rw [parseReadings_eq, List.takeWhile_map, same, messagesFrom_take]

theorem framesWithin_prefix (limit : Nat) : framesWithin bytes limit <+: parseFrames bytes := by
  obtain ⟨later, all⟩ := List.takeWhile_prefix (l := parseReadings bytes 0)
    fun reading => decide (reading.message.offset + reading.message.length ≤ limit)
  refine ⟨later.flatMap Reading.frames, ?_⟩
  unfold framesWithin parseFrames
  rw [← List.flatMap_append, all]

variable {bytes}

theorem own_take {message : Message} {limit : Nat}
    (inside : message.offset + message.length ≤ limit) :
    message.own (bytes.take limit) = message.own bytes := by
  unfold Message.own
  rw [List.drop_take, List.take_take]
  congr 1
  omega

/-- A message that a cut keeps is one of the whole chain and ends before it. -/
theorem mem_messagesFrom_take {message : Message} {limit : Nat}
    (member : message ∈ messagesFrom (bytes.take limit) 0) :
    message ∈ messagesFrom bytes 0 ∧ message.offset + message.length ≤ limit := by
  rw [messagesFrom_take] at member
  exact ⟨List.takeWhile_subset _ member,
    of_decide_eq_true (List.all_eq_true.mp List.all_takeWhile message member)⟩

/-- The messages before `limit` make the same frames in buffers alike up to it. -/
theorem parsed_congr (whole : ErrorsWhole bytes) {limit : Nat} {other : List UInt8}
    (same : other.take limit = bytes.take limit) :
    parsed other (messagesFrom (bytes.take limit) 0) =
      parsed bytes (messagesFrom (bytes.take limit) 0) := by
  unfold parsed
  rw [List.flatMap_map, List.flatMap_map]
  apply List.flatMap_congr
  intro message member
  obtain ⟨reached, inside⟩ := mem_messagesFrom_take member
  have accepted := ((messagesFrom_spec bytes 0).1 message reached).2
  apply parseMessage_congr accepted (whole message reached)
  rw [← own_take inside, same, own_take inside]

theorem framesWithin_congr (whole : ErrorsWhole bytes) {limit : Nat} {other : List UInt8}
    (same : other.take limit = bytes.take limit) :
    framesWithin other limit = framesWithin bytes limit := by
  rw [framesWithin_eq, framesWithin_eq, same, parsed_congr whole same]

/-- A cut keeps the frames of the messages before it. -/
theorem parseFrames_take (whole : ErrorsWhole bytes) (count : Nat) :
    parseFrames (bytes.take count) = framesWithin bytes count := by
  have again : (bytes.take count).take count = bytes.take count := by
    rw [List.take_take, min_self]
  rw [framesWithin_eq, ← parsed_congr whole again]
  unfold parseFrames parsed
  rw [parseReadings_eq]

end Chain

/-- `parse_frames` is monotone at a byte string exactly when no error message that
it reaches there ends before its code does. -/
theorem parse_frames_monotone_iff (bytes : List UInt8) : Monotone bytes ↔ ErrorsWhole bytes := by
  constructor
  · intro monotone message member isError
    have accepted := ((messagesFrom_spec bytes 0).1 message member).2
    by_contra short
    obtain ⟨other, same, differs⟩ := short_error_differs accepted isError (by omega)
    exact differs (monotone.own message member other same)
  · intro whole
    refine ⟨?_, ?_, ?_⟩
    · intro count _
      rw [parseFrames_take whole]
      exact framesWithin_prefix bytes count
    · intro message member other same
      have accepted := ((messagesFrom_spec bytes 0).1 message member).2
      exact parseMessage_congr accepted (whole message member) same
    · intro limit other same
      exact framesWithin_congr whole same

/-- An error message of a header alone, and four bytes after it. -/
def headerOnlyError : List UInt8 :=
  [16, 0, 0, 0, 2, 0, 0, 0, 0, 0, 0, 0, 0, 0, 0, 0] ++ [0, 0, 0, 0]

/-- The cut makes an error that the whole buffer does not. -/
theorem header_only_error_vanishes :
    parseFrames (headerOnlyError.take 16) = [.kernelError (-71)] ∧
      parseFrames headerOnlyError = [] ∧ ¬Monotone headerOnlyError := by
  have cut : parseFrames (headerOnlyError.take 16) = [.kernelError (-71)] := by decide +kernel
  have all : parseFrames headerOnlyError = [] := by decide +kernel
  refine ⟨cut, all, ?_⟩
  intro monotone
  have kept := monotone.cut 16 (by decide)
  rw [cut, all] at kept
  exact absurd kept (by decide)

end SystemPilot.Netlink
