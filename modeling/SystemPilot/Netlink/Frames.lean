import Mathlib.Tactic

/-!
# Process connector frames

`netlink::parse_frames`: a chain of length-prefixed netlink messages, each an
error or a process connector event.  A parser gives, for every message it looks
at, the frames it makes of it and where the fields it read of it end.  Native
integers are little-endian, as on every platform the daemon is built for.
-/

set_option autoImplicit false

namespace SystemPilot.Netlink

inductive Frame where
  | fork (parent child : Int)
  | exec (pid : Int)
  | exit (pid status signal : Int)
  | kernelError (code : Int)
  deriving DecidableEq, Repr

/-- A frame that reports a process event. -/
def Frame.isEvent : Frame → Bool
  | .kernelError _ => false
  | _ => true

/-- `libc::EPROTO`. -/
def eproto : Int := 71

/-! ## Fields -/

def byteAt (bytes : List UInt8) (offset : Nat) : Nat :=
  (bytes[offset]?.getD 0).toNat

/-- `u16::from_ne_bytes` of the two bytes at an offset. -/
def half (bytes : List UInt8) (offset : Nat) : Nat :=
  byteAt bytes offset + 256 * byteAt bytes (offset + 1)

/-- `u32::from_ne_bytes` of the four bytes at an offset. -/
def word (bytes : List UInt8) (offset : Nat) : Nat :=
  half bytes offset + 65536 * half bytes (offset + 2)

/-- The `i32` with the same bytes. -/
def signed (value : Nat) : Int :=
  if value < 2 ^ 31 then value else value - 2 ^ 32

/-- `i32::from_ne_bytes`. -/
def signedWord (bytes : List UInt8) (offset : Nat) : Int :=
  signed (word bytes offset)

/-- `NLMSG_ALIGN`, `(length + 3) & !3`. -/
def nlmsgAlign (length : Nat) : Nat :=
  (length + 3) / 4 * 4

/-- A message of the chain: its header and its payload lie in the bytes. -/
structure Message where
  offset : Nat
  length : Nat
  deriving DecidableEq, Repr

/-- What a parser makes of one message. -/
structure Reading where
  message : Message
  frames : List Frame
  fieldEnds : List Nat
  deriving DecidableEq, Repr

/-- Every field was read from the message's own bytes. -/
def Reading.Within (reading : Reading) : Prop :=
  ∀ fieldEnd ∈ reading.fieldEnds,
    fieldEnd ≤ reading.message.offset + reading.message.length

/-- A kernel error of code zero is an acknowledgement. -/
def errorFrames (code : Int) : List Frame :=
  if code ≠ 0 then [.kernelError code] else []

/-! ## `parse_frames` -/

/-- `parse_connector`; the ends are relative to the slice. -/
def parseConnector (bytes : List UInt8) : List Frame × List Nat :=
  if bytes.length < 24 then ([], [])
  else if word bytes 0 ≠ 1 then ([], [4])
  else if word bytes 4 ≠ 1 then ([], [4, 8])
  else
    let event := bytes.drop 20
    if word event 0 = 1 ∧ 32 ≤ event.length then
      ([.fork (signedWord event 16) (signedWord event 24)], [4, 8, 24, 40, 48])
    else if word event 0 = 2 ∧ 24 ≤ event.length then
      ([.exec (signedWord event 16)], [4, 8, 24, 40])
    else if word event 0 = 0x80000000 ∧ 32 ≤ event.length then
      ([.exit (signedWord event 16) (signedWord event 24) (signedWord event 28)],
        [4, 8, 24, 40, 48, 52])
    else ([], [4, 8, 24])

/-- The two branches of the loop body: an error, whose code is read from the
whole buffer, or a connector message, a slice of it. -/
def parseMessage (bytes : List UInt8) (message : Message) : Reading :=
  if half bytes (message.offset + 4) = 2 then
    if message.offset + 20 ≤ bytes.length then
      ⟨message, errorFrames (signedWord bytes (message.offset + 16)), [message.offset + 20]⟩
    else ⟨message, errorFrames (-eproto), []⟩
  else
    let (frames, ends) :=
      parseConnector ((bytes.drop (message.offset + 16)).take (message.length - 16))
    ⟨message, frames, ends.map (message.offset + 16 + ·)⟩

/-- The loop; an aligned length is at least 16 and no sum overflows. -/
def parseReadings (bytes : List UInt8) (offset : Nat) : List Reading :=
  if _header : offset + 16 ≤ bytes.length then
    let length := word bytes offset
    if _rejected : length < 16 ∨ bytes.length < offset + length then []
    else
      parseMessage bytes ⟨offset, length⟩ :: parseReadings bytes (offset + nlmsgAlign length)
  else []
termination_by bytes.length - offset
decreasing_by
  simp only [nlmsgAlign]
  omega

def parseFrames (bytes : List UInt8) : List Frame :=
  (parseReadings bytes 0).flatMap Reading.frames

/-! ## The chain of messages -/

/-- The messages the loop accepts, from an offset. -/
def messagesFrom (bytes : List UInt8) (offset : Nat) : List Message :=
  if _header : offset + 16 ≤ bytes.length then
    let length := word bytes offset
    if _rejected : length < 16 ∨ bytes.length < offset + length then []
    else ⟨offset, length⟩ :: messagesFrom bytes (offset + nlmsgAlign length)
  else []
termination_by bytes.length - offset
decreasing_by
  simp only [nlmsgAlign]
  omega

section Chain

variable (bytes : List UInt8)

theorem parseReadings_eq (offset : Nat) :
    parseReadings bytes offset = (messagesFrom bytes offset).map (parseMessage bytes) := by
  fun_induction messagesFrom bytes offset with
  | case1 offset header length rejected =>
      rw [parseReadings, dif_pos header]
      exact dif_pos rejected
  | case2 offset header length rejected inductionHypothesis =>
      rw [parseReadings, dif_pos header]
      dsimp only
      rw [dif_neg rejected, inductionHypothesis]
      rfl
  | case3 offset header =>
      rw [parseReadings, dif_neg header]
      rfl

/-- The message lies in the bytes. -/
structure Message.Accepted (bytes : List UInt8) (message : Message) : Prop where
  minimum : 16 ≤ message.length
  inside : message.offset + message.length ≤ bytes.length

/-- Every message of the chain lies in the bytes, each after the header of the
one before. -/
theorem messagesFrom_spec (offset : Nat) :
    (∀ message ∈ messagesFrom bytes offset, offset ≤ message.offset ∧ message.Accepted bytes) ∧
      (messagesFrom bytes offset).Pairwise fun message later =>
        message.offset + 16 ≤ later.offset := by
  fun_induction messagesFrom bytes offset with
  | case1 offset header length rejected => simp
  | case2 offset header length rejected inductionHypothesis =>
      obtain ⟨accepted, ordered⟩ := inductionHypothesis
      have advances : 16 ≤ nlmsgAlign length := by
        simp only [nlmsgAlign]
        omega
      constructor
      · intro message member
        rcases List.mem_cons.mp member with rfl | later
        · exact ⟨le_rfl, not_lt.mp fun short => rejected (Or.inl short),
            not_lt.mp fun long => rejected (Or.inr long)⟩
        · obtain ⟨after, inside⟩ := accepted message later
          exact ⟨by omega, inside⟩
      · refine List.pairwise_cons.mpr ⟨?_, ordered⟩
        intro later member
        have after := (accepted later member).1
        change offset + 16 ≤ later.offset
        omega
  | case3 offset header => simp

end Chain

/-! ## Fields of a slice -/

section Slice

variable (bytes : List UInt8)

theorem byteAt_take {count offset : Nat} (inside : offset < count) :
    byteAt (bytes.take count) offset = byteAt bytes offset := by
  unfold byteAt
  rw [List.getElem?_take_of_lt inside]

theorem half_take {count offset : Nat} (inside : offset + 2 ≤ count) :
    half (bytes.take count) offset = half bytes offset := by
  unfold half
  rw [byteAt_take bytes (by omega), byteAt_take bytes (by omega)]

theorem word_take {count offset : Nat} (inside : offset + 4 ≤ count) :
    word (bytes.take count) offset = word bytes offset := by
  unfold word
  rw [half_take bytes (by omega), half_take bytes (by omega)]

theorem signedWord_take {count offset : Nat} (inside : offset + 4 ≤ count) :
    signedWord (bytes.take count) offset = signedWord bytes offset := by
  unfold signedWord
  rw [word_take bytes inside]

theorem byteAt_drop (count offset : Nat) :
    byteAt (bytes.drop count) offset = byteAt bytes (count + offset) := by
  unfold byteAt
  rw [List.getElem?_drop]

theorem word_drop (count offset : Nat) :
    word (bytes.drop count) offset = word bytes (count + offset) := by
  unfold word half
  simp only [byteAt_drop, Nat.add_assoc]

theorem signedWord_drop (count offset : Nat) :
    signedWord (bytes.drop count) offset = signedWord bytes (count + offset) := by
  unfold signedWord
  rw [word_drop]

end Slice

end SystemPilot.Netlink
