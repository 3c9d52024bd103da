import SystemPilot.Netlink.Total

/-!
# The daemon's parser with its checks

The parse loop of `netlink_listener` with every slice and sum that could stop the
daemon, which is built with overflow checks and aborts on a panic.  One can: a
kernel error is negated, and the least `i32` has no negative.
-/

set_option autoImplicit false

namespace SystemPilot.Netlink

open SystemPilot.Library.Checked

/-- The receive buffer, and how many bytes were received into it. -/
structure Received where
  buffer : List UInt8
  length : Nat
  fits : length ≤ buffer.length
  bounded : buffer.length < 2 ^ 63

/-! ## The source -/

/-- The slice of four bytes at an offset, with `unwrap_or([0; 4])`. -/
def fourBytes (buffer : List UInt8) (offset : Nat) : Except Fault (List UInt8) := do
  let part ← slice buffer offset (← add offset 4)
  return (tryInto 4 part).getD [0, 0, 0, 0]

def bufferU32 (buffer : List UInt8) (offset : Nat) : Except Fault Nat :=
  (word · 0) <$> fourBytes buffer offset

def bufferI32 (buffer : List UInt8) (offset : Nat) : Except Fault Int :=
  (signedWord · 0) <$> fourBytes buffer offset

/-- A field of the header, `recv_buf[offset + from..offset + to]`. -/
def bufferU16 (buffer : List UInt8) (offset : Nat) : Except Fault Nat := do
  let part ← slice buffer (← add offset 4) (← add offset 6)
  return half ((tryInto 2 part).getD [0, 0]) 0

/-- `offset += ((msg_len + 3) & !3).max(16)`. -/
def listenAdvance (offset length : Nat) (frames : List Frame) : Except Fault (Step Frame) := do
  let aligned := (← add length 3) / 4 * 4
  return .next frames (← add offset (max aligned 16))

def listenCode (buffer : List UInt8) (offset length : Nat) : Except Fault Int := do
  if 20 ≤ length then bufferI32 buffer (← add offset 16)
  else return -eproto

/-- A kernel error ends the listener, which logs it with its code negated. -/
def listenErrorChecked (buffer : List UInt8) (offset length : Nat) :
    Except Fault (Step Frame) := do
  let code ← listenCode buffer offset length
  if code ≠ 0 then
    let _errno ← negate code
    return .stop [.kernelError code]
  else listenAdvance offset length []

/-- The arms for a process event. -/
def listenEventChecked (buffer : List UInt8) (received event : Nat) :
    Except Fault (List Frame) := do
  let what ← bufferU32 buffer event
  if what = 1 then
    if (← add event 32) ≤ received then
      return [.fork (← bufferI32 buffer (← add event 16)) (← bufferI32 buffer (← add event 24))]
    else return []
  else if what = 2 then
    if (← add event 24) ≤ received then
      return [.exec (← bufferI32 buffer (← add event 16))]
    else return []
  else if what = 0x80000000 then
    if (← add event 32) ≤ received then
      return [.exit (← bufferI32 buffer (← add event 16)) (← bufferI32 buffer (← add event 24))
        (← bufferI32 buffer (← add event 28))]
    else return []
  else return []

/-- The body of the loop from the connector header on. -/
def listenConnectorChecked (buffer : List UInt8) (received connector : Nat) :
    Except Fault (List Frame) := do
  let index ← bufferU32 buffer connector
  let value ← bufferU32 buffer (← add connector 4)
  if index = 1 ∧ value = 1 then
    let event ← add connector 20
    if (← add event 4) ≤ received then listenEventChecked buffer received event
    else return []
  else return []

/-- The body of the loop over the `nlmsghdr` chain. -/
def listenBody (buffer : List UInt8) (received offset : Nat) : Except Fault (Step Frame) := do
  if received < (← add offset 16) then return .stop []
  else
    let length ← bufferU32 buffer offset
    if length < 16 then return .stop []
    else if received < (← add offset length) then return .stop []
    else if (← bufferU16 buffer offset) = 2 then listenErrorChecked buffer offset length
    else
      let connector ← add offset 16
      if received < (← add connector 20) then return .stop []
      else
        let frames ← listenConnectorChecked buffer received connector
        listenAdvance offset length frames

/-! ## Fields -/

section Fields

variable {buffer : List UInt8} {received offset : Nat} (fits : received ≤ buffer.length)
  (bounded : buffer.length < 2 ^ 63)
include fits bounded

omit fits in
theorem sum_ok {left right : Nat} (inside : left ≤ buffer.length) (small : right < 2 ^ 33) :
    add left right = .ok (left + right) := by
  apply add_ok
  unfold positionBound
  omega

theorem fourBytes_ok (inside : offset + 4 ≤ received) :
    fourBytes buffer offset = .ok ((buffer.drop offset).take 4) := by
  unfold fourBytes
  rw [sum_ok bounded (by omega) (by decide), ok_bind, slice_ok (by omega) (by omega), ok_bind,
    tryInto_slice (by omega)]
  rfl

theorem bufferU32_ok (inside : offset + 4 ≤ received) :
    bufferU32 buffer offset = .ok (word buffer offset) := by
  unfold bufferU32
  rw [fourBytes_ok fits bounded inside]
  exact congrArg Except.ok word_slice

theorem bufferI32_ok (inside : offset + 4 ≤ received) :
    bufferI32 buffer offset = .ok (signedWord buffer offset) := by
  unfold bufferI32
  rw [fourBytes_ok fits bounded inside]
  exact congrArg Except.ok signedWord_slice

theorem bufferU16_ok (inside : offset + 6 ≤ received) :
    bufferU16 buffer offset = .ok (half buffer (offset + 4)) := by
  unfold bufferU16
  have part : tryInto 2 ((buffer.drop (offset + 4)).take (offset + 6 - (offset + 4))) =
      some ((buffer.drop (offset + 4)).take 2) :=
    @tryInto_slice buffer (offset + 4) 2 (by omega)
  rw [sum_ok bounded (by omega) (by decide), sum_ok bounded (by omega) (by decide), ok_bind,
    ok_bind, slice_ok (by omega) (by omega), ok_bind, part]
  exact congrArg Except.ok half_slice

end Fields

/-! ## The branches -/

section Branches

variable {buffer : List UInt8} {received offset length : Nat}
  (fits : received ≤ buffer.length) (bounded : buffer.length < 2 ^ 63)
include fits bounded

theorem listenAdvance_ok (inside : offset + length ≤ received) (frames : List Frame) :
    listenAdvance offset length frames =
      .ok (.next frames (offset + max (nlmsgAlign length) 16)) := by
  have aligned : nlmsgAlign length ≤ length + 3 := by
    unfold nlmsgAlign
    omega
  have sum : offset + max (nlmsgAlign length) 16 < positionBound := by
    unfold positionBound
    omega
  unfold listenAdvance
  rw [add_ok (by unfold positionBound; omega), ok_bind]
  change (do return Step.next frames (← add offset (max (nlmsgAlign length) 16))) = _
  rw [add_ok sum]
  rfl

theorem listenErrorChecked_ok (inside : offset + length ≤ received) :
    listenErrorChecked buffer offset length =
      if (listenError buffer ⟨offset, length⟩).1 = -2 ^ 31 then .error .overflow
      else if (listenError buffer ⟨offset, length⟩).1 ≠ 0 then
        .ok (.stop [.kernelError (listenError buffer ⟨offset, length⟩).1])
      else .ok (.next [] (offset + max (nlmsgAlign length) 16)) := by
  have code : listenCode buffer offset length =
      .ok (listenError buffer ⟨offset, length⟩).1 := by
    unfold listenCode listenError
    split
    · rw [sum_ok bounded (by omega) (by decide), ok_bind]
      exact bufferI32_ok fits bounded (by omega)
    · rfl
  unfold listenErrorChecked
  rw [code, ok_bind]
  unfold negate
  by_cases least : (listenError buffer ⟨offset, length⟩).1 = -2 ^ 31
  · rw [if_pos least, if_pos least, if_pos (by omega)]
    rfl
  · rw [if_neg least, if_neg least]
    split
    · rfl
    · exact listenAdvance_ok fits bounded inside []

theorem listenEventChecked_ok {event : Nat} (inside : event + 4 ≤ received) :
    listenEventChecked buffer received event = .ok (listenEvent buffer received event).1 := by
  have field : ∀ start, start + 4 ≤ received →
      bufferI32 buffer start = .ok (signedWord buffer start) :=
    fun start => bufferI32_ok fits bounded
  have sum : ∀ right, right < 2 ^ 33 → add event right = .ok (event + right) :=
    fun right => sum_ok bounded (by omega)
  unfold listenEventChecked listenEvent
  rw [bufferU32_ok fits bounded inside, ok_bind]
  by_cases fork : word buffer event = 1
  · rw [if_pos fork, sum 32 (by decide), ok_bind]
    by_cases room : event + 32 ≤ received
    · rw [if_pos room, if_pos ⟨fork, room⟩, sum 16 (by decide), sum 24 (by decide), ok_bind,
        field _ (by omega), ok_bind, ok_bind, field _ (by omega)]
      rfl
    · rw [if_neg room, if_neg (by omega), if_neg (by omega), if_neg (by omega)]
      rfl
  rw [if_neg fork, if_neg (show ¬(word buffer event = 1 ∧ event + 32 ≤ received) by omega)]
  by_cases exec : word buffer event = 2
  · rw [if_pos exec, sum 24 (by decide), ok_bind]
    by_cases room : event + 24 ≤ received
    · rw [if_pos room, if_pos ⟨exec, room⟩, sum 16 (by decide), ok_bind, field _ (by omega)]
      rfl
    · rw [if_neg room, if_neg (by omega), if_neg (by omega)]
      rfl
  rw [if_neg exec, if_neg (show ¬(word buffer event = 2 ∧ event + 24 ≤ received) by omega)]
  by_cases exit : word buffer event = 0x80000000
  · rw [if_pos exit, sum 32 (by decide), ok_bind]
    by_cases room : event + 32 ≤ received
    · rw [if_pos room, if_pos ⟨exit, room⟩, sum 16 (by decide), sum 24 (by decide),
        sum 28 (by decide), ok_bind, field _ (by omega), ok_bind, ok_bind, field _ (by omega),
        ok_bind, ok_bind, field _ (by omega)]
      rfl
    · rw [if_neg room, if_neg (by omega)]
      rfl
  · rw [if_neg exit, if_neg (by omega)]
    rfl

theorem listenConnectorChecked_ok (inside : offset + 36 ≤ received) :
    listenConnectorChecked buffer received (offset + 16) =
      .ok (listenConnector buffer received ⟨offset, length⟩).frames := by
  unfold listenConnectorChecked listenConnector
  dsimp only
  rw [bufferU32_ok fits bounded (by omega), ok_bind, sum_ok bounded (by omega) (by decide),
    ok_bind, bufferU32_ok fits bounded (by omega), ok_bind]
  split
  · rw [sum_ok bounded (by omega) (by decide), ok_bind, sum_ok bounded (by omega) (by decide),
      ok_bind]
    split
    · rename_i event
      exact listenEventChecked_ok fits bounded event
    · rfl
  · rfl

end Branches

/-! ## The body -/

section Body

variable {buffer : List UInt8} {received offset : Nat}
  (fits : received ≤ buffer.length) (bounded : buffer.length < 2 ^ 63)
include fits bounded

/-- The body behind a header. -/
theorem listenBody_header (header : offset + 16 ≤ received) :
    listenBody buffer received offset =
      if word buffer offset < 16 then .ok (.stop [])
      else if received < offset + word buffer offset then .ok (.stop [])
      else if half buffer (offset + 4) = 2 then
        listenErrorChecked buffer offset (word buffer offset)
      else if received < offset + 36 then .ok (.stop [])
      else (do
        let frames ← listenConnectorChecked buffer received (offset + 16)
        listenAdvance offset (word buffer offset) frames) := by
  have bound := word_lt buffer offset
  unfold listenBody
  rw [sum_ok bounded (by omega) (by decide), ok_bind, if_neg (by omega),
    bufferU32_ok fits bounded (by omega), ok_bind]
  split
  · rfl
  · rw [sum_ok bounded (by omega) (by omega), ok_bind]
    split
    · rfl
    · rw [bufferU16_ok fits bounded (by omega), ok_bind]
      split
      · rfl
      · rw [ok_bind, sum_ok bounded (by omega) (by decide), ok_bind]
        split <;> rfl

/-- The body stops without a header, which the sum for it does not miss. -/
theorem listenBody_end (near : offset ≤ received + 3) (ended : received < offset + 16) :
    listenBody buffer received offset = .ok (.stop []) := by
  unfold listenBody
  rw [add_ok (by unfold positionBound; omega), ok_bind, if_pos ended]
  rfl

/-- The body at a message that is no error. -/
theorem listenBody_connector (header : offset + 16 ≤ received)
    (accepted : ¬(word buffer offset < 16 ∨ received < offset + word buffer offset))
    (notError : half buffer (offset + 4) ≠ 2) (room : ¬received < offset + 36) :
    listenBody buffer received offset =
      .ok (.next (listenConnector buffer received ⟨offset, word buffer offset⟩).frames
        (offset + max (nlmsgAlign (word buffer offset)) 16)) := by
  rw [listenBody_header fits bounded header, if_neg (by omega), if_neg (by omega),
    if_neg notError, if_neg room,
    @listenConnectorChecked_ok _ _ _ (word buffer offset) fits bounded (by omega), ok_bind,
    listenAdvance_ok fits bounded (by omega)]

/-- The body goes on only behind a header, and at least 16 bytes further. -/
theorem listenBody_advances {next : Nat} {frames : List Frame}
    (pass : listenBody buffer received offset = .ok (.next frames next)) :
    offset + 16 ≤ received ∧ offset + 16 ≤ next := by
  by_cases header : offset + 16 ≤ received
  · refine ⟨header, ?_⟩
    rw [listenBody_header fits bounded header] at pass
    split at pass
    · injection pass with stopped
      contradiction
    · split at pass
      · injection pass with stopped
        contradiction
      · rename_i inside
        have advanced : offset + 16 ≤ offset + max (nlmsgAlign (word buffer offset)) 16 := by
          omega
        split at pass
        · rw [listenErrorChecked_ok fits bounded (by omega)] at pass
          split at pass
          · contradiction
          · split at pass
            · injection pass with stopped
              contradiction
            · injection pass with went
              injection went with same later
              omega
        · split at pass
          · injection pass with stopped
            contradiction
          · rw [@listenConnectorChecked_ok _ _ _ (word buffer offset) fits bounded
              (by omega), ok_bind, listenAdvance_ok fits bounded (by omega)] at pass
            injection pass with went
            injection went with same later
            omega
  · unfold listenBody add at pass
    split at pass
    · rw [ok_bind, if_pos (by omega)] at pass
      injection pass with stopped
      contradiction
    · injection pass

end Body

/-- The loop over the `nlmsghdr` chain. -/
def listenScanner (received : Received) : Scanner Frame where
  body := listenBody received.buffer received.length
  limit := received.length
  stride := 16
  positive := header_pos
  advances := listenBody_advances received.fits received.bounded

/-- What the daemon makes of one receive, unless it aborts. -/
def listenFramesChecked (received : Received) : Except Fault (List Frame) :=
  (listenScanner received).run 0

/-! ## When a check fails -/

/-- The error whose code has no negative. -/
def leastError : Frame := .kernelError (-2 ^ 31)

theorem leastError_not_connector (buffer : List UInt8) (received : Nat) (message : Message) :
    leastError ∉ (listenConnector buffer received message).frames := by
  have event : leastError ∉ (listenEvent buffer received (message.offset + 36)).1 := by
    rcases listenEvent_frames buffer received (message.offset + 36) with
      none | ⟨frame, isEvent, made⟩
    · rw [none]
      exact List.not_mem_nil
    · rw [made, List.mem_singleton]
      intro same
      rw [← same] at isEvent
      contradiction
  unfold listenConnector
  dsimp only
  split
  · split
    · exact event
    · exact List.not_mem_nil
  · exact List.not_mem_nil

/-- What a run of the loop comes to, from the frames it makes. -/
def outcome (frames : List Frame) : Except Fault (List Frame) :=
  if leastError ∈ frames then .error .overflow else .ok frames

theorem outcome_append {made : List Frame} (clean : leastError ∉ made) (frames : List Frame) :
    (made ++ ·) <$> outcome frames = outcome (made ++ frames) := by
  unfold outcome
  by_cases least : leastError ∈ frames
  · rw [if_pos least, if_pos (List.mem_append_right made least)]
    rfl
  · have absent : leastError ∉ made ++ frames := by
      rw [List.mem_append]
      exact not_or.mpr ⟨clean, least⟩
    rw [if_neg least, if_neg absent]
    rfl

theorem listenScanner_run (received : Received) (offset : Nat)
    (near : offset ≤ received.length + 3) :
    (listenScanner received).run offset =
      outcome ((listenReadings received.buffer received.length offset).flatMap
        Reading.frames) := by
  have fits := received.fits
  have bounded := received.bounded
  fun_induction listenReadings received.buffer received.length offset with
  | case1 offset header length rejected =>
      apply Scanner.run_stop
      refine (listenBody_header fits bounded header).trans ?_
      rcases rejected with short | long
      · exact if_pos short
      · rw [if_pos long]
        exact ite_self _
  | case2 offset header length accepted isError code ends read nonzero =>
      have body := (listenBody_header fits bounded header).trans <|
        (if_neg (by omega)).trans <| (if_neg (by omega)).trans <| (if_pos isError).trans <|
          @listenErrorChecked_ok _ _ _ length fits bounded (by omega)
      rw [read] at body
      change _ = outcome [.kernelError code]
      by_cases least : code = -2 ^ 31
      · rw [if_pos least] at body
        rw [Scanner.run_error _ body, least]
        rfl
      · have differs : leastError ∉ [Frame.kernelError code] := by
          rw [List.mem_singleton]
          intro same
          injection same with same
          exact least same.symm
        rw [if_neg least, if_pos nonzero] at body
        rw [Scanner.run_stop _ body]
        exact (if_neg differs).symm
  | case3 offset header length accepted isError code ends read zero inductionHypothesis =>
      have body := (listenBody_header fits bounded header).trans <|
        (if_neg (by omega)).trans <| (if_neg (by omega)).trans <| (if_pos isError).trans <|
          @listenErrorChecked_ok _ _ _ length fits bounded (by omega)
      have align : nlmsgAlign length ≤ length + 3 := by
        unfold nlmsgAlign
        omega
      have acknowledged : code = 0 := not_not.mp zero
      rw [read, acknowledged, if_neg (show ¬(0 : Int) = -2 ^ 31 by decide),
        if_neg (not_not.mpr rfl)] at body
      rw [Scanner.run_next _ body, inductionHypothesis (by omega), List.flatMap_cons]
      exact outcome_append List.not_mem_nil _
  | case4 offset header length accepted notError short =>
      apply Scanner.run_stop
      refine (listenBody_header fits bounded header).trans ?_
      rw [if_neg (by omega), if_neg (by omega), if_neg notError, if_pos short]
      rfl
  | case5 offset header length accepted notError room inductionHypothesis =>
      have align : nlmsgAlign length ≤ length + 3 := by
        unfold nlmsgAlign
        omega
      rw [Scanner.run_next _ (listenBody_connector fits bounded header accepted notError room),
        inductionHypothesis (by omega), List.flatMap_cons]
      exact outcome_append (leastError_not_connector _ _ _) _
  | case6 offset header =>
      apply Scanner.run_stop
      exact listenBody_end fits bounded near (by omega)

/-- The error message has a code without a negative. -/
def Message.LeastError (bytes : List UInt8) (message : Message) : Prop :=
  message.IsError bytes ∧ 20 ≤ message.length ∧
    signedWord bytes (message.offset + 16) = -2 ^ 31

/-- The daemon goes on behind the message. -/
def Message.Passed (bytes : List UInt8) (message : Message) : Prop :=
  (message.IsError bytes → message.Acknowledges bytes) ∧
    (¬message.IsError bytes → message.offset + 36 ≤ bytes.length)

/-- The daemon gets to an error whose code has no negative. -/
def LeastReached (bytes : List UInt8) (messages : List Message) : Prop :=
  ∃ before message after, messages = before ++ message :: after ∧ message.LeastError bytes ∧
    ∀ earlier ∈ before, earlier.Passed bytes

section Chain

variable {bytes : List UInt8}

theorem leastReached_cons (message : Message) (rest : List Message) :
    LeastReached bytes (message :: rest) ↔
      message.LeastError bytes ∨ message.Passed bytes ∧ LeastReached bytes rest := by
  constructor
  · rintro ⟨before, found, after, split, least, passed⟩
    cases before with
    | nil =>
        injection split with same _
        rw [← same] at least
        exact Or.inl least
    | cons first others =>
        injection split with same later
        rw [← same] at passed
        rw [List.forall_mem_cons] at passed
        exact Or.inr ⟨passed.1, others, found, after, later, least, passed.2⟩
  · rintro (least | ⟨here, before, found, after, split, least, passed⟩)
    · exact ⟨[], message, rest, rfl, least, fun earlier member => absurd member List.not_mem_nil⟩
    · refine ⟨message :: before, found, after, by rw [split]; rfl, least, ?_⟩
      exact List.forall_mem_cons.mpr ⟨here, passed⟩

theorem listenError_least_iff {message : Message} (isError : message.IsError bytes) :
    (listenError bytes message).1 = -2 ^ 31 ↔ message.LeastError bytes := by
  unfold listenError Message.LeastError
  split
  · rename_i own
    exact ⟨fun code => ⟨isError, own, code⟩, fun least => least.2.2⟩
  · rename_i short
    constructor
    · intro code
      exact absurd code (by decide)
    · intro least
      exact absurd least.2.1 short

/-- The daemon makes the error without a negative exactly when it gets to one. -/
theorem least_mem_listened_iff (messages : List Message) :
    leastError ∈ listened bytes messages ↔ LeastReached bytes messages := by
  induction messages with
  | nil =>
      constructor
      · intro member
        exact absurd member List.not_mem_nil
      · rintro ⟨before, found, after, split, -⟩
        exact absurd split (by simp)
  | cons message rest inductionHypothesis =>
      rw [leastReached_cons, ← inductionHypothesis]
      unfold listened
      by_cases isError : message.IsError bytes
      · rw [listenMessages_error isError, ← listenError_least_iff isError]
        have passed : message.Passed bytes ↔ (listenError bytes message).1 = 0 := by
          rw [listenError_eq_zero_iff]
          exact ⟨fun goes => goes.1 isError,
            fun acknowledged => ⟨fun _ => acknowledged, fun other => absurd isError other⟩⟩
        rw [passed]
        by_cases code : (listenError bytes message).1 = 0
        · rw [if_neg (not_not.mpr code), List.flatMap_cons, List.nil_append, code]
          simp
        · rw [if_pos code, List.flatMap_singleton, List.mem_singleton]
          unfold leastError
          rw [Frame.kernelError.injEq]
          exact ⟨fun same => Or.inl same.symm,
            fun found => found.elim Eq.symm fun later => absurd later.1 code⟩
      · rw [listenMessages_connector isError]
        have notLeast : ¬message.LeastError bytes := fun least => isError least.1
        have passed : message.Passed bytes ↔ message.offset + 36 ≤ bytes.length :=
          ⟨fun goes => goes.2 isError,
            fun room => ⟨fun found => absurd found isError, fun _ => room⟩⟩
        rw [passed]
        split
        · rename_i short
          rw [List.flatMap_singleton]
          constructor
          · intro member
            exact absurd member List.not_mem_nil
          · rintro (least | ⟨room, -⟩)
            · exact absurd least notLeast
            · omega
        · rename_i room
          have absent := leastError_not_connector bytes bytes.length message
          rw [List.flatMap_cons, List.mem_append]
          constructor
          · rintro (here | later)
            · exact absurd here absent
            · exact Or.inr ⟨by omega, later⟩
          · rintro (least | ⟨-, later⟩)
            · exact absurd least notLeast
            · exact Or.inr later

end Chain

/-- The daemon aborts on a receive exactly when it gets to an error whose code has
no negative, and makes its frames otherwise. -/
theorem listenFramesChecked_ok_iff (received : Received) :
    listenFramesChecked received = .ok (listenFrames received.buffer received.length) ↔
      ¬LeastReached (received.buffer.take received.length)
        (messagesFrom (received.buffer.take received.length) 0) := by
  have run : listenFramesChecked received =
      outcome (listenFrames received.buffer received.length) :=
    listenScanner_run received 0 (Nat.zero_le _)
  have made : listenFrames received.buffer received.length =
      listened (received.buffer.take received.length)
        (messagesFrom (received.buffer.take received.length) 0) := by
    unfold listenFrames listened
    rw [listenReadings_eq received.buffer received.fits]
  rw [run, ← least_mem_listened_iff, ← made]
  unfold outcome
  by_cases least : leastError ∈ listenFrames received.buffer received.length
  · rw [if_pos least]
    exact ⟨fun impossible => absurd impossible (by simp), fun clean => absurd least clean⟩
  · rw [if_neg least]
    exact ⟨fun _ => least, fun _ => rfl⟩

theorem listenFramesChecked_or (received : Received) :
    listenFramesChecked received = .error .overflow ∨
      listenFramesChecked received = .ok (listenFrames received.buffer received.length) := by
  have run : listenFramesChecked received =
      outcome (listenFrames received.buffer received.length) :=
    listenScanner_run received 0 (Nat.zero_le _)
  rw [run]
  unfold outcome
  split
  · exact Or.inl rfl
  · exact Or.inr rfl

end SystemPilot.Netlink
