import SystemPilot.Netlink.Frames

/-!
# The daemon's parser

The parse loop of `netlink_listener` over the received part of its buffer.  It
bounds every field by what was received, not by the message the field belongs
to, stops at a message too close to the end and at the first kernel error.
-/

set_option autoImplicit false

namespace SystemPilot.Netlink

/-! ## The loop -/

/-- The arms for a process event at `event`, as long as it was received. -/
def listenEvent (buffer : List UInt8) (received event : Nat) : List Frame × List Nat :=
  if word buffer event = 1 ∧ event + 32 ≤ received then
    ([.fork (signedWord buffer (event + 16)) (signedWord buffer (event + 24))],
      [event + 20, event + 28])
  else if word buffer event = 2 ∧ event + 24 ≤ received then
    ([.exec (signedWord buffer (event + 16))], [event + 20])
  else if word buffer event = 0x80000000 ∧ event + 32 ≤ received then
    ([.exit (signedWord buffer (event + 16)) (signedWord buffer (event + 24))
      (signedWord buffer (event + 28))], [event + 20, event + 28, event + 32])
  else ([], [])

/-- A message that is no error, from its connector header on. -/
def listenConnector (buffer : List UInt8) (received : Nat) (message : Message) : Reading :=
  let connector := message.offset + 16
  let ids := [connector + 4, connector + 8]
  if word buffer connector = 1 ∧ word buffer (connector + 4) = 1 then
    let event := connector + 20
    if event + 4 ≤ received then
      let (frames, ends) := listenEvent buffer received event
      ⟨message, frames, ids ++ [event + 4] ++ ends⟩
    else ⟨message, [], ids⟩
  else ⟨message, [], ids⟩

/-- The code of an error message, with the end of the field it is read from. -/
def listenError (buffer : List UInt8) (message : Message) : Int × List Nat :=
  if 20 ≤ message.length then
    (signedWord buffer (message.offset + 16), [message.offset + 20])
  else (-eproto, [])

/-- The loop over the `nlmsghdr` chain. -/
def listenReadings (buffer : List UInt8) (received offset : Nat) : List Reading :=
  if _header : offset + 16 ≤ received then
    let length := word buffer offset
    if _rejected : length < 16 ∨ received < offset + length then []
    else if half buffer (offset + 4) = 2 then
      let (code, ends) := listenError buffer ⟨offset, length⟩
      if code ≠ 0 then [⟨⟨offset, length⟩, [.kernelError code], ends⟩]
      else
        ⟨⟨offset, length⟩, [], ends⟩ ::
          listenReadings buffer received (offset + max (nlmsgAlign length) 16)
    else if received < offset + 36 then [⟨⟨offset, length⟩, [], []⟩]
    else
      listenConnector buffer received ⟨offset, length⟩ ::
        listenReadings buffer received (offset + max (nlmsgAlign length) 16)
  else []
termination_by received - offset
decreasing_by
  all_goals
    simp only [nlmsgAlign]
    omega

/-- What the daemon makes of `buffer[..received]`. -/
def listenFrames (buffer : List UInt8) (received : Nat) : List Frame :=
  (listenReadings buffer received 0).flatMap Reading.frames

/-! ## The loop over the chain -/

/-- The loop on the messages `parse_frames` accepts too. -/
def listenMessages (bytes : List UInt8) : List Message → List Reading
  | [] => []
  | message :: rest =>
      if half bytes (message.offset + 4) = 2 then
        let (code, ends) := listenError bytes message
        if code ≠ 0 then [⟨message, [.kernelError code], ends⟩]
        else ⟨message, [], ends⟩ :: listenMessages bytes rest
      else if bytes.length < message.offset + 36 then [⟨message, [], []⟩]
      else listenConnector bytes bytes.length message :: listenMessages bytes rest

section Received

variable (buffer : List UInt8) {received : Nat}

theorem listenEvent_take {event : Nat} (inside : event + 4 ≤ received) :
    listenEvent (buffer.take received) received event = listenEvent buffer received event := by
  unfold listenEvent
  rw [word_take buffer inside]
  split
  · rename_i fork
    rw [signedWord_take buffer (by omega), signedWord_take buffer (by omega)]
  · split
    · rename_i exec
      rw [signedWord_take buffer (by omega)]
    · split
      · rename_i exit
        rw [signedWord_take buffer (by omega), signedWord_take buffer (by omega),
          signedWord_take buffer (by omega)]
      · rfl

theorem listenConnector_take {message : Message} (inside : message.offset + 36 ≤ received) :
    listenConnector (buffer.take received) received message =
      listenConnector buffer received message := by
  unfold listenConnector
  dsimp only
  rw [word_take buffer (by omega), word_take buffer (by omega)]
  split
  · split
    · rename_i event
      rw [listenEvent_take buffer event]
    · rfl
  · rfl

theorem listenError_take {message : Message}
    (inside : message.offset + message.length ≤ received) :
    listenError (buffer.take received) message = listenError buffer message := by
  unfold listenError
  split
  · rw [signedWord_take buffer (by omega)]
  · rfl

/-- The daemon's loop runs over the chain of the received bytes. -/
theorem listenReadings_eq (fits : received ≤ buffer.length) (offset : Nat) :
    listenReadings buffer received offset =
      listenMessages (buffer.take received) (messagesFrom (buffer.take received) offset) := by
  have size : (buffer.take received).length = received := List.length_take_of_le fits
  fun_induction messagesFrom (buffer.take received) offset with
  | case1 offset header length rejected =>
      rw [size] at header rejected
      have sameLength : length = word buffer offset := word_take buffer (by omega)
      rw [listenReadings, dif_pos header]
      dsimp only
      rw [dif_pos (by rw [← sameLength]; exact rejected)]
      rfl
  | case2 offset header length rejected inductionHypothesis =>
      rw [size] at header rejected
      have sameLength : length = word buffer offset := word_take buffer (by omega)
      have sameKind : half (buffer.take received) (offset + 4) = half buffer (offset + 4) :=
        half_take buffer (by omega)
      have advance : max (nlmsgAlign length) 16 = nlmsgAlign length := by
        apply max_eq_left
        simp only [nlmsgAlign]
        omega
      rw [listenReadings, dif_pos header]
      dsimp only
      rw [← sameLength, dif_neg rejected, advance, inductionHypothesis, listenMessages]
      dsimp only
      rw [sameKind, size]
      split
      · rw [listenError_take buffer (by dsimp only; omega)]
      · split
        · rfl
        · rename_i room
          rw [listenConnector_take buffer (by dsimp only; omega)]
  | case3 offset header =>
      rw [size] at header
      rw [listenReadings, dif_neg header]
      rfl

end Received

/-! ## The arms for an event -/

section Event

variable (bytes : List UInt8)

/-- With fewer bytes an event is made as with more, or not at all. -/
theorem listenEvent_mono (event : Nat) {fewer more : Nat} (le : fewer ≤ more) :
    listenEvent bytes fewer event = ([], []) ∨
      listenEvent bytes fewer event = listenEvent bytes more event := by
  unfold listenEvent
  by_cases fork : word bytes event = 1 ∧ event + 32 ≤ fewer
  · rw [if_pos fork, if_pos ⟨fork.1, fork.2.trans le⟩]
    exact Or.inr rfl
  by_cases exec : word bytes event = 2 ∧ event + 24 ≤ fewer
  · rw [if_neg fork, if_pos exec, if_neg fun made => by omega, if_pos ⟨exec.1, exec.2.trans le⟩]
    exact Or.inr rfl
  by_cases exit : word bytes event = 0x80000000 ∧ event + 32 ≤ fewer
  · rw [if_neg fork, if_neg exec, if_pos exit, if_neg fun made => by omega,
      if_neg fun made => by omega, if_pos ⟨exit.1, exit.2.trans le⟩]
    exact Or.inr rfl
  · rw [if_neg fork, if_neg exec, if_neg exit]
    exact Or.inl rfl

theorem listenEvent_within (received event : Nat) :
    ∀ fieldEnd ∈ (listenEvent bytes received event).2, fieldEnd ≤ received := by
  unfold listenEvent
  split
  · simp
    omega
  · split
    · simp
      omega
    · split
      · simp
        omega
      · simp

theorem listenEvent_frames (received event : Nat) :
    listenEvent bytes received event = ([], []) ∨
      ∃ frame, frame.isEvent = true ∧ (listenEvent bytes received event).1 = [frame] := by
  unfold listenEvent
  split
  · exact Or.inr ⟨_, rfl, rfl⟩
  · split
    · exact Or.inr ⟨_, rfl, rfl⟩
    · split
      · exact Or.inr ⟨_, rfl, rfl⟩
      · exact Or.inl rfl

/-- Fewer bytes make the same frames exactly when every arm that has room among
more has room among them. -/
theorem listenEvent_frames_eq_iff (event : Nat) {fewer more : Nat} (le : fewer ≤ more) :
    (listenEvent bytes fewer event).1 = (listenEvent bytes more event).1 ↔
      (word bytes event = 2 → event + 24 ≤ more → event + 24 ≤ fewer) ∧
        (word bytes event = 1 ∨ word bytes event = 0x80000000 →
          event + 32 ≤ more → event + 32 ≤ fewer) := by
  unfold listenEvent
  by_cases fork : word bytes event = 1
  · simp only [fork, true_and, true_or, true_implies]
    by_cases own : event + 32 ≤ fewer
    · simp [own, own.trans le]
    · by_cases room : event + 32 ≤ more <;> simp [own, room]
  by_cases exec : word bytes event = 2
  · simp only [exec, true_and, true_implies]
    by_cases own : event + 24 ≤ fewer
    · simp [own, own.trans le]
    · by_cases room : event + 24 ≤ more <;> simp [own, room]
  by_cases exit : word bytes event = 0x80000000
  · simp only [exit, true_and, or_true, true_implies]
    by_cases own : event + 32 ≤ fewer
    · simp [own, own.trans le]
    · by_cases room : event + 32 ≤ more <;> simp [own, room]
  · simp [fork, exec, exit]

end Event

end SystemPilot.Netlink
