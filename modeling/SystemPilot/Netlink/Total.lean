import SystemPilot.Library.Checked
import SystemPilot.Netlink.Agreement

/-!
# `parse_frames` with its checks

`parse_frames` with every slice, `expect` and sum that could stop the program.
None does: what it makes is what the loop over the chain makes.
-/

set_option autoImplicit false

namespace SystemPilot.Netlink

open SystemPilot.Library.Checked

/-- A slice; a Rust allocation has at most `isize::MAX` bytes. -/
structure ByteSlice where
  bytes : List UInt8
  bounded : bytes.length < 2 ^ 63

/-- `bytes.try_into()` an array. -/
def tryInto (count : Nat) (bytes : List UInt8) : Option (List UInt8) :=
  if bytes.length = count then some bytes else none

/-! ## The source -/

/-- `read_u32`, before its bytes are taken for a number. -/
def readFour (bytes : List UInt8) (offset : Nat) : Except Fault (Option (List UInt8)) := do
  let stop ← add offset 4
  return (get bytes offset stop).bind (tryInto 4)

def readU32 (bytes : List UInt8) (offset : Nat) : Except Fault (Option Nat) :=
  (Option.map (word · 0)) <$> readFour bytes offset

def readI32 (bytes : List UInt8) (offset : Nat) : Except Fault (Option Int) :=
  (Option.map (signedWord · 0)) <$> readFour bytes offset

/-- `read_i32(..).expect(..)`. -/
def expectI32 (bytes : List UInt8) (offset : Nat) : Except Fault Int := do
  expect (← readI32 bytes offset)

/-- The arms of `parse_connector` for an event. -/
def parseEventChecked (event : List UInt8) : Except Fault (List Frame) := do
  let what ← readU32 event 0
  if what = some 1 ∧ 32 ≤ event.length then
    return [.fork (← expectI32 event 16) (← expectI32 event 24)]
  else if what = some 2 ∧ 24 ≤ event.length then
    return [.exec (← expectI32 event 16)]
  else if what = some 0x80000000 ∧ 32 ≤ event.length then
    return [.exit (← expectI32 event 16) (← expectI32 event 24) (← expectI32 event 28)]
  else return []

def parseConnectorChecked (bytes : List UInt8) : Except Fault (List Frame) := do
  if bytes.length < 24 then return []
  else if (← readU32 bytes 0) ≠ some 1 then return []
  else if (← readU32 bytes 4) ≠ some 1 then return []
  else parseEventChecked (← slice bytes 20 bytes.length)

/-- The branch for `NLMSG_ERROR`. -/
def parseErrorChecked (bytes : List UInt8) (offset : Nat) : Except Fault (List Frame) := do
  match get bytes (← add offset 16) (← add offset 20) with
  | some value => return errorFrames (signedWord (← expect (tryInto 4 value)) 0)
  | none => return errorFrames (-eproto)

/-- The branch for every other kind. -/
def parsePayloadChecked (bytes : List UInt8) (offset length : Nat) :
    Except Fault (List Frame) := do
  match get bytes (← add offset 16) (← add offset length) with
  | some connector => parseConnectorChecked connector
  | none => return []

/-- From the aligned length of a message to the next one. -/
def parseAdvance (offset length : Nat) (frames : List Frame) : Step Frame :=
  let aligned := ((checkedAdd length 3).map (· / 4 * 4)).getD 0
  if aligned < 16 then .stop frames
  else
    match checkedAdd offset aligned with
    | some next => .next frames next
    | none => .stop frames

/-- The body of the loop of `parse_frames`. -/
def parseBody (bytes : List UInt8) (offset : Nat) : Except Fault (Step Frame) :=
  match get bytes offset (saturatingAdd offset 16) with
  | none => .ok (.stop [])
  | some header => do
      let length := word (← expect (tryInto 4 (← slice header 0 4))) 0
      if length < 16 ∨ (checkedAdd offset length).all (bytes.length < ·) then return .stop []
      else
        let kind := half (← expect (tryInto 2 (← slice header 4 6))) 0
        let frames ← if kind = 2 then parseErrorChecked bytes offset
          else parsePayloadChecked bytes offset length
        return parseAdvance offset length frames

/-! ## No check fails -/

section Fields

variable {bytes : List UInt8} {offset : Nat}

theorem tryInto_slice {count : Nat} (inside : offset + count ≤ bytes.length) :
    tryInto count ((bytes.drop offset).take (offset + count - offset)) =
      some ((bytes.drop offset).take count) := by
  unfold tryInto
  rw [length_slice inside, if_pos (by omega), Nat.add_sub_cancel_left]

theorem readFour_ok (fits : offset + 4 < positionBound) :
    readFour bytes offset =
      .ok (if offset + 4 ≤ bytes.length then some ((bytes.drop offset).take 4) else none) := by
  unfold readFour
  rw [add_ok fits, ok_bind]
  split
  · rename_i inside
    rw [get_some (by omega) inside, Option.bind_some, tryInto_slice inside]
    rfl
  · rw [get_none (by omega)]
    rfl

theorem byteAt_lt (bytes : List UInt8) (offset : Nat) : byteAt bytes offset < 256 :=
  UInt8.toNat_lt _

theorem word_lt (bytes : List UInt8) (offset : Nat) : word bytes offset < 2 ^ 32 := by
  have first := byteAt_lt bytes offset
  have second := byteAt_lt bytes (offset + 1)
  have third := byteAt_lt bytes (offset + 2)
  have fourth := byteAt_lt bytes (offset + 2 + 1)
  unfold word half
  omega

theorem word_slice : word ((bytes.drop offset).take 4) 0 = word bytes offset := by
  rw [word_take _ (by omega), word_drop, Nat.add_zero]

theorem signedWord_slice : signedWord ((bytes.drop offset).take 4) 0 = signedWord bytes offset := by
  unfold signedWord
  rw [word_slice]

theorem readU32_ok (inside : offset + 4 ≤ bytes.length) (fits : offset + 4 < positionBound) :
    readU32 bytes offset = .ok (some (word bytes offset)) := by
  unfold readU32
  rw [readFour_ok fits, if_pos inside]
  exact congrArg (fun value => Except.ok (some value)) word_slice

theorem expectI32_ok (inside : offset + 4 ≤ bytes.length) (fits : offset + 4 < positionBound) :
    expectI32 bytes offset = .ok (signedWord bytes offset) := by
  unfold expectI32 readI32
  rw [readFour_ok fits, if_pos inside]
  exact congrArg Except.ok signedWord_slice

end Fields

section Branches

variable {bytes : List UInt8} {offset length : Nat}

theorem parseEventChecked_ok (whole : 4 ≤ bytes.length) :
    parseEventChecked bytes =
      .ok (if word bytes 0 = 1 ∧ 32 ≤ bytes.length then
          [.fork (signedWord bytes 16) (signedWord bytes 24)]
        else if word bytes 0 = 2 ∧ 24 ≤ bytes.length then [.exec (signedWord bytes 16)]
        else if word bytes 0 = 0x80000000 ∧ 32 ≤ bytes.length then
          [.exit (signedWord bytes 16) (signedWord bytes 24) (signedWord bytes 28)]
        else []) := by
  have field : ∀ start, start + 4 ≤ bytes.length → start + 4 < positionBound →
      expectI32 bytes start = .ok (signedWord bytes start) :=
    fun start => expectI32_ok
  unfold parseEventChecked
  rw [readU32_ok (by omega) (by decide), ok_bind]
  simp only [Option.some.injEq]
  split
  · rw [field 16 (by omega) (by decide), field 24 (by omega) (by decide)]
    rfl
  · split
    · rw [field 16 (by omega) (by decide)]
      rfl
    · split
      · rw [field 16 (by omega) (by decide), field 24 (by omega) (by decide),
          field 28 (by omega) (by decide)]
        rfl
      · rfl

theorem parseConnectorChecked_ok (bytes : List UInt8) :
    parseConnectorChecked bytes = .ok (parseConnector bytes).1 := by
  unfold parseConnectorChecked parseConnector
  split
  · rfl
  · rename_i long
    rw [readU32_ok (by omega) (by decide), readU32_ok (by omega) (by decide), ok_bind, ok_bind]
    simp only [ne_eq, Option.some.injEq]
    split
    · rfl
    · split
      · rfl
      · have event : (bytes.drop 20).take (bytes.length - 20) = bytes.drop 20 :=
          List.take_of_length_le (by rw [List.length_drop])
        rw [slice_ok (by omega) le_rfl, ok_bind, event,
          parseEventChecked_ok (by rw [List.length_drop]; omega)]
        split
        · rfl
        · split
          · rfl
          · split <;> rfl

variable (bounded : bytes.length < 2 ^ 63) (inside : offset + length ≤ bytes.length)
  (minimum : 16 ≤ length)
include bounded inside minimum

theorem parseErrorChecked_ok (isError : half bytes (offset + 4) = 2) :
    parseErrorChecked bytes offset = .ok (parseMessage bytes ⟨offset, length⟩).frames := by
  unfold parseErrorChecked parseMessage
  have start : offset + 16 < positionBound := by unfold positionBound; omega
  have stop : offset + 20 < positionBound := by unfold positionBound; omega
  rw [if_pos isError, add_ok start, add_ok stop, ok_bind, ok_bind]
  by_cases present : offset + 20 ≤ bytes.length
  · have code : tryInto 4 ((bytes.drop (offset + 16)).take (offset + 20 - (offset + 16))) =
        some ((bytes.drop (offset + 16)).take 4) :=
      @tryInto_slice bytes (offset + 16) 4 present
    rw [get_some (by omega) present, if_pos present]
    dsimp only
    rw [code]
    exact congrArg (fun value => Except.ok (errorFrames value)) signedWord_slice
  · rw [get_none (by omega), if_neg present]
    rfl

theorem parsePayloadChecked_ok (notError : half bytes (offset + 4) ≠ 2) :
    parsePayloadChecked bytes offset length =
      .ok (parseMessage bytes ⟨offset, length⟩).frames := by
  unfold parsePayloadChecked parseMessage
  have start : offset + 16 < positionBound := by unfold positionBound; omega
  have stop : offset + length < positionBound := by unfold positionBound; omega
  rw [if_neg notError, add_ok start, add_ok stop, ok_bind, ok_bind, get_some (by omega) inside]
  dsimp only
  rw [parseConnectorChecked_ok, show offset + length - (offset + 16) = length - 16 by omega]

theorem parseAdvance_ok (frames : List Frame) :
    parseAdvance offset length frames = .next frames (offset + nlmsgAlign length) := by
  have sum : length + 3 < positionBound := by unfold positionBound; omega
  have next : offset + nlmsgAlign length < positionBound := by
    unfold positionBound nlmsgAlign
    omega
  have far : ¬nlmsgAlign length < 16 := by
    unfold nlmsgAlign
    omega
  unfold parseAdvance
  rw [checkedAdd_some sum]
  change (if nlmsgAlign length < 16 then _ else _) = _
  rw [if_neg far]
  change (match checkedAdd offset (nlmsgAlign length) with | some next => _ | none => _) = _
  rw [checkedAdd_some next]

end Branches

/-! ## The loop -/

section Header

variable {bytes : List UInt8} {offset : Nat} (header : offset + 16 ≤ bytes.length)
include header

theorem length_header : ((bytes.drop offset).take 16).length = 16 := by
  rw [List.length_take, List.length_drop]
  omega

theorem slice_length_ok :
    slice ((bytes.drop offset).take 16) 0 4 = .ok ((bytes.drop offset).take 4) := by
  have size := length_header header
  rw [slice_ok (Nat.zero_le 4) (by omega), List.drop_zero, List.take_take]
  rfl

theorem slice_kind_ok :
    slice ((bytes.drop offset).take 16) 4 6 = .ok ((bytes.drop (offset + 4)).take 2) := by
  have size := length_header header
  rw [slice_ok (by omega) (by omega), List.drop_take, List.drop_drop, List.take_take]
  rfl

theorem tryInto_length_ok :
    tryInto 4 ((bytes.drop offset).take 4) = some ((bytes.drop offset).take 4) := by
  unfold tryInto
  rw [List.length_take, List.length_drop, if_pos (by omega)]

theorem tryInto_kind_ok :
    tryInto 2 ((bytes.drop (offset + 4)).take 2) = some ((bytes.drop (offset + 4)).take 2) := by
  unfold tryInto
  rw [List.length_take, List.length_drop, if_pos (by omega)]

omit header in
theorem half_slice : half ((bytes.drop offset).take 2) 0 = half bytes offset := by
  rw [half_take _ (by omega)]
  unfold half
  rw [byteAt_drop, byteAt_drop, Nat.add_zero]

end Header

section Loop

variable {bytes : List UInt8} (bounded : bytes.length < 2 ^ 63)
include bounded

/-- The body up to the length of a message. -/
theorem parseBody_header {offset : Nat} (header : offset + 16 ≤ bytes.length) :
    parseBody bytes offset =
      if word bytes offset < 16 ∨ bytes.length < offset + word bytes offset then .ok (.stop [])
      else do
        let frames ← if half bytes (offset + 4) = 2 then parseErrorChecked bytes offset
          else parsePayloadChecked bytes offset (word bytes offset)
        return parseAdvance offset (word bytes offset) frames := by
  have sum : offset + 16 < positionBound := by unfold positionBound; omega
  have size : offset + word bytes offset < positionBound := by
    have bound := word_lt bytes offset
    unfold positionBound
    omega
  unfold parseBody
  rw [saturatingAdd_eq sum, get_some (by omega) header, Nat.add_sub_cancel_left]
  dsimp only
  rw [slice_length_ok header, ok_bind, tryInto_length_ok header]
  change (if word ((bytes.drop offset).take 4) 0 < 16 ∨ _ then _ else _) = _
  rw [word_slice, checkedAdd_some size, Option.all_some]
  simp only [decide_eq_true_eq]
  split
  · rfl
  · rw [slice_kind_ok header, ok_bind, tryInto_kind_ok header]
    change (if half ((bytes.drop (offset + 4)).take 2) 0 = 2 then _ else _) = _
    rw [half_slice]

/-- The body at a message that the loop accepts. -/
theorem parseBody_message {offset : Nat} (header : offset + 16 ≤ bytes.length)
    (accepted : ¬(word bytes offset < 16 ∨ bytes.length < offset + word bytes offset)) :
    parseBody bytes offset =
      .ok (.next (parseMessage bytes ⟨offset, word bytes offset⟩).frames
        (offset + nlmsgAlign (word bytes offset))) := by
  have inside : offset + word bytes offset ≤ bytes.length := by omega
  have minimum : 16 ≤ word bytes offset := by omega
  rw [parseBody_header bounded header, if_neg accepted]
  split
  · rename_i isError
    rw [parseErrorChecked_ok bounded inside minimum isError, ok_bind]
    exact congrArg Except.ok (parseAdvance_ok bounded inside minimum _)
  · rename_i notError
    rw [parsePayloadChecked_ok bounded inside minimum notError, ok_bind]
    exact congrArg Except.ok (parseAdvance_ok bounded inside minimum _)

/-- Anywhere else the body stops. -/
theorem parseBody_end {offset : Nat} (ended : bytes.length < offset + 16) :
    parseBody bytes offset = .ok (.stop []) := by
  have outside : bytes.length < saturatingAdd offset 16 := by
    unfold saturatingAdd positionBound
    omega
  unfold parseBody
  rw [get_none outside]

/-- The body goes on only behind a header, and at least 16 bytes further. -/
theorem parseBody_advances {offset next : Nat} {frames : List Frame}
    (pass : parseBody bytes offset = .ok (.next frames next)) :
    offset + 16 ≤ bytes.length ∧ offset + 16 ≤ next := by
  by_cases header : offset + 16 ≤ bytes.length
  · by_cases rejected : word bytes offset < 16 ∨ bytes.length < offset + word bytes offset
    · rw [parseBody_header bounded header, if_pos rejected] at pass
      injection pass with stopped
      contradiction
    · rw [parseBody_message bounded header rejected] at pass
      injection pass with went
      injection went with same later
      unfold nlmsgAlign at later
      omega
  · rw [parseBody_end bounded (by omega)] at pass
    injection pass with stopped
    contradiction

end Loop

/-- A pass takes a header's bytes. -/
theorem header_pos : 0 < 16 := by decide

/-- The loop of `parse_frames`. -/
def parseScanner (slice : ByteSlice) : Scanner Frame where
  body := parseBody slice.bytes
  limit := slice.bytes.length
  stride := 16
  positive := header_pos
  advances := parseBody_advances slice.bounded

def parseFramesChecked (slice : ByteSlice) : Except Fault (List Frame) :=
  (parseScanner slice).run 0

theorem parseScanner_run (slice : ByteSlice) (offset : Nat) :
    (parseScanner slice).run offset =
      .ok ((parseReadings slice.bytes offset).flatMap Reading.frames) := by
  fun_induction parseReadings slice.bytes offset with
  | case1 offset header length rejected =>
      apply Scanner.run_stop
      exact (parseBody_header slice.bounded header).trans (if_pos rejected)
  | case2 offset header length accepted inductionHypothesis =>
      rw [Scanner.run_next _ (parseBody_message slice.bounded header accepted),
        inductionHypothesis]
      rfl
  | case3 offset header =>
      apply Scanner.run_stop
      exact parseBody_end slice.bounded (by omega)

/-- No check of `parse_frames` fails. -/
theorem parseFramesChecked_ok (slice : ByteSlice) :
    parseFramesChecked slice = .ok (parseFrames slice.bytes) :=
  parseScanner_run slice 0

end SystemPilot.Netlink
