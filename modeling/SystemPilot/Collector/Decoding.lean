import SystemPilot.Collector.Abi

/-!
# Decoded records

What `RawEvent::decode` accepts, that the record it makes is the bytes it was
made of, and which of their fields an event keeps.  A loss is about the
collector, so its event has no process and no cgroup.
-/

set_option autoImplicit false

namespace SystemPilot.Collector

open SystemPilot.Library.LittleEndian
open SystemPilot.Forensics

/-- The record of a kind that the bytes hold. -/
def RawEvent.read (bytes : List UInt8) : EventKind → RawEvent
  | .processExit => .processExit (RawProcessExit.read bytes (RawEventHeader.read bytes))
  | .signalGenerated =>
      .signalGenerated (RawSignalGenerated.read bytes (RawEventHeader.read bytes))
  | .oomVictim => .oomVictim (RawOomVictim.read bytes (RawEventHeader.read bytes))
  | .telemetryLoss => .telemetryLoss (RawTelemetryLoss.read bytes (RawEventHeader.read bytes))

/-- The bytes start with a record of the kind. -/
structure Acceptable (bytes : List UInt8) (kind : EventKind) : Prop where
  header : rawEventHeaderSize ≤ bytes.length
  version : u16 bytes 0 = abiVersion
  tag : u16 bytes 2 = kind.raw
  size : (u32 bytes 4).toNat = kind.recordSize
  whole : kind.recordSize ≤ bytes.length

def RawEvent.isLoss : RawEvent → Bool
  | .telemetryLoss _ => true
  | _ => false

/-- The cgroup of the process an event is about. -/
def cgroupOf : KernelEvent → Option Nat
  | .processExit _ _ _ _ cgroupId _ _ => some cgroupId
  | .signalGenerated _ _ _ _ _ _ _ cgroupId => some cgroupId
  | .oomVictim _ _ cgroupId _ => some cgroupId
  | .telemetryLoss _ _ => none

/-- The event has what its kind of record says apart from the header, of the flags
the lowest bit. -/
def RawEvent.Carried : RawEvent → KernelEvent → Prop
  | .processExit record, .processExit _ _ pid ppid _ exitCode isGroupLeader =>
      pid = record.header.pid.toNat ∧ ppid = record.ppid.toNat ∧
        exitCode = record.exitCode.toInt ∧
        (isGroupLeader = true ↔ record.flags.toNat % 2 = 1)
  | .signalGenerated record, .signalGenerated _ _ signal siCode senderPid senderUid
        senderIsKernel _ =>
      signal = record.signal.toInt ∧ siCode = record.siCode.toInt ∧
        senderPid = record.senderPid.toNat ∧ senderUid = record.senderUid.toNat ∧
        (senderIsKernel = true ↔ record.flags.toNat % 2 = 1)
  | .oomVictim record, .oomVictim _ _ _ kind =>
      (kind = .global ↔ record.oomKind = 1) ∧ (kind = .memcg ↔ record.oomKind = 2)
  | .telemetryLoss record, .telemetryLoss _ droppedRecords =>
      droppedRecords = record.droppedRecords.toNat
  | _, _ => False

/-- What an event keeps of its record. -/
structure RawEvent.Kept (record : RawEvent) (event : KernelEvent) : Prop where
  timestamp : event.timestampNs = record.header.timestampNs.toNat
  identity : event.identity = if record.isLoss then none else some record.header.identity
  cgroup : cgroupOf event = if record.isLoss then none else some record.header.cgroupId.toNat
  carried : record.Carried event

/-- The records have the fields in common that their events keep. -/
def RawEvent.Agree : RawEvent → RawEvent → Prop
  | .processExit left, .processExit right =>
      left.header.timestampNs = right.header.timestampNs ∧
        left.header.tgid = right.header.tgid ∧
        left.header.startBoottimeNs = right.header.startBoottimeNs ∧
        left.header.pid = right.header.pid ∧ left.ppid = right.ppid ∧
        left.header.cgroupId = right.header.cgroupId ∧ left.exitCode = right.exitCode ∧
        left.flags &&& 1 = right.flags &&& 1
  | .signalGenerated left, .signalGenerated right =>
      left.header.timestampNs = right.header.timestampNs ∧
        left.header.tgid = right.header.tgid ∧
        left.header.startBoottimeNs = right.header.startBoottimeNs ∧
        left.signal = right.signal ∧ left.siCode = right.siCode ∧
        left.senderPid = right.senderPid ∧ left.senderUid = right.senderUid ∧
        left.flags &&& 1 = right.flags &&& 1 ∧ left.header.cgroupId = right.header.cgroupId
  | .oomVictim left, .oomVictim right =>
      left.header.timestampNs = right.header.timestampNs ∧
        left.header.tgid = right.header.tgid ∧
        left.header.startBoottimeNs = right.header.startBoottimeNs ∧
        left.header.cgroupId = right.header.cgroupId ∧
        (left.oomKind = 1 ↔ right.oomKind = 1) ∧ (left.oomKind = 2 ↔ right.oomKind = 2)
  | .telemetryLoss left, .telemetryLoss right =>
      left.header.timestampNs = right.header.timestampNs ∧
        left.droppedRecords = right.droppedRecords
  | _, _ => False

/-! ## Acceptance -/

section Acceptance

variable {bytes : List UInt8}

theorem rawEventHeaderSize_le (kind : EventKind) : rawEventHeaderSize ≤ kind.recordSize := by
  cases kind <;> decide

theorem header_decode {kind : EventKind} (acceptable : Acceptable bytes kind) :
    RawEventHeader.decode bytes = some (RawEventHeader.read bytes) := by
  have least := rawEventHeaderSize_le kind
  have whole := acceptable.whole
  unfold RawEventHeader.decode
  rw [if_neg (by have := acceptable.header; omega)]
  apply if_pos
  refine ⟨acceptable.version, ?_, ?_, ?_⟩
  · have known := EventKind.fromRaw_eq_some_iff.mpr acceptable.tag
    change (EventKind.fromRaw (u16 bytes 2)).isSome = true
    rw [known]
    rfl
  · change rawEventHeaderSize ≤ (u32 bytes 4).toNat
    rw [acceptable.size]
    exact least
  · change (u32 bytes 4).toNat ≤ bytes.length
    rw [acceptable.size]
    exact whole

theorem header_of_decode {header : RawEventHeader}
    (decoded : RawEventHeader.decode bytes = some header) :
    rawEventHeaderSize ≤ bytes.length ∧ u16 bytes 0 = abiVersion ∧
      header = RawEventHeader.read bytes := by
  unfold RawEventHeader.decode at decoded
  split at decoded
  · contradiction
  · rename_i long
    dsimp only at decoded
    split at decoded
    · rename_i valid
      injection decoded with same
      exact ⟨not_lt.mp long, valid.1, same.symm⟩
    · contradiction

theorem decodeRecord_acceptable {α : Type} {kind : EventKind} (acceptable : Acceptable bytes kind)
    (read : RawEventHeader → α) :
    decodeRecord kind read bytes = some (read (RawEventHeader.read bytes)) := by
  unfold decodeRecord
  rw [header_decode acceptable]
  apply if_neg
  rintro (tag | size | whole)
  · exact tag acceptable.tag
  · exact size acceptable.size
  · exact absurd acceptable.whole (by omega)

theorem acceptable_of_decodeRecord {α : Type} {kind : EventKind} {read : RawEventHeader → α}
    {record : α} (decoded : decodeRecord kind read bytes = some record) :
    Acceptable bytes kind := by
  unfold decodeRecord at decoded
  cases header : RawEventHeader.decode bytes with
  | none =>
      rw [header] at decoded
      contradiction
  | some found =>
      obtain ⟨long, version, same⟩ := header_of_decode header
      rw [header] at decoded
      change (if _ then _ else _) = _ at decoded
      split at decoded
      · contradiction
      · rename_i valid
        rw [same] at valid
        obtain ⟨tag, size, whole⟩ := not_or.mp valid |>.imp_right not_or.mp
        exact ⟨long, version, not_not.mp tag, not_not.mp size, not_lt.mp whole⟩

theorem decodeRecord_map_iff {α : Type} {kind : EventKind} {read : RawEventHeader → α}
    {wrap : α → RawEvent} {event : RawEvent} :
    (decodeRecord kind read bytes).map wrap = some event ↔
      Acceptable bytes kind ∧ event = wrap (read (RawEventHeader.read bytes)) := by
  constructor
  · intro decoded
    obtain ⟨record, found, wrapped⟩ := Option.map_eq_some_iff.mp decoded
    have acceptable := acceptable_of_decodeRecord found
    rw [decodeRecord_acceptable acceptable] at found
    injection found with same
    exact ⟨acceptable, by rw [← wrapped, ← same]⟩
  · rintro ⟨acceptable, same⟩
    rw [decodeRecord_acceptable acceptable, same]
    rfl

theorem decodeKind_eq_some_iff {kind : EventKind} {event : RawEvent} :
    RawEvent.decodeKind bytes kind = some event ↔
      Acceptable bytes kind ∧ event = RawEvent.read bytes kind := by
  cases kind <;> exact decodeRecord_map_iff

/-- The decoder reads the record of the kind its bytes start with. -/
theorem decode_eq_some_iff {event : RawEvent} :
    RawEvent.decode bytes = some event ↔
      ∃ kind, Acceptable bytes kind ∧ event = RawEvent.read bytes kind := by
  constructor
  · intro decoded
    obtain ⟨header, -, known⟩ := Option.bind_eq_some_iff.mp decoded
    obtain ⟨kind, -, ofKind⟩ := Option.bind_eq_some_iff.mp known
    exact ⟨kind, decodeKind_eq_some_iff.mp ofKind⟩
  · rintro ⟨kind, acceptable, same⟩
    refine Option.bind_eq_some_iff.mpr ⟨_, header_decode acceptable, ?_⟩
    exact Option.bind_eq_some_iff.mpr ⟨kind, EventKind.fromRaw_eq_some_iff.mpr acceptable.tag,
      decodeKind_eq_some_iff.mpr ⟨acceptable, same⟩⟩

/-- The decoder accepts exactly the bytes that start with a record of some kind. -/
theorem decode_isSome_iff :
    (RawEvent.decode bytes).isSome ↔ ∃ kind, Acceptable bytes kind := by
  rw [Option.isSome_iff_exists]
  constructor
  · rintro ⟨event, decoded⟩
    obtain ⟨kind, acceptable, -⟩ := decode_eq_some_iff.mp decoded
    exact ⟨kind, acceptable⟩
  · rintro ⟨kind, acceptable⟩
    exact ⟨_, decode_eq_some_iff.mpr ⟨kind, acceptable, rfl⟩⟩

end Acceptance

/-! ## The bytes of a record -/

section Bytes

variable {bytes : List UInt8} {offset : Nat}

theorem encode_u16 (inside : offset + 2 ≤ bytes.length) :
    encode 2 (u16 bytes offset).toNat = field bytes offset 2 := by
  unfold u16
  rw [UInt16.toNat_ofNat_of_lt' (number_field_lt offset 2), encode_number_field inside]

theorem encode_u32 (inside : offset + 4 ≤ bytes.length) :
    encode 4 (u32 bytes offset).toNat = field bytes offset 4 := by
  unfold u32
  rw [UInt32.toNat_ofNat_of_lt' (number_field_lt offset 4), encode_number_field inside]

theorem encode_u64 (inside : offset + 8 ≤ bytes.length) :
    encode 8 (u64 bytes offset).toNat = field bytes offset 8 := by
  unfold u64
  rw [UInt64.toNat_ofNat_of_lt' (number_field_lt offset 8), encode_number_field inside]

theorem encode_i32 (inside : offset + 4 ≤ bytes.length) :
    encode 4 (i32 bytes offset).toUInt32.toNat = field bytes offset 4 := by
  unfold i32
  rw [UInt32.toUInt32_toInt32, encode_u32 inside]

/-- The sizes of the header's fields. -/
def headerSizes : List Nat := [2, 2, 4, 8, 4, 4, 8, 8]

/-- The sizes of a record's fields. -/
def EventKind.sizes : EventKind → List Nat
  | processExit => headerSizes ++ [4, 4, 4, 4]
  | signalGenerated => headerSizes ++ [4, 4, 4, 4, 4, 4]
  | oomVictim => headerSizes ++ [4, 4]
  | telemetryLoss => headerSizes ++ [8]

theorem sum_sizes (kind : EventKind) : kind.sizes.sum = kind.recordSize := by
  cases kind <;> rfl

theorem aligned_sizes (kind : EventKind) : Aligned 0 kind.sizes := by
  cases kind <;> decide

theorem filled_sizes (kind : EventKind) : padding kind.recordSize 8 = 0 := by
  cases kind <;> rfl

theorem fields_header (long : rawEventHeaderSize ≤ bytes.length) :
    (RawEventHeader.read bytes).fields = fieldsFrom bytes 0 headerSizes := by
  unfold rawEventHeaderSize at long
  unfold RawEventHeader.fields RawEventHeader.read headerSizes
  dsimp only
  rw [encode_u16 (by omega), encode_u16 (by omega), encode_u32 (by omega), encode_u64 (by omega),
    encode_u32 (by omega), encode_u32 (by omega), encode_u64 (by omega), encode_u64 (by omega)]
  rfl

/-- The fields of a decoded record are the bytes, cut where the fields end. -/
theorem fields_read {kind : EventKind} (whole : kind.recordSize ≤ bytes.length) :
    (RawEvent.read bytes kind).fields = fieldsFrom bytes 0 kind.sizes := by
  have header := fields_header ((rawEventHeaderSize_le kind).trans whole)
  cases kind with
  | processExit =>
      change 56 ≤ bytes.length at whole
      unfold RawEvent.read RawEvent.fields RawProcessExit.read
      dsimp only
      rw [header, encode_u32 (by omega), encode_i32 (by omega), encode_u32 (by omega),
        encode_u32 (by omega)]
      rfl
  | signalGenerated =>
      change 64 ≤ bytes.length at whole
      unfold RawEvent.read RawEvent.fields RawSignalGenerated.read
      dsimp only
      rw [header, encode_i32 (by omega), encode_i32 (by omega), encode_u32 (by omega),
        encode_u32 (by omega), encode_u32 (by omega), encode_u32 (by omega)]
      rfl
  | oomVictim =>
      change 48 ≤ bytes.length at whole
      unfold RawEvent.read RawEvent.fields RawOomVictim.read
      dsimp only
      rw [header, encode_u32 (by omega), encode_u32 (by omega)]
      rfl
  | telemetryLoss =>
      change 48 ≤ bytes.length at whole
      unfold RawEvent.read RawEvent.fields RawTelemetryLoss.read
      dsimp only
      rw [header, encode_u64 (by omega)]
      rfl

/-- Encoded again, a record is the bytes it was read from. -/
theorem encode_read {kind : EventKind} (whole : kind.recordSize ≤ bytes.length) :
    (RawEvent.read bytes kind).encode = bytes.take kind.recordSize := by
  have sizes : (RawEvent.read bytes kind).fields.map List.length = kind.sizes := by
    rw [fields_read whole, length_fieldsFrom (by rw [sum_sizes]; omega)]
  unfold RawEvent.encode
  rw [reprC_aligned (by rw [sizes]; exact aligned_sizes kind)
    (by rw [sizes, sum_sizes]; exact filled_sizes kind), fields_read whole, flatten_fieldsFrom,
    sum_sizes]
  rfl

theorem header_read (kind : EventKind) :
    (RawEvent.read bytes kind).header = RawEventHeader.read bytes := by
  cases kind <;> rfl

theorem size_read {kind : EventKind} (acceptable : Acceptable bytes kind) :
    (RawEvent.read bytes kind).header.size.toNat = kind.recordSize := by
  rw [header_read]
  exact acceptable.size

end Bytes

/-! ## Later bytes -/

section Later

variable {bytes : List UInt8} {limit : Nat}

theorem u16_take {offset : Nat} (inside : offset + 2 ≤ limit) :
    u16 (bytes.take limit) offset = u16 bytes offset := by
  unfold u16
  rw [field_take inside]

theorem u32_take {offset : Nat} (inside : offset + 4 ≤ limit) :
    u32 (bytes.take limit) offset = u32 bytes offset := by
  unfold u32
  rw [field_take inside]

theorem u64_take {offset : Nat} (inside : offset + 8 ≤ limit) :
    u64 (bytes.take limit) offset = u64 bytes offset := by
  unfold u64
  rw [field_take inside]

theorem i32_take {offset : Nat} (inside : offset + 4 ≤ limit) :
    i32 (bytes.take limit) offset = i32 bytes offset := by
  unfold i32
  rw [u32_take inside]

theorem header_read_take (inside : rawEventHeaderSize ≤ limit) :
    RawEventHeader.read (bytes.take limit) = RawEventHeader.read bytes := by
  unfold rawEventHeaderSize at inside
  unfold RawEventHeader.read
  rw [u16_take (by omega), u16_take (by omega), u32_take (by omega), u64_take (by omega),
    u32_take (by omega), u32_take (by omega), u64_take (by omega), u64_take (by omega)]

/-- Only the declared bytes are read. -/
theorem read_take (kind : EventKind) :
    RawEvent.read (bytes.take kind.recordSize) kind = RawEvent.read bytes kind := by
  have header := @header_read_take bytes _ (rawEventHeaderSize_le kind)
  cases kind with
  | processExit =>
      unfold RawEvent.read RawProcessExit.read
      rw [header, u32_take (by decide), i32_take (by decide), u32_take (by decide),
        u32_take (by decide)]
  | signalGenerated =>
      unfold RawEvent.read RawSignalGenerated.read
      rw [header, i32_take (by decide), i32_take (by decide), u32_take (by decide),
        u32_take (by decide), u32_take (by decide), u32_take (by decide)]
  | oomVictim =>
      unfold RawEvent.read RawOomVictim.read
      rw [header, u32_take (by decide), u32_take (by decide)]
  | telemetryLoss =>
      unfold RawEvent.read RawTelemetryLoss.read
      rw [header, u64_take (by decide)]

theorem acceptable_congr {kind : EventKind} {other : List UInt8} (acceptable : Acceptable bytes kind)
    (same : other.take kind.recordSize = bytes.take kind.recordSize) : Acceptable other kind := by
  have least := rawEventHeaderSize_le kind
  unfold rawEventHeaderSize at least
  have size := congrArg List.length same
  have whole := acceptable.whole
  rw [List.length_take, List.length_take] at size
  refine ⟨?_, ?_, ?_, ?_, by omega⟩
  · unfold rawEventHeaderSize
    omega
  · rw [← @u16_take other kind.recordSize _ (by omega), same, u16_take (by omega)]
    exact acceptable.version
  · rw [← @u16_take other kind.recordSize _ (by omega), same, u16_take (by omega)]
    exact acceptable.tag
  · rw [← @u32_take other kind.recordSize _ (by omega), same, u32_take (by omega)]
    exact acceptable.size

end Later

/-! ## Events -/

section Events

theorem flag_cases (flags : UInt32) :
    flags &&& 1 = 0 ∧ flags.toNat % 2 = 0 ∨ flags &&& 1 = 1 ∧ flags.toNat % 2 = 1 := by
  have low : (flags &&& 1).toNat = flags.toNat % 2 := by
    rw [UInt32.toNat_and]
    exact Nat.and_one_is_mod flags.toNat
  rcases Nat.mod_two_eq_zero_or_one flags.toNat with even | odd
  · exact Or.inl ⟨UInt32.toNat_inj.mp (low.trans even), even⟩
  · exact Or.inr ⟨UInt32.toNat_inj.mp (low.trans odd), odd⟩

theorem flag_iff (flags : UInt32) : (flags &&& 1 != 0) = true ↔ flags.toNat % 2 = 1 := by
  rcases flag_cases flags with ⟨clear, even⟩ | ⟨set, odd⟩
  · rw [clear, even]
    decide
  · rw [set, odd]
    decide

theorem flag_eq_iff (left right : UInt32) :
    (left &&& 1 != 0) = (right &&& 1 != 0) ↔ left &&& 1 = right &&& 1 := by
  rcases flag_cases left with ⟨clear, -⟩ | ⟨set, -⟩ <;>
    rcases flag_cases right with ⟨other, -⟩ | ⟨other, -⟩
  · rw [clear, other]
    decide
  · rw [clear, other]
    decide
  · rw [set, other]
    decide
  · rw [set, other]
    decide

theorem identity_eq_iff (left right : RawEventHeader) :
    left.identity = right.identity ↔
      left.tgid = right.tgid ∧ left.startBoottimeNs = right.startBoottimeNs := by
  unfold RawEventHeader.identity
  rw [ProcessIdentity.mk.injEq, UInt32.toNat_inj, UInt64.toNat_inj]

/-- The class of an out-of-memory kill, by its raw kind. -/
theorem oomKind_iff (kind : UInt32) :
    ((if kind = 1 then OomKind.global else if kind = 2 then .memcg else .unknown) = .global ↔
        kind = 1) ∧
      ((if kind = 1 then OomKind.global else if kind = 2 then .memcg else .unknown) = .memcg ↔
        kind = 2) := by
  by_cases first : kind = 1
  · rw [if_pos first, first]
    decide
  by_cases second : kind = 2
  · rw [if_neg first, if_pos second, second]
    decide
  · rw [if_neg first, if_neg second]
    simp [first, second]

theorem oomKind_eq_iff (left right : UInt32) :
    (if left = 1 then OomKind.global else if left = 2 then .memcg else .unknown) =
        (if right = 1 then OomKind.global else if right = 2 then .memcg else .unknown) ↔
      (left = 1 ↔ right = 1) ∧ (left = 2 ↔ right = 2) := by
  obtain ⟨globalLeft, memcgLeft⟩ := oomKind_iff left
  obtain ⟨globalRight, memcgRight⟩ := oomKind_iff right
  constructor
  · intro same
    rw [same] at globalLeft memcgLeft
    exact ⟨globalLeft.symm.trans globalRight, memcgLeft.symm.trans memcgRight⟩
  · rintro ⟨first, second⟩
    by_cases isGlobal : left = 1
    · rw [if_pos isGlobal, if_pos (first.mp isGlobal)]
    by_cases isMemcg : left = 2
    · rw [if_neg isGlobal, if_pos isMemcg, if_neg (mt first.mpr isGlobal),
        if_pos (second.mp isMemcg)]
    · rw [if_neg isGlobal, if_neg isMemcg, if_neg (mt first.mpr isGlobal),
        if_neg (mt second.mpr isMemcg)]

/-- An event keeps the fields of its record that it has a place for. -/
theorem kept_normalize (record : RawEvent) : record.Kept (normalizeRawEvent record) := by
  cases record with
  | processExit record => exact ⟨rfl, rfl, rfl, rfl, rfl, rfl, flag_iff record.flags⟩
  | signalGenerated record => exact ⟨rfl, rfl, rfl, rfl, rfl, rfl, rfl, flag_iff record.flags⟩
  | oomVictim record => exact ⟨rfl, rfl, rfl, oomKind_iff record.oomKind⟩
  | telemetryLoss record => exact ⟨rfl, rfl, rfl, rfl⟩

/-- Two records make one event exactly when they agree in what an event keeps. -/
theorem normalize_eq_iff (left right : RawEvent) :
    normalizeRawEvent left = normalizeRawEvent right ↔ left.Agree right := by
  cases left with
  | processExit left =>
      cases right with
      | processExit right =>
          unfold normalizeRawEvent RawEvent.Agree RawProcessExit.isGroupLeader
          dsimp only
          rw [KernelEvent.processExit.injEq, identity_eq_iff, flag_eq_iff, UInt64.toNat_inj,
            UInt64.toNat_inj, UInt32.toNat_inj, UInt32.toNat_inj, Int32.toInt_inj, and_assoc]
      | _ => exact ⟨fun same => absurd same (by simp [normalizeRawEvent]), False.elim⟩
  | signalGenerated left =>
      cases right with
      | signalGenerated right =>
          unfold normalizeRawEvent RawEvent.Agree RawSignalGenerated.senderIsKernel
          dsimp only
          rw [KernelEvent.signalGenerated.injEq, identity_eq_iff, flag_eq_iff, UInt64.toNat_inj,
            UInt64.toNat_inj, UInt32.toNat_inj, UInt32.toNat_inj, Int32.toInt_inj,
            Int32.toInt_inj, and_assoc]
      | _ => exact ⟨fun same => absurd same (by simp [normalizeRawEvent]), False.elim⟩
  | oomVictim left =>
      cases right with
      | oomVictim right =>
          unfold normalizeRawEvent RawEvent.Agree
          dsimp only
          rw [KernelEvent.oomVictim.injEq, identity_eq_iff, oomKind_eq_iff, UInt64.toNat_inj,
            UInt64.toNat_inj, and_assoc]
      | _ => exact ⟨fun same => absurd same (by simp [normalizeRawEvent]), False.elim⟩
  | telemetryLoss left =>
      cases right with
      | telemetryLoss right =>
          unfold normalizeRawEvent RawEvent.Agree
          dsimp only
          rw [KernelEvent.telemetryLoss.injEq, UInt64.toNat_inj, UInt64.toNat_inj]
      | _ => exact ⟨fun same => absurd same (by simp [normalizeRawEvent]), False.elim⟩

end Events

/-! ## The ABI -/

/-- `RawEvent::decode` accepts exactly the bytes that start with a record of some
kind; the record is those bytes, whatever follows them; and its event keeps what
it has a place for, so that two records make one event exactly when they agree
in that. -/
theorem kernel_event_abi (bytes : List UInt8) :
    ((RawEvent.decode bytes).isSome ↔ ∃ kind, Acceptable bytes kind) ∧
      ∀ event, RawEvent.decode bytes = some event →
        event.encode = bytes.take event.header.size.toNat ∧
        (∀ other : List UInt8,
          other.take event.header.size.toNat = bytes.take event.header.size.toNat →
            RawEvent.decode other = some event) ∧
        event.Kept (normalizeRawEvent event) ∧
        ∀ (other : List UInt8) (another : RawEvent), RawEvent.decode other = some another →
          (normalizeRawEvent event = normalizeRawEvent another ↔ event.Agree another) := by
  refine ⟨decode_isSome_iff, ?_⟩
  intro event decoded
  obtain ⟨kind, acceptable, same⟩ := decode_eq_some_iff.mp decoded
  have size : event.header.size.toNat = kind.recordSize := by
    rw [same, size_read acceptable]
  refine ⟨?_, ?_, kept_normalize event, ?_⟩
  · rw [size, same, encode_read acceptable.whole]
  · intro other prefixes
    rw [size] at prefixes
    refine decode_eq_some_iff.mpr ⟨kind, acceptable_congr acceptable prefixes, ?_⟩
    rw [same, ← read_take, ← prefixes, read_take]
  · intro other another _
    exact normalize_eq_iff event another

/-- A loss record of 48 bytes for a thread group. -/
def lossRecord (tgid : UInt8) : List UInt8 :=
  [1, 0, 4, 0, 48, 0, 0, 0] ++ [9, 0, 0, 0, 0, 0, 0, 0] ++ [tgid, 0, 0, 0, 0, 0, 0, 0] ++
    [0, 0, 0, 0, 0, 0, 0, 0] ++ [0, 0, 0, 0, 0, 0, 0, 0] ++ [1, 0, 0, 0, 0, 0, 0, 0]

/-- A record of 48 bytes of an out-of-memory kill. -/
def oomRecord (oomKind : UInt8) : List UInt8 :=
  [1, 0, 3, 0, 48, 0, 0, 0] ++ [9, 0, 0, 0, 0, 0, 0, 0] ++ [5, 0, 0, 0, 5, 0, 0, 0] ++
    [7, 0, 0, 0, 0, 0, 0, 0] ++ [2, 0, 0, 0, 0, 0, 0, 0] ++ [oomKind, 0, 0, 0, 0, 0, 0, 0]

/-- Losses in two thread groups make one event, and so do two unknown kinds of an
out-of-memory kill. -/
theorem records_collapse :
    (((RawEvent.decode (lossRecord 5)).map fun event => event.header.tgid) = some 5 ∧
      ((RawEvent.decode (lossRecord 6)).map fun event => event.header.tgid) = some 6 ∧
      (RawEvent.decode (lossRecord 5)).map normalizeRawEvent =
        (RawEvent.decode (lossRecord 6)).map normalizeRawEvent) ∧
      RawEvent.decode (oomRecord 0) ≠ RawEvent.decode (oomRecord 3) ∧
      (RawEvent.decode (oomRecord 0)).map normalizeRawEvent =
        (RawEvent.decode (oomRecord 3)).map normalizeRawEvent := by
  decide

end SystemPilot.Collector
