import SystemPilot.Library.LittleEndian
import SystemPilot.Forensics.Events

/-!
# The kernel event ABI

`RawEvent::decode` of the fixed-size records the kernel writes: a header that all
four kinds share, and a payload.  Native integers are little-endian, as on every
platform the daemon is built for.
-/

set_option autoImplicit false

namespace SystemPilot.Collector

open SystemPilot.Library.LittleEndian
open SystemPilot.Forensics

/-- `ABI_VERSION`. -/
def abiVersion : UInt16 := 1

/-- `RAW_EVENT_HEADER_SIZE`. -/
def rawEventHeaderSize : Nat := 40

inductive EventKind where
  | processExit
  | signalGenerated
  | oomVictim
  | telemetryLoss
  deriving DecidableEq, Repr

namespace EventKind

/-- The tag of the enumeration. -/
def raw : EventKind → UInt16
  | processExit => 1
  | signalGenerated => 2
  | oomVictim => 3
  | telemetryLoss => 4

def fromRaw (value : UInt16) : Option EventKind :=
  if value = 1 then some processExit
  else if value = 2 then some signalGenerated
  else if value = 3 then some oomVictim
  else if value = 4 then some telemetryLoss
  else none

/-- `RAW_PROCESS_EXIT_SIZE` and its siblings. -/
def recordSize : EventKind → Nat
  | processExit => 56
  | signalGenerated => 64
  | oomVictim => 48
  | telemetryLoss => 48

theorem fromRaw_eq_some_iff {value : UInt16} {kind : EventKind} :
    fromRaw value = some kind ↔ value = kind.raw := by
  constructor
  · unfold fromRaw
    intro known
    split at known
    · injection known with same
      rw [← same]
      assumption
    · split at known
      · injection known with same
        rw [← same]
        assumption
      · split at known
        · injection known with same
          rw [← same]
          assumption
        · split at known
          · injection known with same
            rw [← same]
            assumption
          · contradiction
  · rintro rfl
    cases kind <;> rfl

end EventKind

/-! ## Layouts -/

structure RawEventHeader where
  abiVersion : UInt16
  kind : UInt16
  size : UInt32
  timestampNs : UInt64
  tgid : UInt32
  pid : UInt32
  startBoottimeNs : UInt64
  cgroupId : UInt64
  deriving DecidableEq, Repr

structure RawProcessExit where
  header : RawEventHeader
  ppid : UInt32
  exitCode : Int32
  flags : UInt32
  reserved : UInt32
  deriving DecidableEq

structure RawSignalGenerated where
  header : RawEventHeader
  signal : Int32
  siCode : Int32
  senderPid : UInt32
  senderUid : UInt32
  flags : UInt32
  reserved : UInt32
  deriving DecidableEq

structure RawOomVictim where
  header : RawEventHeader
  oomKind : UInt32
  reserved : UInt32
  deriving DecidableEq

structure RawTelemetryLoss where
  header : RawEventHeader
  droppedRecords : UInt64
  deriving DecidableEq

inductive RawEvent where
  | processExit (event : RawProcessExit)
  | signalGenerated (event : RawSignalGenerated)
  | oomVictim (event : RawOomVictim)
  | telemetryLoss (event : RawTelemetryLoss)
  deriving DecidableEq

def RawEvent.header : RawEvent → RawEventHeader
  | processExit event => event.header
  | signalGenerated event => event.header
  | oomVictim event => event.header
  | telemetryLoss event => event.header

/-! ## Decoding -/

/-- `u16::from_ne_bytes(bytes[offset..offset + 2])`. -/
def u16 (bytes : List UInt8) (offset : Nat) : UInt16 :=
  UInt16.ofNat (number (field bytes offset 2))

def u32 (bytes : List UInt8) (offset : Nat) : UInt32 :=
  UInt32.ofNat (number (field bytes offset 4))

def u64 (bytes : List UInt8) (offset : Nat) : UInt64 :=
  UInt64.ofNat (number (field bytes offset 8))

def i32 (bytes : List UInt8) (offset : Nat) : Int32 :=
  (u32 bytes offset).toInt32

namespace RawEventHeader

/-- The fields of the first 40 bytes. -/
def read (bytes : List UInt8) : RawEventHeader where
  abiVersion := u16 bytes 0
  kind := u16 bytes 2
  size := u32 bytes 4
  timestampNs := u64 bytes 8
  tgid := u32 bytes 16
  pid := u32 bytes 20
  startBoottimeNs := u64 bytes 24
  cgroupId := u64 bytes 32

def decode (bytes : List UInt8) : Option RawEventHeader :=
  if bytes.length < rawEventHeaderSize then none
  else
    let header := read bytes
    if header.abiVersion = Collector.abiVersion ∧ (EventKind.fromRaw header.kind).isSome ∧
        rawEventHeaderSize ≤ header.size.toNat ∧ header.size.toNat ≤ bytes.length then
      some header
    else none

def identity (header : RawEventHeader) : ProcessIdentity :=
  ⟨header.tgid.toNat, header.startBoottimeNs.toNat⟩

end RawEventHeader

/-- The decoder of one kind, up to the payload that it reads. -/
def decodeRecord {α : Type} (kind : EventKind) (read : RawEventHeader → α)
    (bytes : List UInt8) : Option α := do
  let header ← RawEventHeader.decode bytes
  if header.kind ≠ kind.raw ∨ header.size.toNat ≠ kind.recordSize ∨
      bytes.length < kind.recordSize then none
  else some (read header)

def RawProcessExit.read (bytes : List UInt8) (header : RawEventHeader) : RawProcessExit where
  header := header
  ppid := u32 bytes 40
  exitCode := i32 bytes 44
  flags := u32 bytes 48
  reserved := u32 bytes 52

def RawProcessExit.decode (bytes : List UInt8) : Option RawProcessExit :=
  decodeRecord .processExit (RawProcessExit.read bytes) bytes

def RawProcessExit.isGroupLeader (event : RawProcessExit) : Bool :=
  event.flags &&& 1 != 0

def RawSignalGenerated.read (bytes : List UInt8) (header : RawEventHeader) :
    RawSignalGenerated where
  header := header
  signal := i32 bytes 40
  siCode := i32 bytes 44
  senderPid := u32 bytes 48
  senderUid := u32 bytes 52
  flags := u32 bytes 56
  reserved := u32 bytes 60

def RawSignalGenerated.decode (bytes : List UInt8) : Option RawSignalGenerated :=
  decodeRecord .signalGenerated (RawSignalGenerated.read bytes) bytes

def RawSignalGenerated.senderIsKernel (event : RawSignalGenerated) : Bool :=
  event.flags &&& 1 != 0

def RawOomVictim.read (bytes : List UInt8) (header : RawEventHeader) : RawOomVictim where
  header := header
  oomKind := u32 bytes 40
  reserved := u32 bytes 44

def RawOomVictim.decode (bytes : List UInt8) : Option RawOomVictim :=
  decodeRecord .oomVictim (RawOomVictim.read bytes) bytes

def RawTelemetryLoss.read (bytes : List UInt8) (header : RawEventHeader) : RawTelemetryLoss where
  header := header
  droppedRecords := u64 bytes 40

def RawTelemetryLoss.decode (bytes : List UInt8) : Option RawTelemetryLoss :=
  decodeRecord .telemetryLoss (RawTelemetryLoss.read bytes) bytes

/-- The decoder of a kind. -/
def RawEvent.decodeKind (bytes : List UInt8) : EventKind → Option RawEvent
  | .processExit => (RawProcessExit.decode bytes).map .processExit
  | .signalGenerated => (RawSignalGenerated.decode bytes).map .signalGenerated
  | .oomVictim => (RawOomVictim.decode bytes).map .oomVictim
  | .telemetryLoss => (RawTelemetryLoss.decode bytes).map .telemetryLoss

def RawEvent.decode (bytes : List UInt8) : Option RawEvent := do
  let header ← RawEventHeader.decode bytes
  let kind ← EventKind.fromRaw header.kind
  RawEvent.decodeKind bytes kind

/-! ## The `repr(C)` layouts -/

def RawEventHeader.fields (header : RawEventHeader) : List (List UInt8) :=
  [encode 2 header.abiVersion.toNat, encode 2 header.kind.toNat, encode 4 header.size.toNat,
    encode 8 header.timestampNs.toNat, encode 4 header.tgid.toNat, encode 4 header.pid.toNat,
    encode 8 header.startBoottimeNs.toNat, encode 8 header.cgroupId.toNat]

/-- The fields in the order of the declaration, the header's first. -/
def RawEvent.fields : RawEvent → List (List UInt8)
  | processExit event =>
      event.header.fields ++
        [encode 4 event.ppid.toNat, encode 4 event.exitCode.toUInt32.toNat,
          encode 4 event.flags.toNat, encode 4 event.reserved.toNat]
  | signalGenerated event =>
      event.header.fields ++
        [encode 4 event.signal.toUInt32.toNat, encode 4 event.siCode.toUInt32.toNat,
          encode 4 event.senderPid.toNat, encode 4 event.senderUid.toNat,
          encode 4 event.flags.toNat, encode 4 event.reserved.toNat]
  | oomVictim event =>
      event.header.fields ++ [encode 4 event.oomKind.toNat, encode 4 event.reserved.toNat]
  | telemetryLoss event => event.header.fields ++ [encode 8 event.droppedRecords.toNat]

/-- The record in memory; its largest field has eight bytes. -/
def RawEvent.encode (event : RawEvent) : List UInt8 :=
  reprC 8 event.fields

/-! ## Normalization -/

/-- The events module's `normalize_raw_event`. -/
def normalizeRawEvent : RawEvent → KernelEvent
  | .processExit event =>
      .processExit event.header.timestampNs.toNat event.header.identity event.header.pid.toNat
        event.ppid.toNat event.header.cgroupId.toNat event.exitCode.toInt event.isGroupLeader
  | .signalGenerated event =>
      .signalGenerated event.header.timestampNs.toNat event.header.identity event.signal.toInt
        event.siCode.toInt event.senderPid.toNat event.senderUid.toNat event.senderIsKernel
        event.header.cgroupId.toNat
  | .oomVictim event =>
      .oomVictim event.header.timestampNs.toNat event.header.identity
        event.header.cgroupId.toNat
        (if event.oomKind = 1 then .global else if event.oomKind = 2 then .memcg else .unknown)
  | .telemetryLoss event =>
      .telemetryLoss event.header.timestampNs.toNat event.droppedRecords.toNat

end SystemPilot.Collector
