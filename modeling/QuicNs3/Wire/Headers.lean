/-
# The ns-3 headers

Model of the header classes of `model/quic-header.cc`, `model/quic-frame.cc` and
`model/quic-stream-frame.cc`: five classes, each with the functions ns-3 asks of a header.

| class | `Serialize` writes | `GetSerializedSize` |
| --- | ---: | ---: |
| `QuicHeader` | 14 | 42 |
| `LongQuicHeader` | 20 | 20 |
| `ShortQuicHeader` | 20 | 20 |
| `QuicFrame` | 1 | 42 |
| `QuicStreamFrame` | 17 | 17 |

`Serialize` is the list of the bytes written, and `Deserialize` reads from a buffer; it
assigns every field, so it is a function of the buffer alone.  Flags are written as 16-bit
numbers, and a number that is not zero is read as true; the 16-bit types are cut to 8 bits
when they are read.

The iterators of ns-3 are not part of this repository: they are a parameter, and what is
assumed of them is what `BufferIterator` asks.  Their functions write as many bytes as
their names say, read back what was written, and read any buffer that is long enough.

The fields always survive (`deserialize_serialize`).  The sizes are right in three of the
classes, and nothing checks the packet type that is read (`header_ok_iff`).
-/

import QuicNs3.Lib.Codec

namespace QuicNs3
namespace Wire

open Lib

/-! ## The iterators of ns-3 -/

/-- `Buffer::Iterator`: its pairs of functions that write and read a number. -/
structure BufferIterator where
  /-- `WriteU8`, `ReadU8`. -/
  u8 : Codec UInt8
  /-- `WriteU16`, `ReadU16`. -/
  u16 : Codec UInt16
  /-- `WriteHtonU16`, `ReadNtohU16`. -/
  htonU16 : Codec UInt16
  /-- `WriteHtonU32`, `ReadNtohU32`. -/
  htonU32 : Codec UInt32
  /-- `WriteHtonU64`, `ReadNtohU64`. -/
  htonU64 : Codec UInt64
  size_u8 : u8.size = 1
  size_u16 : u16.size = 2
  size_htonU16 : htonU16.size = 2
  size_htonU32 : htonU32.size = 4
  size_htonU64 : htonU64.size = 8

/-- A `bool` as a number, and a number as a `bool`. -/
def flag (c : Codec UInt16) : Codec Bool :=
  c.via (fun b => if b then 1 else 0) (fun n => n != 0) fun b => by cases b <;> rfl

/-- A `uint8_t` as a 16-bit number, and back. -/
def narrow (c : Codec UInt16) : Codec UInt8 :=
  c.via UInt8.toUInt16 UInt16.toUInt8 fun _ => UInt8.toUInt8_toUInt16 _

@[simp] theorem size_flag (c : Codec UInt16) : (flag c).size = c.size := rfl

@[simp] theorem size_narrow (c : Codec UInt16) : (narrow c).size = c.size := rfl

variable (it : BufferIterator)

/-! ## The classes -/

structure QuicHeader where
  connectionId : UInt64
  packetNumber : UInt32
  headerForm : Bool
  deriving Repr, DecidableEq

structure LongQuicHeader extends QuicHeader where
  version : UInt32
  longPacketType : UInt8
  deriving Repr, DecidableEq

structure ShortQuicHeader extends QuicHeader where
  connectionIdFlag : Bool
  keyPhaseBit : Bool
  shortPacketType : UInt8
  deriving Repr, DecidableEq

structure QuicFrame where
  frameType : UInt8
  deriving Repr, DecidableEq

structure QuicStreamFrame extends QuicFrame where
  streamId : UInt32
  offset : UInt64
  dataLength : UInt16
  streamData : UInt16
  deriving Repr, DecidableEq

namespace QuicHeader

def serialize (h : QuicHeader) : List UInt8 :=
  it.htonU64.write h.connectionId ++ (it.htonU32.write h.packetNumber ++
    (flag it.u16).write h.headerForm)

def deserialize (i : List UInt8) : Option (QuicHeader × List UInt8) := do
  let (connectionId, i) ← it.htonU64.read i
  let (packetNumber, i) ← it.htonU32.read i
  let (headerForm, i) ← (flag it.u16).read i
  some (⟨connectionId, packetNumber, headerForm⟩, i)

end QuicHeader

namespace LongQuicHeader

/-- `SetLongPacketType`. -/
def setLongPacketType (h : LongQuicHeader) (longPacketType : UInt8) : LongQuicHeader :=
  { h with longPacketType :=
      if longPacketType < 1 ∨ longPacketType > 9 then 0 else longPacketType }

def serialize (h : LongQuicHeader) : List UInt8 :=
  it.htonU64.write h.connectionId ++ (it.htonU32.write h.packetNumber ++
    ((flag it.u16).write h.headerForm ++ (it.htonU32.write h.version ++
      (narrow it.htonU16).write h.longPacketType)))

def deserialize (i : List UInt8) : Option (LongQuicHeader × List UInt8) := do
  let (connectionId, i) ← it.htonU64.read i
  let (packetNumber, i) ← it.htonU32.read i
  let (headerForm, i) ← (flag it.u16).read i
  let (version, i) ← it.htonU32.read i
  let (longPacketType, i) ← (narrow it.htonU16).read i
  some (⟨⟨connectionId, packetNumber, headerForm⟩, version, longPacketType⟩, i)

end LongQuicHeader

namespace ShortQuicHeader

def serialize (h : ShortQuicHeader) : List UInt8 :=
  it.htonU64.write h.connectionId ++ (it.htonU32.write h.packetNumber ++
    ((flag it.u16).write h.headerForm ++ ((flag it.htonU16).write h.connectionIdFlag ++
      ((flag it.htonU16).write h.keyPhaseBit ++ (narrow it.htonU16).write h.shortPacketType))))

def deserialize (i : List UInt8) : Option (ShortQuicHeader × List UInt8) := do
  let (connectionId, i) ← it.htonU64.read i
  let (packetNumber, i) ← it.htonU32.read i
  let (headerForm, i) ← (flag it.u16).read i
  let (connectionIdFlag, i) ← (flag it.htonU16).read i
  let (keyPhaseBit, i) ← (flag it.htonU16).read i
  let (shortPacketType, i) ← (narrow it.htonU16).read i
  some (⟨⟨connectionId, packetNumber, headerForm⟩, connectionIdFlag, keyPhaseBit,
    shortPacketType⟩, i)

end ShortQuicHeader

namespace QuicFrame

def serialize (h : QuicFrame) : List UInt8 := it.u8.write h.frameType

def deserialize (i : List UInt8) : Option (QuicFrame × List UInt8) := do
  let (frameType, i) ← it.u8.read i
  some (⟨frameType⟩, i)

end QuicFrame

namespace QuicStreamFrame

def serialize (h : QuicStreamFrame) : List UInt8 :=
  it.u8.write h.frameType ++ (it.htonU32.write h.streamId ++ (it.htonU64.write h.offset ++
    (it.htonU16.write h.dataLength ++ it.htonU16.write h.streamData)))

def deserialize (i : List UInt8) : Option (QuicStreamFrame × List UInt8) := do
  let (frameType, i) ← it.u8.read i
  let (streamId, i) ← it.htonU32.read i
  let (offset, i) ← it.htonU64.read i
  let (dataLength, i) ← it.htonU16.read i
  let (streamData, i) ← it.htonU16.read i
  some (⟨⟨frameType⟩, streamId, offset, dataLength, streamData⟩, i)

end QuicStreamFrame

/-! ## Headers of any class -/

/-- The classes. -/
inductive HeaderClass
  | quicHeader
  | longQuicHeader
  | shortQuicHeader
  | quicFrame
  | quicStreamFrame
  deriving Repr, DecidableEq

/-- A header of one of the classes. -/
inductive Header
  | quicHeader (h : QuicHeader)
  | longQuicHeader (h : LongQuicHeader)
  | shortQuicHeader (h : ShortQuicHeader)
  | quicFrame (h : QuicFrame)
  | quicStreamFrame (h : QuicStreamFrame)
  deriving Repr, DecidableEq

namespace HeaderClass

/-- `GetSerializedSize`. -/
def getSerializedSize : HeaderClass → ℕ
  | .quicHeader => 42
  | .longQuicHeader => 8 + 4 + 2 + 4 + 2
  | .shortQuicHeader => 8 + 4 + 2 + 2 + 2 + 2
  | .quicFrame => 42
  | .quicStreamFrame => 1 + 4 + 8 + 2 + 2

/-- `Deserialize`: the fields, the rest of the buffer, and the number that is returned. -/
def deserialize (k : HeaderClass) (start : List UInt8) : Option (Header × List UInt8 × ℕ) :=
  match k with
  | .quicHeader =>
    (QuicHeader.deserialize it start).map fun r => (.quicHeader r.1, r.2, k.getSerializedSize)
  | .longQuicHeader =>
    (LongQuicHeader.deserialize it start).map fun r =>
      (.longQuicHeader r.1, r.2, k.getSerializedSize)
  | .shortQuicHeader =>
    (ShortQuicHeader.deserialize it start).map fun r =>
      (.shortQuicHeader r.1, r.2, k.getSerializedSize)
  | .quicFrame =>
    (QuicFrame.deserialize it start).map fun r => (.quicFrame r.1, r.2, k.getSerializedSize)
  | .quicStreamFrame =>
    (QuicStreamFrame.deserialize it start).map fun r =>
      (.quicStreamFrame r.1, r.2, k.getSerializedSize)

end HeaderClass

namespace Header

def headerClass : Header → HeaderClass
  | .quicHeader _ => .quicHeader
  | .longQuicHeader _ => .longQuicHeader
  | .shortQuicHeader _ => .shortQuicHeader
  | .quicFrame _ => .quicFrame
  | .quicStreamFrame _ => .quicStreamFrame

/-- `Serialize`. -/
def serialize : Header → List UInt8
  | .quicHeader h => h.serialize it
  | .longQuicHeader h => h.serialize it
  | .shortQuicHeader h => h.serialize it
  | .quicFrame h => h.serialize it
  | .quicStreamFrame h => h.serialize it

end Header

/-! ## Round trips -/

attribute [simp] BufferIterator.size_u8 BufferIterator.size_u16 BufferIterator.size_htonU16
  BufferIterator.size_htonU32 BufferIterator.size_htonU64

/-- The number of bytes `Serialize` writes. -/
def HeaderClass.written : HeaderClass → ℕ
  | .quicHeader => 14
  | .longQuicHeader => 20
  | .shortQuicHeader => 20
  | .quicFrame => 1
  | .quicStreamFrame => 17

theorem Header.length_serialize (h : Header) :
    (h.serialize it).length = h.headerClass.written := by
  cases h with
  | quicHeader h => simp [Header.serialize, QuicHeader.serialize, HeaderClass.written, headerClass]
  | longQuicHeader h =>
    simp [Header.serialize, LongQuicHeader.serialize, HeaderClass.written, headerClass]
  | shortQuicHeader h =>
    simp [Header.serialize, ShortQuicHeader.serialize, HeaderClass.written, headerClass]
  | quicFrame h => simp [Header.serialize, QuicFrame.serialize, HeaderClass.written, headerClass]
  | quicStreamFrame h =>
    simp [Header.serialize, QuicStreamFrame.serialize, HeaderClass.written, headerClass]

/-- **Every field survives**, and exactly what was written is read. -/
theorem Header.deserialize_serialize (h : Header) (rest : List UInt8) :
    h.headerClass.deserialize it (h.serialize it ++ rest) =
      some (h, rest, h.headerClass.getSerializedSize) := by
  cases h with
  | quicHeader h =>
    simp [headerClass, HeaderClass.deserialize, Header.serialize, QuicHeader.serialize,
      QuicHeader.deserialize]
  | longQuicHeader h =>
    simp [headerClass, HeaderClass.deserialize, Header.serialize, LongQuicHeader.serialize,
      LongQuicHeader.deserialize]
  | shortQuicHeader h =>
    simp [headerClass, HeaderClass.deserialize, Header.serialize, ShortQuicHeader.serialize,
      ShortQuicHeader.deserialize]
  | quicFrame h =>
    simp [headerClass, HeaderClass.deserialize, Header.serialize, QuicFrame.serialize,
      QuicFrame.deserialize]
  | quicStreamFrame h =>
    simp [headerClass, HeaderClass.deserialize, Header.serialize, QuicStreamFrame.serialize,
      QuicStreamFrame.deserialize]

/-! ## The packet type of a long header -/

/-- The packet types `SetLongPacketType` leaves. -/
def Enforced (longPacketType : UInt8) : Prop :=
  ∃ (h : LongQuicHeader) (v : UInt8), (h.setLongPacketType v).longPacketType = longPacketType

theorem enforced_iff {v : UInt8} : Enforced v ↔ v ≤ 9 := by
  constructor
  · rintro ⟨h, w, rfl⟩
    show (if w < 1 ∨ w > 9 then 0 else w) ≤ 9
    split_ifs with hw
    · decide
    · exact UInt8.not_lt.1 fun hlt => hw (.inr hlt)
  · intro hv
    refine ⟨⟨⟨0, 0, false⟩, 0, 0⟩, v, ?_⟩
    show (if v < 1 ∨ v > 9 then 0 else v) = v
    split_ifs with hw
    · rcases hw with hw | hw
      · exact UInt8.toNat_inj.1 (Nat.lt_one_iff.1 (UInt8.lt_iff_toNat_lt.1 hw)).symm
      · exact absurd hv (UInt8.not_le.2 hw)
    · rfl

/-- **What `Deserialize` leaves** of a buffer that is long enough: the packet type is the
16-bit number at its place, cut to 8 bits. -/
theorem LongQuicHeader.deserialize_eq {buffer : List UInt8} (h : 20 ≤ buffer.length) :
    ∃ (l : LongQuicHeader) (n : UInt16),
      LongQuicHeader.deserialize it buffer = some (l, buffer.drop 20) ∧
        it.htonU16.read (buffer.drop 18) = some (n, buffer.drop 20) ∧
        l.longPacketType = n.toUInt8 := by
  obtain ⟨connectionId, h₁⟩ := it.htonU64.read_drop buffer 0 8 it.size_htonU64 (by omega)
  obtain ⟨packetNumber, h₂⟩ := it.htonU32.read_drop buffer 8 4 it.size_htonU32 (by omega)
  obtain ⟨headerForm, h₃⟩ := (flag it.u16).read_drop buffer 12 2 it.size_u16 (by omega)
  obtain ⟨version, h₄⟩ := it.htonU32.read_drop buffer 14 4 it.size_htonU32 (by omega)
  obtain ⟨n, h₅⟩ := it.htonU16.read_drop buffer 18 2 it.size_htonU16 (by omega)
  have h₆ : (narrow it.htonU16).read (buffer.drop 18) = some (n.toUInt8, buffer.drop 20) := by
    simp [narrow, Codec.via, h₅]
  rw [List.drop_zero] at h₁
  refine ⟨⟨⟨connectionId, packetNumber, headerForm⟩, version, n.toUInt8⟩, n, ?_, h₅, rfl⟩
  simp [LongQuicHeader.deserialize, h₁, h₂, h₃, h₄, h₆]

/-! ## Which headers are right -/

/-- **A header serializes faithfully:** `Serialize` writes as many bytes as
`GetSerializedSize` says, and `Deserialize` reads and returns as many and restores every
field. -/
structure Faithful (h : Header) : Prop where
  written : (h.serialize it).length = h.headerClass.getSerializedSize
  read : ∀ rest, ∃ left returned,
    h.headerClass.deserialize it (h.serialize it ++ rest) = some (h, left, returned) ∧
      returned = h.headerClass.getSerializedSize ∧
      (h.serialize it ++ rest).length - left.length = h.headerClass.getSerializedSize

/-- `Deserialize` leaves a long header whose packet type `SetLongPacketType` could have
set. -/
def LeavesEnforced (buffer : List UInt8) : Prop :=
  20 ≤ buffer.length → ∃ h left, LongQuicHeader.deserialize it buffer = some (h, left) ∧
    Enforced h.longPacketType

/-- The classes whose size was not left at an arbitrary number. -/
def HeaderClass.Sized (k : HeaderClass) : Prop := k ≠ .quicHeader ∧ k ≠ .quicFrame

/-- The 16-bit number at the place of the packet type is at most 9 when it is cut to 8 bits. -/
def TypeInRange (buffer : List UInt8) : Prop :=
  20 ≤ buffer.length → ∀ n left, it.htonU16.read (buffer.drop 18) = some (n, left) →
    n.toUInt8 ≤ 9

theorem faithful_iff {h : Header} : Faithful it h ↔ h.headerClass.Sized := by
  have hsizes : h.headerClass.written = h.headerClass.getSerializedSize ↔ h.headerClass.Sized := by
    unfold HeaderClass.Sized
    cases h.headerClass <;> decide
  rw [← hsizes, ← h.length_serialize it]
  refine ⟨Faithful.written, fun hwritten => ⟨hwritten, fun rest => ?_⟩⟩
  refine ⟨rest, _, h.deserialize_serialize it rest, rfl, ?_⟩
  rw [List.length_append, Nat.add_sub_cancel, hwritten]

theorem leavesEnforced_iff {buffer : List UInt8} :
    LeavesEnforced it buffer ↔ TypeInRange it buffer := by
  refine forall_congr' fun hlen => ?_
  obtain ⟨l, n, hl, hn, htype⟩ := LongQuicHeader.deserialize_eq it hlen
  constructor
  · rintro ⟨l', left, hl', henforced⟩ n' left' hn'
    obtain ⟨rfl, -⟩ := Prod.mk.inj (Option.some.inj (hl.symm.trans hl'))
    obtain ⟨rfl, -⟩ := Prod.mk.inj (Option.some.inj (hn.symm.trans hn'))
    exact htype ▸ enforced_iff.1 henforced
  · intro hrange
    exact ⟨l, _, hl, enforced_iff.2 (htype ▸ hrange n _ hn)⟩

/-- **Which headers and buffers are right**, whatever iterators write and read them.  A
header serializes faithfully, and a buffer leaves a long header with a packet type in range,
exactly if the class of the header has its size and the number at the place of the packet
type is in range when it is cut to 8 bits. -/
theorem header_ok_iff (h : Header) (buffer : List UInt8) :
    (Faithful it h ∧ LeavesEnforced it buffer) ↔ h.headerClass.Sized ∧ TypeInRange it buffer :=
  and_congr (faithful_iff it) (leavesEnforced_iff it)

/-- Iterators with the most significant byte first where the name says so. -/
def networkOrder : BufferIterator where
  u8 := Codec.byte
  u16 := (Codec.littleEndian 2).via (fun v => ⟨v.toNat, v.toNat_lt⟩) (fun n => UInt16.ofNat n)
    fun _ => UInt16.ofNat_toNat
  htonU16 := (Codec.bigEndian 2).via (fun v => ⟨v.toNat, v.toNat_lt⟩) (fun n => UInt16.ofNat n)
    fun _ => UInt16.ofNat_toNat
  htonU32 := (Codec.bigEndian 4).via (fun v => ⟨v.toNat, v.toNat_lt⟩) (fun n => UInt32.ofNat n)
    fun _ => UInt32.ofNat_toNat
  htonU64 := (Codec.bigEndian 8).via (fun v => ⟨v.toNat, v.toNat_lt⟩) (fun n => UInt64.ofNat n)
    fun _ => UInt64.ofNat_toNat
  size_u8 := rfl
  size_u16 := rfl
  size_htonU16 := rfl
  size_htonU32 := rfl
  size_htonU64 := rfl

/-- **What is wrong:** a plain header writes 14 bytes and a plain frame one byte instead of
the 42 they announce, and a buffer leaves the packet type 200. -/
theorem not_header_ok :
    ((Header.quicHeader ⟨1, 2, true⟩).serialize networkOrder).length = 14 ∧
      ((Header.quicFrame ⟨1⟩).serialize networkOrder).length = 1 ∧
      HeaderClass.quicHeader.getSerializedSize = 42 ∧
      HeaderClass.quicFrame.getSerializedSize = 42 ∧
      (LongQuicHeader.deserialize networkOrder (List.replicate 19 0 ++ [200])).map
        (fun r => r.1.longPacketType) = some 200 ∧ ¬Enforced 200 :=
  ⟨by decide, by decide, rfl, rfl, by decide, fun h => absurd (enforced_iff.1 h) (by decide)⟩

end Wire
end QuicNs3
