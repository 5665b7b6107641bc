/-
# The map of unacknowledged packets

Model of `net/quic/core/quic_unacked_packet_map.cc`.  The deque
`unacked_packets_` with `least_unacked_` is a `Window`: `packets.base` is
`least_unacked_`, and a packet number is an index into the deque after
`least_unacked_` has been subtracted.

Four fields record what the source leaves undefined or unchecked, and no
operation reads them: `strayed` (an index outside the deque, or a walk along
retransmissions that does not end), `underflow` (`bytes_in_flight_` made smaller
than zero), `cryptoUnderflow` (the same for `pending_crypto_packet_count_`) and
`popped` (the packets taken off the front).

Packet numbers, byte counts and numbers of packets are natural numbers: the
largest of them would have to pass `2 ^ 64`.  The count of crypto packets is
decremented without a check, so it wraps at zero.  Times are in microseconds.  Left
out are the ack listeners and the stream notifier, through which the map only calls
out.
-/

import QuicNs3.Lib.Window

namespace QuicNs3
namespace Packets

open Lib

/-- `EncryptionLevel`. -/
inductive EncryptionLevel
  | none
  | initial
  | forwardSecure
  deriving Repr, DecidableEq

/-- `TransmissionType`. -/
inductive TransmissionType
  | notRetransmission
  | handshakeRetransmission
  | allUnackedRetransmission
  | allInitialRetransmission
  | lossRetransmission
  | rtoRetransmission
  | tlpRetransmission
  deriving Repr, DecidableEq

/-- `QuicFrame`: a stream frame with its stream, or any other frame. -/
inductive Frame
  | stream (streamId : ℕ)
  | other
  deriving Repr, DecidableEq

/-- `RemoveFramesForStream`. -/
def removeFramesForStream (frames : List Frame) (streamId : ℕ) : List Frame :=
  frames.filter fun f => decide (f ≠ .stream streamId)

/-- `QuicTransmissionInfo`. -/
structure TransmissionInfo where
  retransmittableFrames : List Frame
  encryptionLevel : EncryptionLevel
  packetNumberLength : ℕ
  bytesSent : ℕ
  sentTime : ℤ
  transmissionType : TransmissionType
  inFlight : Bool
  isUnackable : Bool
  hasCryptoHandshake : Bool
  numPaddingBytes : ℤ
  /-- The packet number of the next retransmission, zero if there is none. -/
  retransmission : ℕ
  largestAcked : ℕ
  deriving Repr, DecidableEq

/-- `QuicTransmissionInfo()`, marked as never sent. -/
def TransmissionInfo.gap : TransmissionInfo where
  retransmittableFrames := []
  encryptionLevel := .none
  packetNumberLength := 1
  bytesSent := 0
  sentTime := 0
  transmissionType := .notRetransmission
  inFlight := false
  isUnackable := true
  hasCryptoHandshake := false
  numPaddingBytes := 0
  retransmission := 0
  largestAcked := 0

/-- `SerializedPacket`. -/
structure SerializedPacket where
  packetNumber : ℕ
  packetNumberLength : ℕ
  encryptedLength : ℕ
  retransmittableFrames : List Frame
  hasCryptoHandshake : Bool
  numPaddingBytes : ℤ
  encryptionLevel : EncryptionLevel
  largestAcked : ℕ
  deriving Repr, DecidableEq

/-- `QuicUnackedPacketMap`. -/
structure UnackedPacketMap where
  /-- `unacked_packets_` and `least_unacked_`. -/
  packets : Window TransmissionInfo
  largestSentPacket : ℕ
  largestSentRetransmittablePacket : ℕ
  largestObserved : ℕ
  bytesInFlight : ℕ
  pendingCryptoPacketCount : ℕ
  strayed : Bool
  underflow : Bool
  cryptoUnderflow : Bool
  popped : List TransmissionInfo
  deriving Repr, DecidableEq

namespace UnackedPacketMap

/-- The constructor. -/
def new : UnackedPacketMap where
  packets := ⟨1, []⟩
  largestSentPacket := 0
  largestSentRetransmittablePacket := 0
  largestObserved := 0
  bytesInFlight := 0
  pendingCryptoPacketCount := 0
  strayed := false
  underflow := false
  cryptoUnderflow := false
  popped := []

/-- An index outside the deque has been used. -/
def stray (m : UnackedPacketMap) : UnackedPacketMap := { m with strayed := true }

/-- Change the packet with a number, through `unacked_packets_[n - least_unacked_]`. -/
def modify (m : UnackedPacketMap) (n : ℕ) (f : TransmissionInfo → TransmissionInfo) :
    UnackedPacketMap :=
  { m with packets := m.packets.modify n f }

def isPacketUsefulForMeasuringRtt (m : UnackedPacketMap) (n : ℕ) (i : TransmissionInfo) : Bool :=
  !i.isUnackable && decide (m.largestObserved < n)

def isPacketUsefulForCongestionControl (i : TransmissionInfo) : Bool := i.inFlight

def isPacketUsefulForRetransmittableData (m : UnackedPacketMap) (i : TransmissionInfo) : Bool :=
  !i.retransmittableFrames.isEmpty || decide (m.largestObserved < i.retransmission)

def isPacketUseless (m : UnackedPacketMap) (n : ℕ) (i : TransmissionInfo) : Bool :=
  !m.isPacketUsefulForMeasuringRtt n i && !isPacketUsefulForCongestionControl i &&
    !m.isPacketUsefulForRetransmittableData i

def isUnacked (m : UnackedPacketMap) (n : ℕ) : Bool :=
  (m.packets.get? n).any fun i => !m.isPacketUseless n i

/-- `RemoveObsoletePackets`. -/
def removeObsoletePackets (m : UnackedPacketMap) : UnackedPacketMap :=
  { m with
    packets := Window.dropWhile m.isPacketUseless m.packets.base m.packets.items
    popped := m.popped ++ Window.takeWhile m.isPacketUseless m.packets.base m.packets.items }

/-- What `TransferRetransmissionInfo` leaves of the packet that is sent again:
its frames are gone, and unless version or encryption has changed it is linked to
the new packet. -/
def transferred (newPacketNumber : ℕ) (type : TransmissionType) (old : TransmissionInfo) :
    TransmissionInfo :=
  { old with
    retransmittableFrames := []
    hasCryptoHandshake := false
    isUnackable := old.isUnackable ||
      decide (type = .allInitialRetransmission ∨ type = .allUnackedRetransmission)
    retransmission :=
      if type = .allInitialRetransmission ∨ type = .allUnackedRetransmission then
        old.retransmission
      else newPacketNumber }

/-- `TransferRetransmissionInfo`: the map, and the entry for the new packet. -/
def transferRetransmissionInfo (m : UnackedPacketMap) (oldPacketNumber newPacketNumber : ℕ)
    (type : TransmissionType) (info : TransmissionInfo) : UnackedPacketMap × TransmissionInfo :=
  if oldPacketNumber < m.packets.base then (m, info)
  else if m.largestSentPacket < oldPacketNumber then (m, info)
  else
    match m.packets.get? oldPacketNumber with
    | none => (m.stray, info)
    | some old =>
      ((m.modify oldPacketNumber (transferred newPacketNumber type)).removeObsoletePackets,
        { info with
          retransmittableFrames := old.retransmittableFrames
          hasCryptoHandshake := old.hasCryptoHandshake
          numPaddingBytes := old.numPaddingBytes })

/-- The numbers between the last packet and a new one are filled with packets
that were never sent. -/
def fillGap (m : UnackedPacketMap) (packetNumber : ℕ) : UnackedPacketMap :=
  { m with
    packets :=
      m.packets.append (List.replicate (packetNumber - m.packets.next) TransmissionInfo.gap) }

/-- The entry of a packet that is sent, before anything is transferred to it. -/
def sentInfo (p : SerializedPacket) (type : TransmissionType) (sentTime : ℤ) :
    TransmissionInfo where
  retransmittableFrames := []
  encryptionLevel := p.encryptionLevel
  packetNumberLength := p.packetNumberLength
  bytesSent := p.encryptedLength
  sentTime := sentTime
  transmissionType := type
  inFlight := false
  isUnackable := false
  hasCryptoHandshake := p.hasCryptoHandshake
  numPaddingBytes := p.numPaddingBytes
  retransmission := 0
  largestAcked := p.largestAcked

/-- The end of `AddSentPacket`: the entry goes to the back of the deque. -/
def pushSent (m : UnackedPacketMap) (packetNumber : ℕ) (info : TransmissionInfo)
    (setInFlight : Bool) : UnackedPacketMap :=
  { m with
    packets := m.packets.push { info with inFlight := setInFlight }
    largestSentPacket := packetNumber
    bytesInFlight := m.bytesInFlight + if setInFlight then info.bytesSent else 0
    largestSentRetransmittablePacket :=
      if setInFlight then packetNumber else m.largestSentRetransmittablePacket }

/-- `AddSentPacket`. -/
def addSentPacket (m : UnackedPacketMap) (p : SerializedPacket) (oldPacketNumber : ℕ)
    (type : TransmissionType) (sentTime : ℤ) (setInFlight : Bool) : UnackedPacketMap :=
  let m := m.fillGap p.packetNumber
  let info := sentInfo p type sentTime
  if oldPacketNumber = 0 then
    let m := m.pushSent p.packetNumber
      { info with retransmittableFrames := p.retransmittableFrames } setInFlight
    { m with
      pendingCryptoPacketCount :=
        m.pendingCryptoPacketCount + if p.hasCryptoHandshake then 1 else 0 }
  else
    let r := m.transferRetransmissionInfo oldPacketNumber p.packetNumber type info
    r.1.pushSent p.packetNumber r.2 setInFlight

/-- The end of `RemoveRetransmittability`, on the newest transmission: it is no
crypto packet any more, and its frames are deleted. -/
def clearFrames (m : UnackedPacketMap) (n : ℕ) (i : TransmissionInfo) : UnackedPacketMap :=
  { m.modify n fun i => { i with retransmittableFrames := [], hasCryptoHandshake := false } with
    pendingCryptoPacketCount :=
      if i.hasCryptoHandshake then
        if m.pendingCryptoPacketCount = 0 then 2 ^ 64 - 1 else m.pendingCryptoPacketCount - 1
      else m.pendingCryptoPacketCount
    cryptoUnderflow :=
      m.cryptoUnderflow || (i.hasCryptoHandshake && decide (m.pendingCryptoPacketCount = 0)) }

/-- The loop of `RemoveRetransmittability`, for at most `fuel` packets. -/
def removeRetransmittabilityFrom : ℕ → UnackedPacketMap → ℕ → UnackedPacketMap
  | 0, m, _ => m.stray
  | fuel + 1, m, n =>
    match m.packets.get? n with
    | none => m.stray
    | some i =>
      if i.retransmission ≠ 0 then
        removeRetransmittabilityFrom fuel (m.modify n fun i => { i with retransmission := 0 })
          i.retransmission
      else m.clearFrames n i

/-- `RemoveRetransmittability`: no walk passes more packets than there are. -/
def removeRetransmittability (m : UnackedPacketMap) (n : ℕ) : UnackedPacketMap :=
  removeRetransmittabilityFrom (m.packets.items.length + 1) m n

def hasRetransmittableFrames (m : UnackedPacketMap) (n : ℕ) : Bool :=
  (m.packets.get? n).any fun i => !i.retransmittableFrames.isEmpty

/-- `IncreaseLargestObserved`. -/
def increaseLargestObserved (m : UnackedPacketMap) (largestObserved : ℕ) : UnackedPacketMap :=
  { m with largestObserved := largestObserved }

/-- `RemoveFromInFlight`. -/
def removeFromInFlight (m : UnackedPacketMap) (n : ℕ) : UnackedPacketMap :=
  match m.packets.get? n with
  | none => m.stray
  | some i =>
    if i.inFlight then
      { m.modify n fun i => { i with inFlight := false } with
        bytesInFlight := m.bytesInFlight - i.bytesSent
        underflow := m.underflow || decide (m.bytesInFlight < i.bytesSent) }
    else m

/-- `RestoreToInFlight`. -/
def restoreToInFlight (m : UnackedPacketMap) (n : ℕ) : UnackedPacketMap :=
  match m.packets.get? n with
  | none => m.stray
  | some i =>
    { m.modify n fun i => { i with inFlight := true } with
      bytesInFlight := m.bytesInFlight + i.bytesSent }

/-- The body of the loop of `CancelRetransmissionsForStream`. -/
def cancelRetransmissionsAt (streamId : ℕ) (m : UnackedPacketMap) (n : ℕ) : UnackedPacketMap :=
  match m.packets.get? n with
  | none => m.stray
  | some i =>
    if i.retransmittableFrames.isEmpty then m
    else
      let m := m.modify n fun i =>
        { i with retransmittableFrames := removeFramesForStream i.retransmittableFrames streamId }
      if (removeFramesForStream i.retransmittableFrames streamId).isEmpty then
        m.removeRetransmittability n
      else m

/-- `CancelRetransmissionsForStream`. -/
def cancelRetransmissionsForStream (m : UnackedPacketMap) (streamId : ℕ) : UnackedPacketMap :=
  m.packets.numbers.foldl (cancelRetransmissionsAt streamId) m

def hasPendingCryptoPackets (m : UnackedPacketMap) : Bool :=
  decide (0 < m.pendingCryptoPacketCount)

def hasUnackedRetransmittableFrames (m : UnackedPacketMap) : Bool :=
  m.packets.items.any fun i => i.inFlight && !i.retransmittableFrames.isEmpty

end UnackedPacketMap
end Packets
end QuicNs3
