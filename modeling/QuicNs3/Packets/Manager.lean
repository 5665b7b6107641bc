/-
# The sent packet manager

Model of `net/quic/core/quic_sent_packet_manager.cc`: sending, acknowledgements,
the retransmission alarm, and the operations that give up or repeat packets.

A loop over the deque changes packets but adds and removes none, so it is a fold
over the packet numbers the deque has when the loop starts (`Window.numbers`).
`pending_retransmissions_` is a linked hash map: a list of pairs in the order of
insertion.

Inputs are what the send algorithm answers to `OnPacketSent`, the clock, and the
statistics of the round trip time (`RttStats`).  The calls to the send algorithm
that return nothing, the debug delegate and the bandwidth recorder are left out,
except that `reported` keeps the vectors that `OnCongestionEvent` is called with, and
`spurious` the packets that `RecordOneSpuriousRetransmission` is called with.
-/

import QuicNs3.Packets.Loss

namespace QuicNs3
namespace Packets

open Lib

/-- `QuicAckFrame`. -/
structure AckFrame where
  largestObserved : ℕ
  ackDelayTime : ℤ
  packets : List ℕ
  deriving Repr, DecidableEq

/-- What `SetFromConfig`, the flags and the connection set. -/
structure Options where
  useNewRto : Bool
  undoPendingRetransmits : Bool
  maxTailLossProbes : ℕ
  /-- `network_change_visitor_` is not null. -/
  networkChangeVisitor : Bool
  /-- `quic_handle_acks`. -/
  handleAcks : Bool
  /-- `quic_fix_adaptive_time_loss`. -/
  fixAdaptiveTimeLoss : Bool
  deriving Repr, DecidableEq

/-- The counters of `QuicConnectionStats` that the manager keeps. -/
structure Stats where
  packetsLost : ℕ
  packetsSpuriouslyRetransmitted : ℕ
  bytesSpuriouslyRetransmitted : ℕ
  cryptoRetransmitCount : ℕ
  lossTimeoutCount : ℕ
  tlpCount : ℕ
  rtoCount : ℕ
  deriving Repr, DecidableEq

/-- `QuicSentPacketManager`. -/
structure SentPacketManager (ρ : Type) where
  unackedPackets : UnackedPacketMap
  pendingRetransmissions : List (ℕ × TransmissionType)
  rttStats : ρ
  lossAlgorithm : GeneralLossAlgorithm
  options : Options
  stats : Stats
  handshakeConfirmed : Bool
  leastPacketAwaitedByPeer : ℕ
  firstRtoTransmission : ℕ
  consecutiveRtoCount : ℕ
  consecutiveTlpCount : ℕ
  consecutiveCryptoRetransmissionCount : ℕ
  pendingTimerTransmissionCount : ℕ
  largestNewlyAcked : ℕ
  largestMtuAcked : ℕ
  largestPacketPeerKnowsIsAcked : ℕ
  packetsAcked : List (ℕ × ℕ)
  packetsLost : List (ℕ × ℕ)
  /-- The acked and lost vectors of the calls of `OnCongestionEvent`. -/
  reported : List (List (ℕ × ℕ) × List (ℕ × ℕ))
  /-- The packets counted as spurious retransmissions. -/
  spurious : List ℕ
  deriving Repr, DecidableEq

/-- `kMaxRetransmissionsOnTimeout`. -/
def kMaxRetransmissionsOnTimeout : ℕ := 2

/-- `RetransmissionTimeoutMode`. -/
inductive RetransmissionTimeoutMode
  | rto
  | tlp
  | handshake
  | loss
  deriving Repr, DecidableEq

namespace SentPacketManager

variable {ρ : Type} (R : RttStats ρ)

/-- The constructor. -/
def new (r : ρ) (lossType : LossDetectionType) (options : Options) : SentPacketManager ρ where
  unackedPackets := .new
  pendingRetransmissions := []
  rttStats := r
  lossAlgorithm := .new lossType
  options := options
  stats := ⟨0, 0, 0, 0, 0, 0, 0⟩
  handshakeConfirmed := false
  leastPacketAwaitedByPeer := 1
  firstRtoTransmission := 0
  consecutiveRtoCount := 0
  consecutiveTlpCount := 0
  consecutiveCryptoRetransmissionCount := 0
  pendingTimerTransmissionCount := 0
  largestNewlyAcked := 0
  largestMtuAcked := 0
  largestPacketPeerKnowsIsAcked := 0
  packetsAcked := []
  packetsLost := []
  reported := []
  spurious := []

/-- Apply an operation of the map. -/
def withMap (s : SentPacketManager ρ) (f : UnackedPacketMap → UnackedPacketMap) :
    SentPacketManager ρ :=
  { s with unackedPackets := f s.unackedPackets }

/-- `pending_retransmissions_.erase`. -/
def erasePending (s : SentPacketManager ρ) (n : ℕ) : SentPacketManager ρ :=
  { s with pendingRetransmissions := s.pendingRetransmissions.filter fun p => decide (p.1 ≠ n) }

/-- A loop over the deque. -/
def forPackets (f : SentPacketManager ρ → ℕ → TransmissionInfo → SentPacketManager ρ)
    (s : SentPacketManager ρ) : SentPacketManager ρ :=
  s.unackedPackets.packets.numbers.foldl
    (fun s n =>
      match s.unackedPackets.packets.get? n with
      | none => s.withMap .stray
      | some i => f s n i) s

/-! ## Sending and marking -/

/-- `OnPacketSent`; `inFlight` is the answer of the send algorithm. -/
def onPacketSent (s : SentPacketManager ρ) (p : SerializedPacket) (originalPacketNumber : ℕ)
    (sentTime : ℤ) (type : TransmissionType) (inFlight : Bool) : SentPacketManager ρ :=
  let s := if originalPacketNumber ≠ 0 then s.erasePending originalPacketNumber else s
  { s with
    pendingTimerTransmissionCount := s.pendingTimerTransmissionCount - 1
    unackedPackets :=
      s.unackedPackets.addSentPacket p originalPacketNumber type sentTime inFlight }

/-- `MarkForRetransmission`. -/
def markForRetransmission (s : SentPacketManager ρ) (n : ℕ) (type : TransmissionType) :
    SentPacketManager ρ :=
  { s with
    unackedPackets :=
      if type ≠ .tlpRetransmission ∧ type ≠ .rtoRetransmission then
        s.unackedPackets.removeFromInFlight n
      else s.unackedPackets
    pendingRetransmissions :=
      if s.pendingRetransmissions.any fun p => decide (p.1 = n) then s.pendingRetransmissions
      else s.pendingRetransmissions ++ [(n, type)] }

/-- `RetransmitUnackedPackets`, with `ALL_INITIAL_RETRANSMISSION` if `initialOnly`
and `ALL_UNACKED_RETRANSMISSION` if not. -/
def retransmitUnackedPackets (s : SentPacketManager ρ) (initialOnly : Bool) :
    SentPacketManager ρ :=
  s.forPackets fun s n i =>
    if i.retransmittableFrames ≠ [] ∧ (initialOnly = false ∨ i.encryptionLevel = .initial) then
      s.markForRetransmission n
        (if initialOnly then .allInitialRetransmission else .allUnackedRetransmission)
    else s

/-- `NeuterUnencryptedPackets`. -/
def neuterUnencryptedPackets (s : SentPacketManager ρ) : SentPacketManager ρ :=
  s.forPackets fun s n i =>
    if i.retransmittableFrames ≠ [] ∧ i.encryptionLevel = .none then
      (s.erasePending n).withMap fun m => (m.removeFromInFlight n).removeRetransmittability n
    else s

/-- `CancelRetransmissionsForStream`. -/
def cancelRetransmissionsForStream (s : SentPacketManager ρ) (streamId : ℕ) :
    SentPacketManager ρ :=
  let m := s.unackedPackets.cancelRetransmissionsForStream streamId
  { s with
    unackedPackets :=
      if s.pendingRetransmissions.all fun p => (m.packets.get? p.1).isSome then m else m.stray
    pendingRetransmissions :=
      s.pendingRetransmissions.filter fun p => m.hasRetransmittableFrames p.1 }

/-! ## Acknowledgements -/

/-- The packets a packet was retransmitted as, in order; for at most `fuel` of
them. -/
def retransmissions (m : UnackedPacketMap) : ℕ → ℕ → List ℕ
  | 0, _ => []
  | fuel + 1, n =>
    match m.packets.get? n with
    | none => []
    | some i =>
      if i.retransmission ≠ 0 then i.retransmission :: retransmissions m fuel i.retransmission
      else []

/-- The walk of `GetNewestRetransmission`: `none` if it leaves the deque, or is
not over after `fuel` packets. -/
def newestFrom (m : UnackedPacketMap) : ℕ → ℕ → Option ℕ
  | 0, _ => none
  | fuel + 1, n =>
    match m.packets.get? n with
    | none => none
    | some i => if i.retransmission ≠ 0 then newestFrom m fuel i.retransmission else some n

/-- `GetNewestRetransmission`. -/
def getNewestRetransmission (s : SentPacketManager ρ) (n : ℕ) : Option ℕ :=
  newestFrom s.unackedPackets (s.unackedPackets.packets.items.length + 1) n

/-- `RecordSpuriousRetransmissions`, for the packet `i` numbered `n`. -/
def recordSpuriousRetransmissions (s : SentPacketManager ρ) (n : ℕ) (i : TransmissionInfo)
    (now : ℤ) : SentPacketManager ρ :=
  let m := s.unackedPackets
  let infos := (retransmissions m (m.packets.items.length + 1) n).filterMap m.packets.get?
  { s with
    stats :=
      { s.stats with
        packetsSpuriouslyRetransmitted := s.stats.packetsSpuriouslyRetransmitted + infos.length
        bytesSpuriouslyRetransmitted :=
          s.stats.bytesSpuriouslyRetransmitted + (infos.map TransmissionInfo.bytesSent).sum }
    spurious := s.spurious ++ retransmissions m (m.packets.items.length + 1) n
    lossAlgorithm :=
      match m.packets.get? i.retransmission with
      | none => s.lossAlgorithm
      | some j =>
        if j.transmissionType = .lossRetransmission then
          s.lossAlgorithm.spuriousRetransmitDetected R s.options.fixAdaptiveTimeLoss m now
            s.rttStats i.retransmission j.sentTime
        else s.lossAlgorithm }

/-- What `MarkPacketHandled` does when a newer transmission than the acked packet
exists: that one is taken out of flight if it is a crypto packet. -/
def handleNewest (s : SentPacketManager ρ) (newest n : ℕ) (i : TransmissionInfo) (now : ℤ) :
    SentPacketManager ρ :=
  if newest = n then s
  else
    let s := s.recordSpuriousRetransmissions R n i now
    if (s.unackedPackets.packets.get? newest).any TransmissionInfo.hasCryptoHandshake then
      s.withMap fun m => m.removeFromInFlight newest
    else s

/-- `MarkPacketHandled`, for the packet `i` numbered `n`. -/
def markPacketHandled (s : SentPacketManager ρ) (n : ℕ) (i : TransmissionInfo) (now : ℤ) :
    SentPacketManager ρ :=
  match s.getNewestRetransmission n with
  | none => s.withMap .stray
  | some newest =>
    let s := (s.erasePending newest).handleNewest R newest n i now
    let s := { s with
      largestMtuAcked :=
        if s.options.networkChangeVisitor then max s.largestMtuAcked i.bytesSent
        else s.largestMtuAcked }
    s.withMap fun m =>
      ((m.removeFromInFlight n).removeRetransmittability n).modify n fun i =>
        { i with isUnackable := true }

/-- What `HandleAckForSentPackets` notes about an acknowledged packet. -/
def recordAcked (s : SentPacketManager ρ) (n : ℕ) (i : TransmissionInfo) : SentPacketManager ρ :=
  { s with
    largestPacketPeerKnowsIsAcked := max s.largestPacketPeerKnowsIsAcked i.largestAcked
    packetsAcked :=
      if i.inFlight then s.packetsAcked ++ [(n, i.bytesSent)] else s.packetsAcked
    largestNewlyAcked :=
      if !i.inFlight && (s.options.handleAcks || !i.isUnackable) then n
      else s.largestNewlyAcked }

/-- The body of the loop of `HandleAckForSentPackets`. -/
def handleAckAt (ack : AckFrame) (now : ℤ) (s : SentPacketManager ρ) (n : ℕ)
    (i : TransmissionInfo) : SentPacketManager ρ :=
  if ack.largestObserved < n then s
  else if s.options.handleAcks && i.isUnackable then s
  else if n ∈ ack.packets then (s.recordAcked n i).markPacketHandled R n i now
  else s

/-- `HandleAckForSentPackets`. -/
def handleAckForSentPackets (s : SentPacketManager ρ) (ack : AckFrame) (now : ℤ) :
    SentPacketManager ρ :=
  s.forPackets (handleAckAt R ack now)

/-- `UpdatePacketInformationReceivedByPeer`. -/
def updatePacketInformationReceivedByPeer (s : SentPacketManager ρ) (ack : AckFrame) :
    SentPacketManager ρ :=
  { s with
    leastPacketAwaitedByPeer := (ack.packets.min?).getD (ack.largestObserved + 1) }

/-- `MaybeUpdateRTT` gives a new estimate. -/
def rttUpdated (s : SentPacketManager ρ) (ack : AckFrame) : Bool :=
  s.unackedPackets.isUnacked ack.largestObserved &&
    (s.unackedPackets.packets.get? ack.largestObserved).any fun i => decide (i.sentTime ≠ 0)

/-- `MaybeUpdateRTT`. -/
def maybeUpdateRtt (s : SentPacketManager ρ) (ack : AckFrame) (ackReceiveTime : ℤ) :
    SentPacketManager ρ :=
  match s.unackedPackets.packets.get? ack.largestObserved with
  | none => s
  | some i =>
    if s.rttUpdated ack then
      { s with
        rttStats :=
          R.updateRtt s.rttStats (ackReceiveTime - i.sentTime) ack.ackDelayTime ackReceiveTime }
    else s

/-- The body of the loop of `InvokeLossDetection`. -/
def markLost (s : SentPacketManager ρ) (p : ℕ × ℕ) : SentPacketManager ρ :=
  let s := { s with stats := { s.stats with packetsLost := s.stats.packetsLost + 1 } }
  if s.unackedPackets.hasRetransmittableFrames p.1 then
    s.markForRetransmission p.1 .lossRetransmission
  else s.withMap fun m => m.removeFromInFlight p.1

/-- `InvokeLossDetection`. -/
def invokeLossDetection (s : SentPacketManager ρ) (time : ℤ) : SentPacketManager ρ :=
  let acked := (s.packetsAcked.getLast?).elim s.largestNewlyAcked Prod.fst
  let d := s.lossAlgorithm.detectLosses R s.unackedPackets time s.rttStats acked
  let s := { s with
    largestNewlyAcked := acked
    lossAlgorithm := d.2
    packetsLost := s.packetsLost ++ d.1.lost
    unackedPackets := if d.1.strayed then s.unackedPackets.stray else s.unackedPackets }
  s.packetsLost.foldl markLost s

/-- `MaybeInvokeCongestionEvent`. -/
def maybeInvokeCongestionEvent (s : SentPacketManager ρ) (rttUpdated : Bool) :
    SentPacketManager ρ :=
  if !rttUpdated && s.packetsAcked.isEmpty && s.packetsLost.isEmpty then s
  else
    { s with
      reported := s.reported ++ [(s.packetsAcked, s.packetsLost)]
      packetsAcked := []
      packetsLost := [] }

/-- The counters reset at the end of `OnIncomingAck`, after a new estimate. -/
def resetCounters (s : SentPacketManager ρ) (ack : AckFrame) : SentPacketManager ρ :=
  { s with
    rttStats :=
      if 0 < s.consecutiveRtoCount ∧ ack.largestObserved < s.firstRtoTransmission then
        R.expireSmoothedMetrics s.rttStats
      else s.rttStats
    consecutiveRtoCount := 0
    consecutiveTlpCount := 0
    consecutiveCryptoRetransmissionCount := 0 }

/-- The loop that undoes pending retransmissions, on the entries not yet looked
at. -/
def undoFrom (s : SentPacketManager ρ) : List (ℕ × TransmissionType) → SentPacketManager ρ
  | [] => { s with pendingRetransmissions := [] }
  | p :: l =>
    if s.options.undoPendingRetransmits ∧ s.largestNewlyAcked < p.1 ∧
        p.2 = .lossRetransmission then
      undoFrom (s.withMap fun m => m.restoreToInFlight p.1) l
    else { s with pendingRetransmissions := p :: l }

/-- `OnIncomingAck` up to its call of `RemoveObsoletePackets`. -/
def processAck (s : SentPacketManager ρ) (ack : AckFrame) (ackReceiveTime now : ℤ) :
    SentPacketManager ρ :=
  let updated := s.rttUpdated ack
  let s := (s.updatePacketInformationReceivedByPeer ack).maybeUpdateRtt R ack ackReceiveTime
  let s := s.withMap fun m => m.increaseLargestObserved ack.largestObserved
  let s := (s.handleAckForSentPackets R ack now).invokeLossDetection R ackReceiveTime
  let s := { s with
    packetsLost :=
      if 0 < s.consecutiveRtoCount ∧ s.options.useNewRto = false then [] else s.packetsLost }
  s.maybeInvokeCongestionEvent updated

/-- `OnIncomingAck`. -/
def onIncomingAck (s : SentPacketManager ρ) (ack : AckFrame) (ackReceiveTime now : ℤ) :
    SentPacketManager ρ :=
  let updated := s.rttUpdated ack
  let s := (s.processAck R ack ackReceiveTime now).withMap .removeObsoletePackets
  let s := if updated then s.resetCounters R ack else s
  s.undoFrom s.pendingRetransmissions

/-! ## The retransmission alarm -/

def getRetransmissionMode (s : SentPacketManager ρ) : RetransmissionTimeoutMode :=
  if !s.handshakeConfirmed && s.unackedPackets.hasPendingCryptoPackets then .handshake
  else if s.lossAlgorithm.lossDetectionTimeout ≠ 0 then .loss
  else if s.consecutiveTlpCount < s.options.maxTailLossProbes ∧
      s.unackedPackets.hasUnackedRetransmittableFrames then .tlp
  else .rto

/-- `RetransmitCryptoPackets`. -/
def retransmitCryptoPackets (s : SentPacketManager ρ) : SentPacketManager ρ :=
  let s := { s with
    consecutiveCryptoRetransmissionCount := s.consecutiveCryptoRetransmissionCount + 1 }
  s.forPackets fun s n i =>
    if i.inFlight ∧ i.retransmittableFrames ≠ [] ∧ i.hasCryptoHandshake then
      let s := s.markForRetransmission n .handshakeRetransmission
      { s with pendingTimerTransmissionCount := s.pendingTimerTransmissionCount + 1 }
    else s

/-- The body of the loop of `RetransmitRtoPackets`. -/
def retransmitRtoAt (s : SentPacketManager ρ) (n : ℕ) (i : TransmissionInfo) :
    SentPacketManager ρ :=
  if i.retransmittableFrames ≠ [] then
    if s.pendingTimerTransmissionCount < kMaxRetransmissionsOnTimeout then
      let s := s.markForRetransmission n .rtoRetransmission
      { s with pendingTimerTransmissionCount := s.pendingTimerTransmissionCount + 1 }
    else s
  else if i.inFlight ∧ i.retransmission = 0 then s.withMap fun m => m.removeFromInFlight n
  else s

/-- `RetransmitRtoPackets`. -/
def retransmitRtoPackets (s : SentPacketManager ρ) : SentPacketManager ρ :=
  let s := s.forPackets retransmitRtoAt
  if 0 < s.pendingTimerTransmissionCount then
    { s with
      firstRtoTransmission :=
        if s.consecutiveRtoCount = 0 then s.unackedPackets.largestSentPacket + 1
        else s.firstRtoTransmission
      consecutiveRtoCount := s.consecutiveRtoCount + 1 }
  else s

/-- `OnRetransmissionTimeout`. -/
def onRetransmissionTimeout (s : SentPacketManager ρ) (now : ℤ) : SentPacketManager ρ :=
  match s.getRetransmissionMode with
  | .handshake =>
    { s with
      stats := { s.stats with cryptoRetransmitCount := s.stats.cryptoRetransmitCount + 1 }
      }.retransmitCryptoPackets
  | .loss =>
    ({ s with
       stats := { s.stats with lossTimeoutCount := s.stats.lossTimeoutCount + 1 }
       }.invokeLossDetection R now).maybeInvokeCongestionEvent false
  | .tlp =>
    { s with
      stats := { s.stats with tlpCount := s.stats.tlpCount + 1 }
      consecutiveTlpCount := s.consecutiveTlpCount + 1
      pendingTimerTransmissionCount := 1 }
  | .rto =>
    { s with
      stats := { s.stats with rtoCount := s.stats.rtoCount + 1 } }.retransmitRtoPackets

/-- The oldest packet in flight with frames to retransmit. -/
def oldestInFlight (m : UnackedPacketMap) : Option ℕ :=
  m.packets.numbers.find? fun n =>
    (m.packets.get? n).any fun i => i.inFlight && !i.retransmittableFrames.isEmpty

/-- `MaybeRetransmitTailLossProbe`. -/
def maybeRetransmitTailLossProbe (s : SentPacketManager ρ) : Bool × SentPacketManager ρ :=
  if s.pendingTimerTransmissionCount = 0 then (false, s)
  else
    match oldestInFlight s.unackedPackets with
    | none => (false, s)
    | some n => (true, s.markForRetransmission n .tlpRetransmission)

/-! ## Runs -/

end SentPacketManager

/-- The operations of the manager. -/
inductive Op
  | send (packet : SerializedPacket) (originalPacketNumber : ℕ) (sentTime : ℤ)
      (type : TransmissionType) (inFlight : Bool)
  | ack (frame : AckFrame) (ackReceiveTime now : ℤ)
  | retransmissionTimeout (now : ℤ)
  | tailLossProbe
  | neuterUnencryptedPackets
  | retransmitUnackedPackets (initialOnly : Bool)
  | cancelRetransmissionsForStream (streamId : ℕ)
  | setHandshakeConfirmed
  deriving Repr, DecidableEq

namespace SentPacketManager

variable {ρ : Type} (R : RttStats ρ)

/-- One operation.  Packet numbers increase and packets are not empty; an ack
frame acknowledges what was sent and no less than the one before it. -/
def step (s : SentPacketManager ρ) : Op → Option (SentPacketManager ρ)
  | .send p original sentTime type inFlight =>
    if s.unackedPackets.largestSentPacket < p.packetNumber ∧ 0 < p.encryptedLength then
      some (s.onPacketSent p original sentTime type inFlight)
    else none
  | .ack frame ackReceiveTime now =>
    if s.unackedPackets.largestObserved ≤ frame.largestObserved ∧
        frame.largestObserved ≤ s.unackedPackets.largestSentPacket then
      some (s.onIncomingAck R frame ackReceiveTime now)
    else none
  | .retransmissionTimeout now => some (s.onRetransmissionTimeout R now)
  | .tailLossProbe => some s.maybeRetransmitTailLossProbe.2
  | .neuterUnencryptedPackets => some s.neuterUnencryptedPackets
  | .retransmitUnackedPackets initialOnly => some (s.retransmitUnackedPackets initialOnly)
  | .cancelRetransmissionsForStream streamId => some (s.cancelRetransmissionsForStream streamId)
  | .setHandshakeConfirmed => some { s with handshakeConfirmed := true }

end SentPacketManager
end Packets
end QuicNs3
