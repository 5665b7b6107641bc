/-
# `TcpCubicSenderBytes`

The congestion controller of `model/net/quic/core/congestion_control/`:
`tcp_cubic_sender_base.cc`, `tcp_cubic_sender_bytes.cc`, `hybrid_slow_start.cc` and
what they use of `prr_sender.cc`.  Windows and packet numbers are `uint64_t`; only
subtractions can leave their range here, so those wrap explicitly (`sub64`).

What is arithmetic on floats is a parameter (`Backoff`): the class `CubicBytes` and
the Reno back-off `congestion_window_ * RenoBeta()`.  A state is that of the base
class and the derived class in one record.  `TimeUntilSend`, `PacingRate` and
`BandwidthEstimate` change nothing and are left out.

The operations are those of a server's connection.  `CreateQuicSession` calls the
three public setters in the order of their constructors in `Op`;
`OnCongestionEvent` is a possible exit from slow start, then every loss, then every
ack (`onCongestionEvent_eq`), and these are operations of their own, so that a run
also passes through the states between two losses.
-/

import Mathlib.Algebra.Order.Ring.Int
import QuicNs3.Lib.Run

namespace QuicNs3
namespace Congestion

def kDefaultTCPMSS : ℕ := 1460

def kMaxPacketSize : ℕ := 1452

def kDefaultMinimumCongestionWindow : ℕ := 2 * kDefaultTCPMSS

def kMaxResumptionCongestionWindow : ℕ := 200

def kMaxBurstBytes : ℕ := 3 * kDefaultTCPMSS

/-- Subtraction of two `uint64_t`. -/
def sub64 (a b : ℕ) : ℕ := (a + 2 ^ 64 - b) % 2 ^ 64

/-- `QuicBandwidth::FromBitsPerSecond(bits).ToBytesPerPeriod(us)`: the product of two
`int64_t`, divided as a `uint64_t`. -/
def toBytesPerPeriod (bits us : ℤ) : ℕ :=
  (max bits 0 / 8 * us % 2 ^ 64).toNat / (1000 * 1000)

/-- The connection options `SetFromConfig` looks for. -/
inductive Tag
  | iw03 | iw10 | iw20 | iw50 | min1 | min4 | sslr | nprr | ccvx | cbqt | blmx | cpau
deriving DecidableEq, Repr

/-- `CubicBytes`, and `congestion_window_ * RenoBeta()` as a function of
`num_connections_` and the window.  A window after a loss is a `uint64_t`. -/
structure Backoff (σ : Type) where
  init : σ
  setNumConnections : σ → ℕ → σ
  resetCubicState : σ → σ
  congestionWindowAfterPacketLoss : σ → ℕ → ℕ × σ
  congestionWindowAfterAck : σ → (ackedBytes current : ℕ) → (delayMin eventTime : ℤ) → ℕ × σ
  onApplicationLimited : σ → σ
  setFixConvexMode : σ → σ
  setFixCubicQuantization : σ → σ
  setFixBetaLastMax : σ → σ
  setAllowPerAckUpdates : σ → σ
  reno : (numConnections window : ℕ) → ℕ
  congestionWindowAfterPacketLoss_lt : ∀ c w, (congestionWindowAfterPacketLoss c w).1 < 2 ^ 64
  reno_lt : ∀ n w, reno n w < 2 ^ 64

/-- `HybridSlowStart`; times are in microseconds. -/
structure HybridSlowStart where
  started : Bool
  hystartFound : Bool
  lastSentPacketNumber : ℕ
  endPacketNumber : ℕ
  rttSampleCount : ℕ
  currentMinRtt : ℤ
deriving DecidableEq, Repr

namespace HybridSlowStart

def new : HybridSlowStart := ⟨false, false, 0, 0, 0, 0⟩

def onPacketAcked (h : HybridSlowStart) (ackedPacketNumber : ℕ) : HybridSlowStart :=
  if h.endPacketNumber ≤ ackedPacketNumber then { h with started := false } else h

def onPacketSent (h : HybridSlowStart) (packetNumber : ℕ) : HybridSlowStart :=
  { h with lastSentPacketNumber := packetNumber }

def restart (h : HybridSlowStart) : HybridSlowStart :=
  { h with started := false, hystartFound := false }

def startReceiveRound (h : HybridSlowStart) (lastSent : ℕ) : HybridSlowStart :=
  { h with endPacketNumber := lastSent, currentMinRtt := 0, rttSampleCount := 0, started := true }

/-- `ShouldExitSlowStart`: eight samples a round, then the delay is compared. -/
def shouldExitSlowStart (h : HybridSlowStart) (latestRtt minRtt : ℤ) (congestionWindow : ℕ) :
    Bool × HybridSlowStart :=
  let h := if h.started then h else h.startReceiveRound h.lastSentPacketNumber
  if h.hystartFound then (true, h)
  else
    let h := { h with rttSampleCount := (h.rttSampleCount + 1) % 2 ^ 32 }
    let h := if h.rttSampleCount ≤ 8 ∧ (h.currentMinRtt = 0 ∨ latestRtt < h.currentMinRtt) then
      { h with currentMinRtt := latestRtt } else h
    let threshold := max (min (minRtt / 8) 16000) 4000
    let h := if h.rttSampleCount = 8 ∧ minRtt + threshold < h.currentMinRtt then
      { h with hystartFound := true } else h
    (16 ≤ congestionWindow ∧ h.hystartFound, h)

end HybridSlowStart

/-- `PrrSender`. -/
structure PrrSender where
  bytesSentSinceLoss : ℕ
  bytesDeliveredSinceLoss : ℕ
  ackCountSinceLoss : ℕ
  bytesInFlightBeforeLoss : ℕ
deriving DecidableEq, Repr

namespace PrrSender

def new : PrrSender := ⟨0, 0, 0, 0⟩

def onPacketSent (p : PrrSender) (sentBytes : ℕ) : PrrSender :=
  { p with bytesSentSinceLoss := p.bytesSentSinceLoss + sentBytes }

def onPacketLost (priorInFlight : ℕ) : PrrSender := ⟨0, 0, 0, priorInFlight⟩

def onPacketAcked (p : PrrSender) (ackedBytes : ℕ) : PrrSender :=
  { p with
    bytesDeliveredSinceLoss := p.bytesDeliveredSinceLoss + ackedBytes
    ackCountSinceLoss := p.ackCountSinceLoss + 1 }

end PrrSender

/-- The counters of `QuicConnectionStats` that the controller keeps. -/
structure Stats where
  slowstartPacketsSent : ℕ
  slowstartPacketsLost : ℕ
  slowstartBytesLost : ℕ
  tcpLossEvents : ℕ
deriving DecidableEq, Repr

/-- What the factory passes to the constructor, in packets: `32` and `2000`. -/
structure Limits where
  initial : ℕ
  max : ℕ
  two_le_initial : 2 ≤ initial
  initial_lt : initial < 2 ^ 32
  max_lt : max < 2 ^ 32

/-- The limits of `SendAlgorithmInterface::Create`. -/
def Limits.default : Limits := ⟨32, 2000, by decide, by decide, by decide⟩

/-- The data members of `TcpCubicSenderBase` and `TcpCubicSenderBytes`. -/
structure TcpCubicSender (σ : Type) where
  hybridSlowStart : HybridSlowStart
  prr : PrrSender
  stats : Stats
  reno : Bool
  numConnections : ℕ
  largestSentPacketNumber : ℕ
  largestAckedPacketNumber : ℕ
  largestSentAtLastCutback : ℕ
  min4Mode : Bool
  lastCutbackExitedSlowstart : Bool
  slowStartLargeReduction : Bool
  noPrr : Bool
  cubic : σ
  numAckedPackets : ℕ
  congestionWindow : ℕ
  minCongestionWindow : ℕ
  maxCongestionWindow : ℕ
  slowstartThreshold : ℕ
  initialTcpCongestionWindow : ℕ
  initialMaxTcpCongestionWindow : ℕ
  minSlowStartExitWindow : ℕ

namespace TcpCubicSender

variable {σ : Type}

/-- The constructor. -/
def new (B : Backoff σ) (reno : Bool) (limits : Limits) : TcpCubicSender σ where
  hybridSlowStart := HybridSlowStart.new
  prr := PrrSender.new
  stats := ⟨0, 0, 0, 0⟩
  reno := reno
  numConnections := 2
  largestSentPacketNumber := 0
  largestAckedPacketNumber := 0
  largestSentAtLastCutback := 0
  min4Mode := false
  lastCutbackExitedSlowstart := false
  slowStartLargeReduction := false
  noPrr := false
  cubic := B.init
  numAckedPackets := 0
  congestionWindow := limits.initial * kDefaultTCPMSS
  minCongestionWindow := kDefaultMinimumCongestionWindow
  maxCongestionWindow := limits.max * kDefaultTCPMSS
  slowstartThreshold := limits.max * kDefaultTCPMSS
  initialTcpCongestionWindow := limits.initial * kDefaultTCPMSS
  initialMaxTcpCongestionWindow := limits.max * kDefaultTCPMSS
  minSlowStartExitWindow := kDefaultMinimumCongestionWindow

def inSlowStart (s : TcpCubicSender σ) : Prop := s.congestionWindow < s.slowstartThreshold

instance (s : TcpCubicSender σ) : Decidable s.inSlowStart :=
  inferInstanceAs (Decidable (s.congestionWindow < s.slowstartThreshold))

def inRecovery (s : TcpCubicSender σ) : Prop :=
  s.largestAckedPacketNumber ≤ s.largestSentAtLastCutback ∧ s.largestAckedPacketNumber ≠ 0

instance (s : TcpCubicSender σ) : Decidable s.inRecovery :=
  inferInstanceAs (Decidable (_ ∧ _))

def isCwndLimited (s : TcpCubicSender σ) (bytesInFlight : ℕ) : Prop :=
  s.congestionWindow ≤ bytesInFlight ∨
    (s.inSlowStart ∧ s.congestionWindow / 2 < bytesInFlight) ∨
    s.congestionWindow - bytesInFlight ≤ kMaxBurstBytes

instance (s : TcpCubicSender σ) (bytesInFlight : ℕ) : Decidable (s.isCwndLimited bytesInFlight) :=
  inferInstanceAs (Decidable (_ ∨ _ ∨ _))

/-- The window that a bandwidth and a round trip time make, kept between the minimum
and the maximum for resumption. -/
def resumptionWindow (s : TcpCubicSender σ) (bits us : ℤ) : ℕ :=
  max s.minCongestionWindow
    (min (toBytesPerPeriod bits us) (kMaxResumptionCongestionWindow * kDefaultTCPMSS))

def setInitialCongestionWindowFromBandwidthAndRtt (s : TcpCubicSender σ) (bits us : ℤ) :
    TcpCubicSender σ :=
  { s with initialTcpCongestionWindow := s.resumptionWindow bits us }

def setCongestionWindowFromBandwidthAndRtt (s : TcpCubicSender σ) (bits us : ℤ) :
    TcpCubicSender σ :=
  { s with congestionWindow := s.resumptionWindow bits us }

def setMinSlowstartExitWindowFromBandwidthAndRtt (s : TcpCubicSender σ) (bits us : ℤ) :
    TcpCubicSender σ :=
  let windowSize := toBytesPerPeriod bits us
  let exitWindow := min s.congestionWindow (max (s.initialTcpCongestionWindow / 2) windowSize)
  { s with minSlowStartExitWindow := exitWindow }

/-- `SetCongestionWindowInPackets`. -/
def setCongestionWindowInPackets (s : TcpCubicSender σ) (packets : ℕ) : TcpCubicSender σ :=
  { s with congestionWindow := packets * kDefaultTCPMSS }

/-- `SetMinCongestionWindowInPackets`. -/
def setMinCongestionWindowInPackets (s : TcpCubicSender σ) (packets : ℕ) : TcpCubicSender σ :=
  { s with minCongestionWindow := packets * kDefaultTCPMSS }

/-- What `SetFromConfig` does for one option. -/
def setOption (B : Backoff σ) (s : TcpCubicSender σ) : Tag → TcpCubicSender σ
  | .iw03 => s.setCongestionWindowInPackets 3
  | .iw10 => s.setCongestionWindowInPackets 10
  | .iw20 => s.setCongestionWindowInPackets 20
  | .iw50 => s.setCongestionWindowInPackets 50
  | .min1 => s.setMinCongestionWindowInPackets 1
  | .min4 => { s with min4Mode := true }.setMinCongestionWindowInPackets 1
  | .sslr => { s with slowStartLargeReduction := true }
  | .nprr => { s with noPrr := true }
  | .ccvx => { s with cubic := B.setFixConvexMode s.cubic }
  | .cbqt => { s with cubic := B.setFixCubicQuantization s.cubic }
  | .blmx => { s with cubic := B.setFixBetaLastMax s.cubic }
  | .cpau => { s with cubic := B.setAllowPerAckUpdates s.cubic }

/-- `SetFromConfig` on a server: the options it looks for, in this order, are set if
the client sent them. -/
def setFromConfig (B : Backoff σ) (s : TcpCubicSender σ) (options : List Tag) : TcpCubicSender σ :=
  [.iw03, .iw10, .iw20, .iw50, .min1, .min4, .sslr, .nprr, .ccvx, .cbqt, .blmx, .cpau].foldl
    (fun s tag => if tag ∈ options then s.setOption B tag else s) s

def adjustNetworkParameters (s : TcpCubicSender σ) (bits us : ℤ) : TcpCubicSender σ :=
  if max bits 0 = 0 ∨ us = 0 then s else s.setCongestionWindowFromBandwidthAndRtt bits us

def setNumEmulatedConnections (B : Backoff σ) (s : TcpCubicSender σ) (n : ℤ) : TcpCubicSender σ :=
  let n := (max 1 n).toNat
  { s with numConnections := n, cubic := B.setNumConnections s.cubic n }

def exitSlowstart (s : TcpCubicSender σ) : TcpCubicSender σ :=
  { s with slowstartThreshold := s.congestionWindow }

def onPacketSent (s : TcpCubicSender σ) (packetNumber bytes : ℕ) (isRetransmittable : Bool) :
    TcpCubicSender σ :=
  let s := { s with
    stats.slowstartPacketsSent :=
      if s.inSlowStart then s.stats.slowstartPacketsSent + 1 else s.stats.slowstartPacketsSent }
  if ¬ isRetransmittable then s
  else { s with
    prr := if s.inRecovery then s.prr.onPacketSent bytes else s.prr
    largestSentPacketNumber := packetNumber
    hybridSlowStart := s.hybridSlowStart.onPacketSent packetNumber }

/-- A loss among packets sent before the last cutback. -/
def onLateLoss (s : TcpCubicSender σ) (lostBytes : ℕ) : TcpCubicSender σ :=
  if s.lastCutbackExitedSlowstart then
    let s := { s with
      stats.slowstartPacketsLost := s.stats.slowstartPacketsLost + 1
      stats.slowstartBytesLost := s.stats.slowstartBytesLost + lostBytes }
    if s.slowStartLargeReduction then
      let window := max (sub64 s.congestionWindow lostBytes) s.minSlowStartExitWindow
      { s with congestionWindow := window, slowstartThreshold := window }
    else s
  else s

/-- The reduced window of a cutback, before it is raised to the minimum. -/
def cutWindow (B : Backoff σ) (s : TcpCubicSender σ) : TcpCubicSender σ :=
  if s.slowStartLargeReduction ∧ s.inSlowStart then
    { s with
      minSlowStartExitWindow :=
        if 2 * s.initialTcpCongestionWindow ≤ s.congestionWindow then s.congestionWindow / 2
        else s.minSlowStartExitWindow
      congestionWindow := sub64 s.congestionWindow kDefaultTCPMSS }
  else if s.reno then
    { s with congestionWindow := B.reno s.numConnections s.congestionWindow }
  else
    let (window, cubic) := B.congestionWindowAfterPacketLoss s.cubic s.congestionWindow
    { s with congestionWindow := window, cubic := cubic }

/-- A loss that starts a new cutback. -/
def onCutback (B : Backoff σ) (s : TcpCubicSender σ) (priorInFlight : ℕ) : TcpCubicSender σ :=
  let s := { s with
    stats.tcpLossEvents := s.stats.tcpLossEvents + 1
    lastCutbackExitedSlowstart := s.inSlowStart
    stats.slowstartPacketsLost :=
      if s.inSlowStart then s.stats.slowstartPacketsLost + 1 else s.stats.slowstartPacketsLost
    prr := if s.noPrr then s.prr else PrrSender.onPacketLost priorInFlight }
  let s := s.cutWindow B
  let window := max s.congestionWindow s.minCongestionWindow
  { s with
    congestionWindow := window
    slowstartThreshold := window
    largestSentAtLastCutback := s.largestSentPacketNumber
    numAckedPackets := 0 }

def onPacketLost (B : Backoff σ) (s : TcpCubicSender σ) (packetNumber lostBytes priorInFlight : ℕ) :
    TcpCubicSender σ :=
  if packetNumber ≤ s.largestSentAtLastCutback then s.onLateLoss lostBytes
  else s.onCutback B priorInFlight

def maybeIncreaseCwnd (B : Backoff σ) (s : TcpCubicSender σ) (ackedBytes priorInFlight : ℕ)
    (minRtt eventTime : ℤ) : TcpCubicSender σ :=
  if ¬ s.isCwndLimited priorInFlight then { s with cubic := B.onApplicationLimited s.cubic }
  else if s.maxCongestionWindow ≤ s.congestionWindow then s
  else if s.inSlowStart then { s with congestionWindow := s.congestionWindow + kDefaultTCPMSS }
  else if s.reno then
    if s.congestionWindow / kDefaultTCPMSS ≤ (s.numAckedPackets + 1) * s.numConnections then
      { s with congestionWindow := s.congestionWindow + kDefaultTCPMSS, numAckedPackets := 0 }
    else { s with numAckedPackets := s.numAckedPackets + 1 }
  else
    let (window, cubic) :=
      B.congestionWindowAfterAck s.cubic ackedBytes s.congestionWindow minRtt eventTime
    { s with congestionWindow := min s.maxCongestionWindow window, cubic := cubic }

def onPacketAcked (B : Backoff σ) (s : TcpCubicSender σ) (packetNumber ackedBytes priorInFlight : ℕ)
    (minRtt eventTime : ℤ) : TcpCubicSender σ :=
  let s := { s with largestAckedPacketNumber := max packetNumber s.largestAckedPacketNumber }
  if s.inRecovery then
    if s.noPrr then s else { s with prr := s.prr.onPacketAcked ackedBytes }
  else
    let s := s.maybeIncreaseCwnd B ackedBytes priorInFlight minRtt eventTime
    if s.inSlowStart then
      { s with hybridSlowStart := s.hybridSlowStart.onPacketAcked packetNumber }
    else s

/-- The first part of `OnCongestionEvent`, where the round trip time was updated. -/
def onRttUpdated (s : TcpCubicSender σ) (latestRtt minRtt : ℤ) : TcpCubicSender σ :=
  if s.inSlowStart then
    let (exit, hybrid) := s.hybridSlowStart.shouldExitSlowStart latestRtt minRtt
      (s.congestionWindow / kDefaultTCPMSS)
    let s := { s with hybridSlowStart := hybrid }
    if exit then s.exitSlowstart else s
  else s

/-- `OnCongestionEvent`; a packet is its number and its bytes. -/
def onCongestionEvent (B : Backoff σ) (s : TcpCubicSender σ) (rttUpdated : Bool) (priorInFlight : ℕ)
    (latestRtt minRtt eventTime : ℤ) (ackedPackets lostPackets : List (ℕ × ℕ)) : TcpCubicSender σ :=
  let s := if rttUpdated then s.onRttUpdated latestRtt minRtt else s
  let s := lostPackets.foldl (fun s p => s.onPacketLost B p.1 p.2 priorInFlight) s
  ackedPackets.foldl (fun s p => s.onPacketAcked B p.1 p.2 priorInFlight minRtt eventTime) s

def onRetransmissionTimeout (B : Backoff σ) (s : TcpCubicSender σ) (packetsRetransmitted : Bool) :
    TcpCubicSender σ :=
  let s := { s with largestSentAtLastCutback := 0 }
  if ¬ packetsRetransmitted then s
  else { s with
    hybridSlowStart := s.hybridSlowStart.restart
    cubic := B.resetCubicState s.cubic
    slowstartThreshold := s.congestionWindow / 2
    congestionWindow := s.minCongestionWindow }

def onConnectionMigration (B : Backoff σ) (s : TcpCubicSender σ) : TcpCubicSender σ :=
  { s with
    hybridSlowStart := s.hybridSlowStart.restart
    prr := PrrSender.new
    largestSentPacketNumber := 0
    largestAckedPacketNumber := 0
    largestSentAtLastCutback := 0
    lastCutbackExitedSlowstart := false
    cubic := B.resetCubicState s.cubic
    numAckedPackets := 0
    congestionWindow := s.initialTcpCongestionWindow
    maxCongestionWindow := s.initialMaxTcpCongestionWindow
    slowstartThreshold := s.initialMaxTcpCongestionWindow }

end TcpCubicSender

/-- The operations on a sender. -/
inductive Op
  | setInitialCongestionWindow (bits us : ℤ)
  | setCongestionWindow (bits us : ℤ)
  | setMinSlowstartExitWindow (bits us : ℤ)
  | setFromConfig (options : List Tag)
  | adjustNetworkParameters (bits us : ℤ)
  | setNumEmulatedConnections (n : ℤ)
  | packetSent (packetNumber bytes : ℕ) (isRetransmittable : Bool)
  | rttUpdated (latestRtt minRtt : ℤ)
  | packetLost (packetNumber lostBytes priorInFlight : ℕ)
  | packetAcked (packetNumber ackedBytes priorInFlight : ℕ) (minRtt eventTime : ℤ)
  | retransmissionTimeout (packetsRetransmitted : Bool)
  | connectionMigration

/-- The calls of `CreateQuicSession` for a client with a history, in its order. -/
def seeding (bandwidthMax bandwidthMean rttMax rttMean : ℤ) : List Op :=
  [.setInitialCongestionWindow bandwidthMax rttMax, .setCongestionWindow bandwidthMax rttMean,
    .setMinSlowstartExitWindow bandwidthMean rttMean]

/-- The operations that only `CreateQuicSession` makes. -/
def Op.Seeds : Op → Prop
  | .setInitialCongestionWindow _ _ | .setCongestionWindow _ _ | .setMinSlowstartExitWindow _ _ =>
    True
  | _ => False

/-- What the connection may do: packet numbers grow, and a packet has at most
`kMaxPacketSize` bytes. -/
def Op.Valid {σ : Type} (s : TcpCubicSender σ) : Op → Prop
  | .packetSent packetNumber _ isRetransmittable =>
    isRetransmittable → s.largestSentPacketNumber < packetNumber
  | .packetLost _ lostBytes _ => lostBytes ≤ kMaxPacketSize
  | _ => True

instance {σ : Type} (s : TcpCubicSender σ) : (op : Op) → Decidable (op.Valid s)
  | .packetSent _ _ _ => inferInstanceAs (Decidable (_ → _))
  | .packetLost _ _ _ => inferInstanceAs (Decidable (_ ≤ _))
  | .setInitialCongestionWindow _ _ | .setCongestionWindow _ _ | .setMinSlowstartExitWindow _ _
  | .setFromConfig _ | .adjustNetworkParameters _ _ | .setNumEmulatedConnections _
  | .rttUpdated _ _ | .packetAcked _ _ _ _ _ | .retransmissionTimeout _ | .connectionMigration =>
    .isTrue trivial

namespace TcpCubicSender

variable {σ : Type}

/-- What an operation does. -/
def apply (B : Backoff σ) (s : TcpCubicSender σ) : Op → TcpCubicSender σ
  | .setInitialCongestionWindow bits us => s.setInitialCongestionWindowFromBandwidthAndRtt bits us
  | .setCongestionWindow bits us => s.setCongestionWindowFromBandwidthAndRtt bits us
  | .setMinSlowstartExitWindow bits us => s.setMinSlowstartExitWindowFromBandwidthAndRtt bits us
  | .setFromConfig options => s.setFromConfig B options
  | .adjustNetworkParameters bits us => s.adjustNetworkParameters bits us
  | .setNumEmulatedConnections n => s.setNumEmulatedConnections B n
  | .packetSent packetNumber bytes isRetransmittable =>
    s.onPacketSent packetNumber bytes isRetransmittable
  | .rttUpdated latestRtt minRtt => s.onRttUpdated latestRtt minRtt
  | .packetLost packetNumber lostBytes priorInFlight =>
    s.onPacketLost B packetNumber lostBytes priorInFlight
  | .packetAcked packetNumber ackedBytes priorInFlight minRtt eventTime =>
    s.onPacketAcked B packetNumber ackedBytes priorInFlight minRtt eventTime
  | .retransmissionTimeout packetsRetransmitted => s.onRetransmissionTimeout B packetsRetransmitted
  | .connectionMigration => s.onConnectionMigration B

/-- One operation, where the connection may make it. -/
def step (B : Backoff σ) (s : TcpCubicSender σ) (op : Op) : Option (TcpCubicSender σ) :=
  if op.Valid s then some (s.apply B op) else none

/-- The operations of a congestion event. -/
def congestionEvent (rttUpdated : Bool) (priorInFlight : ℕ) (latestRtt minRtt eventTime : ℤ)
    (ackedPackets lostPackets : List (ℕ × ℕ)) : List Op :=
  (if rttUpdated then [.rttUpdated latestRtt minRtt] else []) ++
    lostPackets.map (fun p => .packetLost p.1 p.2 priorInFlight) ++
    ackedPackets.map fun p => .packetAcked p.1 p.2 priorInFlight minRtt eventTime

/-- **A congestion event is its operations, one after the other.** -/
theorem onCongestionEvent_eq (B : Backoff σ) (s : TcpCubicSender σ) (rttUpdated : Bool)
    (priorInFlight : ℕ) (latestRtt minRtt eventTime : ℤ) (ackedPackets lostPackets : List (ℕ × ℕ)) :
    s.onCongestionEvent B rttUpdated priorInFlight latestRtt minRtt eventTime ackedPackets
        lostPackets =
      (congestionEvent rttUpdated priorInFlight latestRtt minRtt eventTime ackedPackets
        lostPackets).foldl (TcpCubicSender.apply B) s := by
  rw [congestionEvent, List.foldl_append, List.foldl_append, List.foldl_map, List.foldl_map]
  cases rttUpdated <;> rfl

end TcpCubicSender

end Congestion
end QuicNs3
