/-
# The retransmission timer

Model of `GetRetransmissionTime` of `quic_sent_packet_manager.cc` and of the delays
it adds.  Times are in microseconds, and zero is the time of a timer that is not
set.  The exponential back-off is not bounded by the width of an integer: the
clock itself would have to pass it first.

The timer is held back while `pending_timer_transmission_count_` is not zero, that
is, while something queued by a timeout waits to be sent.  With a packet in flight
that has frames, this is the only thing that holds it back
(`getRetransmissionTime_ne_zero_iff`).
-/

import QuicNs3.Packets.InFlight

namespace QuicNs3
namespace Packets

open Lib

/-- `RttStats`, with what the delays of the timer read. -/
structure TimerStats (ρ : Type) extends RttStats ρ where
  /-- `initial_rtt_us`. -/
  initialRtt : ρ → ℤ
  meanDeviation : ρ → ℤ

/-- What `SetFromConfig` sets for the timer. -/
structure TimerOptions where
  conservativeHandshakeRetransmits : Bool
  enableHalfRttTailLossProbe : Bool
  deriving Repr, DecidableEq

def kDefaultRetransmissionTimeMs : ℤ := 500

def kMinRetransmissionTimeMs : ℤ := 200

def kMaxRetransmissionTimeMs : ℤ := 60000

def kMaxRetransmissions : ℕ := 10

def kMinHandshakeTimeoutMs : ℤ := 10

def kConservativeMinHandshakeTimeoutMs : ℤ := 25

def kMinTailLossProbeTimeoutMs : ℤ := 10

def kDefaultTCPMSS : ℕ := 1460

/-- `QuicTime::Delta::ToMilliseconds`. -/
def toMilliseconds (t : ℤ) : ℤ := t.tdiv 1000

/-- `QuicTime::Delta::FromMilliseconds`. -/
def fromMilliseconds (t : ℤ) : ℤ := t * 1000

/-- `llround` of half of `t`. -/
def roundHalf (t : ℤ) : ℤ := if 0 ≤ t then (t + 1) / 2 else -((1 - t) / 2)

namespace UnackedPacketMap

def hasInFlightPackets (m : UnackedPacketMap) : Bool := decide (0 < m.bytesInFlight)

/-- `GetLastPacketSentTime`. -/
def getLastPacketSentTime (m : UnackedPacketMap) : ℤ :=
  ((m.packets.items.reverse.find? TransmissionInfo.inFlight).map TransmissionInfo.sentTime).getD 0

def hasMultipleInFlightPackets (m : UnackedPacketMap) : Bool :=
  decide (kDefaultTCPMSS < m.bytesInFlight) ||
    decide (1 < (m.packets.items.filter TransmissionInfo.inFlight).length)

end UnackedPacketMap

namespace SentPacketManager

variable {ρ : Type} (T : TimerStats ρ) (options : TimerOptions)

/-- The smoothed round trip time, or the initial one before there is any. -/
def srtt (s : SentPacketManager ρ) : ℤ :=
  if T.smoothedRtt s.rttStats = 0 then T.initialRtt s.rttStats else T.smoothedRtt s.rttStats

/-- `GetCryptoRetransmissionDelay`. -/
def getCryptoRetransmissionDelay (s : SentPacketManager ρ) : ℤ :=
  let delayMs :=
    if options.conservativeHandshakeRetransmits then
      max kConservativeMinHandshakeTimeoutMs (2 * toMilliseconds (s.srtt T))
    else max kMinHandshakeTimeoutMs ((3 * toMilliseconds (s.srtt T)).tdiv 2)
  fromMilliseconds (delayMs * 2 ^ s.consecutiveCryptoRetransmissionCount)

/-- `GetTailLossProbeDelay`. -/
def getTailLossProbeDelay (s : SentPacketManager ρ) : ℤ :=
  if options.enableHalfRttTailLossProbe ∧ s.consecutiveTlpCount = 0 then
    fromMilliseconds (max kMinTailLossProbeTimeoutMs ((toMilliseconds (s.srtt T)).tdiv 2))
  else if !s.unackedPackets.hasMultipleInFlightPackets then
    max (2 * s.srtt T)
      (roundHalf (3 * s.srtt T) + fromMilliseconds (kMinRetransmissionTimeMs / 2))
  else fromMilliseconds (max kMinTailLossProbeTimeoutMs (2 * toMilliseconds (s.srtt T)))

/-- `GetRetransmissionDelay` before the back-off. -/
def baseRetransmissionDelay (s : SentPacketManager ρ) : ℤ :=
  if T.smoothedRtt s.rttStats = 0 then fromMilliseconds kDefaultRetransmissionTimeMs
  else
    let delay := T.smoothedRtt s.rttStats + 4 * T.meanDeviation s.rttStats
    if toMilliseconds delay < kMinRetransmissionTimeMs then
      fromMilliseconds kMinRetransmissionTimeMs
    else delay

/-- `GetRetransmissionDelay`. -/
def getRetransmissionDelay (s : SentPacketManager ρ) : ℤ :=
  let delay := s.baseRetransmissionDelay T * 2 ^ min s.consecutiveRtoCount kMaxRetransmissions
  if kMaxRetransmissionTimeMs < toMilliseconds delay then fromMilliseconds kMaxRetransmissionTimeMs
  else delay

/-- `GetRetransmissionTime`, at the time `now`. -/
def getRetransmissionTime (s : SentPacketManager ρ) (now : ℤ) : ℤ :=
  if !s.unackedPackets.hasInFlightPackets ∨ 0 < s.pendingTimerTransmissionCount then 0
  else if !s.unackedPackets.hasUnackedRetransmittableFrames then 0
  else
    let sentTime := s.unackedPackets.getLastPacketSentTime
    match s.getRetransmissionMode with
    | .handshake => now + s.getCryptoRetransmissionDelay T options
    | .loss => s.lossAlgorithm.lossDetectionTimeout
    | .tlp => max now (sentTime + s.getTailLossProbeDelay T options)
    | .rto =>
      max (sentTime + s.getTailLossProbeDelay T options) (sentTime + s.getRetransmissionDelay T)

end SentPacketManager

/-- A packet whose bytes or frames count has a size and a send time. -/
def Stamped (m : UnackedPacketMap) : Prop :=
  ∀ n i, m.packets.get? n = some i → i.inFlight = true ∨ i.retransmittableFrames ≠ [] →
    0 < i.bytesSent ∧ 0 < i.sentTime

/-- There is data in flight that may have to be sent again. -/
def Outstanding {ρ : Type} (s : SentPacketManager ρ) : Prop :=
  s.unackedPackets.hasUnackedRetransmittableFrames = true

variable {ρ : Type} {T : TimerStats ρ} {options : TimerOptions} {s : SentPacketManager ρ}
  {m : UnackedPacketMap} {now : ℤ}

theorem outstanding_iff :
    Outstanding s ↔ ∃ n i, s.unackedPackets.packets.get? n = some i ∧ i.inFlight = true ∧
      i.retransmittableFrames ≠ [] := by
  simp only [Outstanding, UnackedPacketMap.hasUnackedRetransmittableFrames, List.any_eq_true,
    Bool.and_eq_true, Bool.not_eq_true', List.isEmpty_eq_false_iff]
  constructor
  · rintro ⟨i, hi, hfl, hfr⟩
    obtain ⟨n, hn⟩ := Window.exists_get?_of_mem hi
    exact ⟨n, i, hn, hfl, hfr⟩
  · rintro ⟨n, i, hn, hfl, hfr⟩
    exact ⟨i, Window.mem_of_get? hn, hfl, hfr⟩

theorem hasInFlightPackets_of_outstanding (hS : Sound s.unackedPackets)
    (hst : Stamped s.unackedPackets) (h : Outstanding s) :
    s.unackedPackets.hasInFlightPackets = true := by
  obtain ⟨n, i, hi, hfl, -⟩ := outstanding_iff.1 h
  have hw : inFlightBytes i = i.bytesSent := if_pos hfl
  have hle : inFlightBytes i ≤ s.unackedPackets.packets.total inFlightBytes := Window.le_total hi
  have hpos := (hst n i hi (.inl hfl)).1
  have hb := hS.bytes_eq
  exact decide_eq_true (by omega)

theorem getLastPacketSentTime_pos (hst : Stamped s.unackedPackets) (h : Outstanding s) :
    0 < s.unackedPackets.getLastPacketSentTime := by
  obtain ⟨n, i, hi, hfl, -⟩ := outstanding_iff.1 h
  have hmem : i ∈ s.unackedPackets.packets.items.reverse :=
    List.mem_reverse.2 (Window.mem_of_get? hi)
  unfold UnackedPacketMap.getLastPacketSentTime
  cases hf : s.unackedPackets.packets.items.reverse.find? TransmissionInfo.inFlight with
  | none => exact absurd hfl (List.find?_eq_none.1 hf i hmem)
  | some j =>
    obtain ⟨k, hk⟩ := Window.exists_get?_of_mem (List.mem_reverse.1 (List.mem_of_find?_eq_some hf))
    exact (hst k j hk (.inl (List.find?_some hf))).2

/-! ## The delays are not zero -/

theorem getCryptoRetransmissionDelay_pos : 0 < s.getCryptoRetransmissionDelay T options := by
  unfold SentPacketManager.getCryptoRetransmissionDelay
  have hpow : (0 : ℤ) < 2 ^ s.consecutiveCryptoRetransmissionCount := Int.pow_pos (by decide)
  dsimp only
  split_ifs
  · have : 0 < max kConservativeMinHandshakeTimeoutMs (2 * toMilliseconds (s.srtt T)) :=
      lt_max_of_lt_left (by decide)
    exact Int.mul_pos (Int.mul_pos this hpow) (by decide)
  · have : 0 < max kMinHandshakeTimeoutMs ((3 * toMilliseconds (s.srtt T)).tdiv 2) :=
      lt_max_of_lt_left (by decide)
    exact Int.mul_pos (Int.mul_pos this hpow) (by decide)

theorem baseRetransmissionDelay_pos : 0 < s.baseRetransmissionDelay T := by
  unfold SentPacketManager.baseRetransmissionDelay
  dsimp only
  split_ifs with h0 h
  · decide
  · decide
  · -- A delay of at least the minimum number of milliseconds.
    simp only [toMilliseconds, kMinRetransmissionTimeMs, not_lt] at h
    by_contra hneg
    have hq := Int.tdiv_nonneg (b := 1000) (Int.neg_nonneg_of_nonpos (not_lt.1 hneg)) (by decide)
    rw [Int.neg_tdiv] at hq
    omega

theorem getRetransmissionDelay_pos : 0 < s.getRetransmissionDelay T := by
  unfold SentPacketManager.getRetransmissionDelay
  dsimp only
  split_ifs
  · decide
  · exact Int.mul_pos baseRetransmissionDelay_pos (Int.pow_pos (by decide))

/-- **What holds the timer back.**  With data in flight that may have to be sent
again, the timer is set exactly if nothing queued by a timeout waits to be sent. -/
theorem getRetransmissionTime_ne_zero_iff (hS : Sound s.unackedPackets)
    (hst : Stamped s.unackedPackets) (h : Outstanding s) (hnow : 0 < now) :
    s.getRetransmissionTime T options now ≠ 0 ↔ s.pendingTimerTransmissionCount = 0 := by
  have hfl := hasInFlightPackets_of_outstanding hS hst h
  have hsent := getLastPacketSentTime_pos hst h
  have hfr : s.unackedPackets.hasUnackedRetransmittableFrames = true := h
  unfold SentPacketManager.getRetransmissionTime
  rcases Nat.eq_zero_or_pos s.pendingTimerTransmissionCount with h0 | h0
  · refine iff_of_true ?_ h0
    rw [if_neg (by simp [hfl, h0]), if_neg (by simp [hfr])]
    dsimp only
    split
    · have hdelay : 0 < s.getCryptoRetransmissionDelay T options :=
        getCryptoRetransmissionDelay_pos
      omega
    · rename_i hmode
      unfold SentPacketManager.getRetransmissionMode at hmode
      split_ifs at hmode with h₁ h₂
      exact h₂
    · exact (lt_max_of_lt_left hnow).ne'
    · refine (lt_max_of_lt_right ?_).ne'
      have := getRetransmissionDelay_pos (T := T) (s := s)
      omega
  · rw [if_pos (.inr h0)]
    exact iff_of_false (fun h => h rfl) h0.ne'

end Packets
end QuicNs3
