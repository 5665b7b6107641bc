/-
# Round trip times

Model of `net/quic/core/congestion_control/rtt_stats.h` and `.cc`, with the calls of
`net/quic/core/quic_sent_packet_manager.cc` that set the initial round trip time.

Values are in microseconds.  None is ever negative: a sample is taken only if it is
positive, and so is a seed.  What a caller passes is any integer.  An operation has no
result (`none`) where a value does not fit an `int64_t`: there a signed addition
overflows, or a floating point number is converted that is out of range.

The smoothed round trip time is computed in `double`, the mean deviation in `float`; both
formats round to nearest, a tie to even.  Factors that are multiples of `1/8` and `1/4` are
exact in both, so the products are integers counted in eighths and quarters.

`set_initial_min_rtt_us` has no caller.
-/

import QuicNs3.Lib.Rounding
import QuicNs3.Lib.Run

namespace QuicNs3
namespace Rtt

open Lib

/-- `kInitialRttMs`. -/
def kInitialRttMs : ℕ := 100

def kNumMicrosPerMilli : ℕ := 1000

/-- `kMinInitialRoundTripTimeUs`. -/
def kMinInitialRoundTripTimeUs : ℕ := 10 * kNumMicrosPerMilli

/-- `kMaxInitialRoundTripTimeUs`. -/
def kMaxInitialRoundTripTimeUs : ℕ := 15 * 1000 * 1000

/-- `QuicTime::Delta::Infinite`. -/
def infinite : ℤ := 2 ^ 63 - 1

/-- A value, if an `int64_t` can hold it. -/
def int64? (n : ℕ) : Option ℕ := if n < 2 ^ 63 then some n else none

/-- An integer as a `float`. -/
def toFloat (n : ℕ) : ℕ := roundTo 24 n

/-- An integer as a `double`. -/
def toDouble (n : ℕ) : ℕ := roundTo 53 n

/-- `RttStats`. -/
structure RttStats where
  latestRtt : ℕ
  minRtt : ℕ
  smoothedRtt : ℕ
  previousSrtt : ℕ
  meanDeviation : ℕ
  initialRttUs : ℕ
  deriving Repr, DecidableEq

/-- A send delta that is not ignored. -/
def Accepted (sendDelta : ℤ) : Prop := sendDelta ≠ infinite ∧ 0 < sendDelta

instance (sendDelta : ℤ) : Decidable (Accepted sendDelta) :=
  inferInstanceAs (Decidable (_ ∧ _))

/-- The sample, corrected for the delay of the ack where that leaves something. -/
def rttSample (sendDelta ackDelay : ℤ) : ℤ :=
  if ackDelay < sendDelta then sendDelta - ackDelay else sendDelta

/-- `kOneMinusBeta * meanDeviation + kBeta * deviation`, in quarters, cut off to an
integer. -/
def nextMeanDeviation (meanDeviation deviation : ℕ) : ℕ :=
  toFloat (toFloat (3 * toFloat meanDeviation) + toFloat deviation) / 4

/-- `kOneMinusAlpha * smoothedRtt + kAlpha * sample`, the two products rounded by
`llround`. -/
def nextSmoothedRtt (smoothedRtt sample : ℕ) : ℕ :=
  roundHalfUp (toDouble (7 * toDouble smoothedRtt)) 8 + roundHalfUp (toDouble sample) 8

/-- What the configuration says about the initial round trip time. -/
structure Config where
  receivedInitialRoundTripTimeUs : Option ℕ
  initialRoundTripTimeUsToSend : Option ℕ
  deriving Repr, DecidableEq

namespace RttStats

/-- `RttStats()`. -/
def new : RttStats where
  latestRtt := 0
  minRtt := 0
  smoothedRtt := 0
  previousSrtt := 0
  meanDeviation := 0
  initialRttUs := kInitialRttMs * kNumMicrosPerMilli

/-- `ExpireSmoothedMetrics`. -/
def expireSmoothedMetrics (s : RttStats) : RttStats :=
  { s with
    meanDeviation := max s.meanDeviation ((s.smoothedRtt : ℤ) - s.latestRtt).natAbs
    smoothedRtt := max s.smoothedRtt s.latestRtt }

/-- `UpdateRtt` from the sample on. -/
def addSample (s : RttStats) (sample : ℕ) : Option RttStats :=
  let s := { s with previousSrtt := s.smoothedRtt, latestRtt := sample }
  if s.smoothedRtt = 0 then
    some { s with smoothedRtt := sample, meanDeviation := sample / 2 }
  else do
    let meanDeviation ←
      int64? (nextMeanDeviation s.meanDeviation ((s.smoothedRtt : ℤ) - sample).natAbs)
    let smoothedRtt ← int64? (nextSmoothedRtt s.smoothedRtt sample)
    some { s with meanDeviation := meanDeviation, smoothedRtt := smoothedRtt }

/-- `UpdateRtt`. -/
def updateRtt (s : RttStats) (sendDelta ackDelay : ℤ) : Option RttStats :=
  if Accepted sendDelta then do
    let minRtt := if s.minRtt = 0 ∨ sendDelta.toNat < s.minRtt then sendDelta.toNat else s.minRtt
    let sample ← int64? (rttSample sendDelta ackDelay).toNat
    { s with minRtt := minRtt }.addSample sample
  else some s

/-- `set_initial_srtt_us`. -/
def setInitialSrttUs (s : RttStats) (us : ℤ) : RttStats :=
  if us ≤ 0 then s else { s with smoothedRtt := us.toNat }

/-- `set_initial_rtt_us`. -/
def setInitialRttUs (s : RttStats) (us : ℤ) : RttStats :=
  if us ≤ 0 then s else { s with initialRttUs := us.toNat }

/-- `OnConnectionMigration`. -/
def onConnectionMigration (s : RttStats) : RttStats :=
  { s with
    latestRtt := 0
    minRtt := 0
    smoothedRtt := 0
    meanDeviation := 0
    initialRttUs := kInitialRttMs * kNumMicrosPerMilli }

/-- A value brought into the range of initial round trip times. -/
def clampInitialRtt (us : ℕ) : ℕ :=
  max kMinInitialRoundTripTimeUs (min kMaxInitialRoundTripTimeUs us)

/-- `QuicSentPacketManager::SetFromConfig`, as far as it sets the initial round trip
time. -/
def setFromConfig (s : RttStats) (config : Config) : RttStats :=
  if 0 < config.receivedInitialRoundTripTimeUs.getD 0 then
    s.setInitialRttUs (clampInitialRtt (config.receivedInitialRoundTripTimeUs.getD 0))
  else if 0 < config.initialRoundTripTimeUsToSend.getD 0 then
    s.setInitialRttUs (clampInitialRtt (config.initialRoundTripTimeUsToSend.getD 0))
  else s

/-- `QuicSentPacketManager::ResumeConnectionState`, as far as it sets the initial round
trip time.  The product is cut off to 32 bits. -/
def resumeConnectionState (s : RttStats) (minRttMs : Option ℤ) : RttStats :=
  match minRttMs with
  | none => s
  | some ms => s.setInitialRttUs (clampInitialRtt ((kNumMicrosPerMilli * ms) % 2 ^ 32).toNat)

end RttStats

/-- The calls. -/
inductive Op
  | updateRtt (sendDelta ackDelay : ℤ)
  | expireSmoothedMetrics
  | setInitialSrttUs (us : ℤ)
  | setFromConfig (config : Config)
  | resumeConnectionState (minRttMs : Option ℤ)
  | onConnectionMigration
  deriving Repr, DecidableEq

def RttStats.step (s : RttStats) : Op → Option RttStats
  | .updateRtt sendDelta ackDelay => s.updateRtt sendDelta ackDelay
  | .expireSmoothedMetrics => some s.expireSmoothedMetrics
  | .setInitialSrttUs us => some (s.setInitialSrttUs us)
  | .setFromConfig config => some (s.setFromConfig config)
  | .resumeConnectionState minRttMs => some (s.resumeConnectionState minRttMs)
  | .onConnectionMigration => some s.onConnectionMigration

end Rtt
end QuicNs3
