/-
# Loss detection

Model of `net/quic/core/congestion_control/general_loss_algorithm.cc`.  The round
trip time statistics are a parameter: what loss detection and the sent packet
manager read of them (`RttStats`), over any type of their states.

`DetectLosses` goes through the tracked packets up to the largest newly acked
one.  What it decides about one packet in flight is a `Verdict`; the loop stops at
the first packet that may still arrive, and sets the loss timer for it.
-/

import QuicNs3.Packets.Basic
import Mathlib.Algebra.Order.Ring.Int

namespace QuicNs3
namespace Packets

open Lib

/-- `RttStats`, as far as this component uses it. -/
structure RttStats (ρ : Type) where
  /-- `UpdateRtt`, with the send delta, the ack delay and the time. -/
  updateRtt : ρ → ℤ → ℤ → ℤ → ρ
  expireSmoothedMetrics : ρ → ρ
  previousSrtt : ρ → ℤ
  latestRtt : ρ → ℤ
  smoothedRtt : ρ → ℤ

/-- `LossDetectionType`. -/
inductive LossDetectionType
  | nack
  | time
  | adaptiveTime
  | lazyFack
  deriving Repr, DecidableEq

/-- `GeneralLossAlgorithm`. -/
structure GeneralLossAlgorithm where
  lossDetectionTimeout : ℤ
  largestSentOnSpuriousRetransmit : ℕ
  lossType : LossDetectionType
  reorderingShift : ℕ
  largestPreviouslyAcked : ℕ
  deriving Repr, DecidableEq

/-- `kMinLossDelayMs`, in microseconds. -/
def kMinLossDelay : ℤ := 5000

/-- `kNumberOfNacksBeforeRetransmission`. -/
def kNumberOfNacksBeforeRetransmission : ℕ := 3

/-- What is decided about one packet in flight. -/
inductive Verdict
  | lost
  | kept
  /-- It may still arrive: the loss timer is set. -/
  | wait (whenLost : ℤ)
  /-- The largest newly acked packet is not in the deque. -/
  | strayed
  deriving Repr, DecidableEq

/-- What a pass over the packets finds. -/
structure Detected where
  lost : List (ℕ × ℕ)
  timeout : ℤ
  strayed : Bool
  deriving Repr, DecidableEq

namespace GeneralLossAlgorithm

variable {ρ : Type} (R : RttStats ρ)

/-- `kDefaultLossDelayShift` and `kDefaultAdaptiveLossDelayShift`. -/
def defaultShift (lossType : LossDetectionType) : ℕ :=
  if lossType = .adaptiveTime then 4 else 2

/-- The constructor. -/
def new (lossType : LossDetectionType) : GeneralLossAlgorithm where
  lossDetectionTimeout := 0
  largestSentOnSpuriousRetransmit := 0
  lossType := lossType
  reorderingShift := defaultShift lossType
  largestPreviouslyAcked := 0

def maxRtt (r : ρ) : ℤ := max (R.previousSrtt r) (R.latestRtt r)

def lossDelay (a : GeneralLossAlgorithm) (r : ρ) : ℤ :=
  max kMinLossDelay (maxRtt R r + maxRtt R r >>> a.reorderingShift)

/-- The decision about packet `n`, which is in flight. -/
def verdict (a : GeneralLossAlgorithm) (m : UnackedPacketMap) (time : ℤ) (r : ρ)
    (largestNewlyAcked n : ℕ) (i : TransmissionInfo) : Verdict :=
  if a.lossType = .nack ∧ kNumberOfNacksBeforeRetransmission ≤ largestNewlyAcked - n then .lost
  else if a.lossType = .lazyFack ∧ a.largestPreviouslyAcked < largestNewlyAcked ∧
      n < a.largestPreviouslyAcked ∧
      kNumberOfNacksBeforeRetransmission - 1 ≤ a.largestPreviouslyAcked - n then .lost
  else if (i.retransmittableFrames ≠ [] ∧
        m.largestSentRetransmittablePacket ≤ largestNewlyAcked) ∨
      a.lossType = .time ∨ a.lossType = .adaptiveTime then
    if time < i.sentTime + a.lossDelay R r then .wait (i.sentTime + a.lossDelay R r) else .lost
  else
    match m.packets.get? largestNewlyAcked with
    | none => .strayed
    | some j => if i.sentTime + R.smoothedRtt r < j.sentTime then .lost else .kept

/-- The loop of `DetectLosses`, from packet number `n` on. -/
def detectFrom (a : GeneralLossAlgorithm) (m : UnackedPacketMap) (time : ℤ) (r : ρ)
    (largestNewlyAcked : ℕ) : ℕ → List TransmissionInfo → Detected
  | _, [] => ⟨[], 0, false⟩
  | n, i :: l =>
    if largestNewlyAcked < n then ⟨[], 0, false⟩
    else if i.inFlight then
      match a.verdict R m time r largestNewlyAcked n i with
      | .lost =>
        let d := a.detectFrom m time r largestNewlyAcked (n + 1) l
        { d with lost := (n, i.bytesSent) :: d.lost }
      | .kept => a.detectFrom m time r largestNewlyAcked (n + 1) l
      | .wait whenLost => ⟨[], whenLost, false⟩
      | .strayed => ⟨[], 0, true⟩
    else a.detectFrom m time r largestNewlyAcked (n + 1) l

/-- `DetectLosses`: the packets lost, and the algorithm afterwards. -/
def detectLosses (a : GeneralLossAlgorithm) (m : UnackedPacketMap) (time : ℤ) (r : ρ)
    (largestNewlyAcked : ℕ) : Detected × GeneralLossAlgorithm :=
  let d := a.detectFrom R m time r largestNewlyAcked m.packets.base m.packets.items
  (d, { a with
        lossDetectionTimeout := d.timeout
        largestPreviouslyAcked := largestNewlyAcked })

/-- The loop behind `quic_fix_adaptive_time_loss`. -/
def lowerShift (maxRtt extra : ℤ) : ℕ → ℕ
  | 0 => 0
  | s + 1 => if maxRtt >>> (s + 1) ≤ extra then lowerShift maxRtt extra s else s + 1

/-- The loop without it, which lowers the shift at least once. -/
def lowerShiftOnce (maxRtt extra : ℤ) : ℕ → ℕ
  | 0 => 0
  | s + 1 => if maxRtt >>> (s + 1) < extra ∧ 0 < s then lowerShiftOnce maxRtt extra s else s

/-- `SpuriousRetransmitDetected`, for a retransmission sent at `sentTime`. -/
def spuriousRetransmitDetected (a : GeneralLossAlgorithm) (fixAdaptiveTimeLoss : Bool)
    (m : UnackedPacketMap) (time : ℤ) (r : ρ) (spurious : ℕ) (sentTime : ℤ) :
    GeneralLossAlgorithm :=
  let extra := time - sentTime
  if a.lossType ≠ .adaptiveTime ∨ a.reorderingShift = 0 then a
  else if fixAdaptiveTimeLoss then
    { a with reorderingShift := lowerShift (maxRtt R r) extra a.reorderingShift }
  else if spurious ≤ a.largestSentOnSpuriousRetransmit then a
  else
    { a with
      largestSentOnSpuriousRetransmit := m.largestSentPacket
      reorderingShift := lowerShiftOnce (maxRtt R r) extra a.reorderingShift }

end GeneralLossAlgorithm
end Packets
end QuicNs3
