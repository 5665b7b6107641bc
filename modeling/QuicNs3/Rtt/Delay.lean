/-
# The back-off of retransmissions

Model of `GetRetransmissionDelay` of `net/quic/core/quic_sent_packet_manager.cc`, with the
width of its integers: it has no result where a signed product or sum overflows.  Where it
has one, it is the delay of the timer (`getRetransmissionDelay_timer`).

The delay is doubled with every timeout, up to ten times, and cut off at 60 s.  The
comparison is one of whole milliseconds, so a delay that passes 60 s by less than a
millisecond is not cut off, and the next one, which is, is shorter.  And a round trip time
of `2 ^ 53` microseconds or more overflows before it is compared.  Nothing else goes wrong
(`backsOff_iff`).
-/

import QuicNs3.Packets.Timer
import QuicNs3.Rtt.Basic

namespace QuicNs3
namespace Rtt

open Packets (toMilliseconds fromMilliseconds kDefaultRetransmissionTimeMs
  kMinRetransmissionTimeMs kMaxRetransmissionTimeMs kMaxRetransmissions)

/-- The result of an operation on an `int64_t`, which is never negative here. -/
def checked (t : ℤ) : Option ℤ := if t < 2 ^ 63 then some t else none

namespace RttStats

/-- `GetRetransmissionDelay` before the back-off. -/
def baseRetransmissionDelay (s : RttStats) : Option ℤ :=
  if s.smoothedRtt = 0 then some (fromMilliseconds kDefaultRetransmissionTimeMs)
  else do
    let deviation ← checked (4 * s.meanDeviation)
    let delay ← checked (s.smoothedRtt + deviation)
    some (if toMilliseconds delay < kMinRetransmissionTimeMs then
      fromMilliseconds kMinRetransmissionTimeMs else delay)

/-- The end of `GetRetransmissionDelay`. -/
def capDelay (delay : ℤ) : ℤ :=
  if kMaxRetransmissionTimeMs < toMilliseconds delay then fromMilliseconds kMaxRetransmissionTimeMs
  else delay

/-- `GetRetransmissionDelay`. -/
def getRetransmissionDelay (s : RttStats) (consecutiveRtoCount : ℕ) : Option ℤ := do
  let base ← s.baseRetransmissionDelay
  let delay ← checked (base * 2 ^ min consecutiveRtoCount kMaxRetransmissions)
  some (capDelay delay)

end RttStats

/-- The statistics that the retransmission timer reads. -/
def timerStats : Packets.TimerStats RttStats where
  updateRtt s sendDelta ackDelay _ := (s.updateRtt sendDelta ackDelay).getD s
  expireSmoothedMetrics := RttStats.expireSmoothedMetrics
  previousSrtt s := s.previousSrtt
  latestRtt s := s.latestRtt
  smoothedRtt s := s.smoothedRtt
  initialRtt s := s.initialRttUs
  meanDeviation s := s.meanDeviation

variable {s : RttStats} {b t d : ℤ} {n k : ℕ}

theorem checked_eq_some : checked t = some d ↔ t < 2 ^ 63 ∧ t = d := by
  unfold checked
  split_ifs with h
  · exact ⟨fun he => ⟨h, Option.some.inj he⟩, fun he => congrArg some he.2⟩
  · exact ⟨fun he => (nomatch he), fun he => absurd he.1 h⟩

/-! ## The delay as a number -/

/-- The delay before the back-off, as a number. -/
def baseDelay (s : RttStats) : ℤ :=
  if s.smoothedRtt = 0 then fromMilliseconds kDefaultRetransmissionTimeMs
  else max (fromMilliseconds kMinRetransmissionTimeMs) (s.smoothedRtt + 4 * s.meanDeviation)

theorem baseDelay_of_eq_zero (h : s.smoothedRtt = 0) :
    baseDelay s = fromMilliseconds kDefaultRetransmissionTimeMs := if_pos h

theorem baseDelay_of_ne_zero (h : s.smoothedRtt ≠ 0) : baseDelay s =
    max (fromMilliseconds kMinRetransmissionTimeMs) (s.smoothedRtt + 4 * s.meanDeviation) :=
  if_neg h

theorem toMilliseconds_lt_iff (ht : 0 ≤ t) (m : ℤ) :
    toMilliseconds t < m ↔ t < fromMilliseconds m := by
  unfold toMilliseconds fromMilliseconds
  rw [Int.tdiv_eq_ediv_of_nonneg ht]
  omega

/-- The minimum is that of a number of milliseconds, which makes no difference here. -/
theorem max_min_delay (ht : 0 ≤ t) :
    (if toMilliseconds t < kMinRetransmissionTimeMs then
      fromMilliseconds kMinRetransmissionTimeMs else t) =
      max (fromMilliseconds kMinRetransmissionTimeMs) t := by
  split_ifs with h
  · exact (max_eq_left ((toMilliseconds_lt_iff ht _).1 h).le).symm
  · rw [toMilliseconds_lt_iff ht, not_lt] at h
    exact (max_eq_right h).symm

theorem le_baseDelay (s : RttStats) : fromMilliseconds kMinRetransmissionTimeMs ≤ baseDelay s := by
  unfold baseDelay
  split_ifs
  · decide
  · exact le_max_left _ _

/-- The delay before the back-off, and when there is one. -/
theorem baseRetransmissionDelay_eq_some :
    s.baseRetransmissionDelay = some b ↔ baseDelay s < 2 ^ 63 ∧ baseDelay s = b := by
  unfold RttStats.baseRetransmissionDelay baseDelay
  by_cases h0 : s.smoothedRtt = 0
  · simp only [if_pos h0]
    exact ⟨fun h => ⟨by decide, Option.some.inj h⟩, fun h => congrArg some h.2⟩
  · simp only [if_neg h0]
    have hpos : (0 : ℤ) ≤ s.smoothedRtt + 4 * s.meanDeviation := by omega
    constructor
    · intro h
      obtain ⟨_, hdev, h⟩ := Option.bind_eq_some_iff.1 h
      obtain ⟨-, rfl⟩ := checked_eq_some.1 hdev
      obtain ⟨_, hdelay, h⟩ := Option.bind_eq_some_iff.1 h
      obtain ⟨hlt, rfl⟩ := checked_eq_some.1 hdelay
      rw [max_min_delay hpos] at h
      exact ⟨max_lt (by decide) hlt, Option.some.inj h⟩
    · rintro ⟨hlt, rfl⟩
      have hlt' := (le_max_right _ _).trans_lt hlt
      refine Option.bind_eq_some_iff.2 ⟨_, checked_eq_some.2 ⟨by omega, rfl⟩,
        Option.bind_eq_some_iff.2 ⟨_, checked_eq_some.2 ⟨hlt', rfl⟩, ?_⟩⟩
      rw [max_min_delay hpos]

/-- The delay, and when there is one. -/
theorem getRetransmissionDelay_eq_some :
    s.getRetransmissionDelay n = some d ↔
      baseDelay s * 2 ^ min n kMaxRetransmissions < 2 ^ 63 ∧
        RttStats.capDelay (baseDelay s * 2 ^ min n kMaxRetransmissions) = d := by
  have hpow : (1 : ℤ) ≤ 2 ^ min n kMaxRetransmissions := one_le_pow₀ (by decide)
  have hbase := le_baseDelay s
  constructor
  · intro h
    obtain ⟨_, hb, h⟩ := Option.bind_eq_some_iff.1 h
    obtain ⟨-, rfl⟩ := baseRetransmissionDelay_eq_some.1 hb
    obtain ⟨_, hdelay, h⟩ := Option.bind_eq_some_iff.1 h
    obtain ⟨hlt, rfl⟩ := checked_eq_some.1 hdelay
    exact ⟨hlt, Option.some.inj h⟩
  · rintro ⟨hlt, rfl⟩
    have hle : baseDelay s ≤ baseDelay s * 2 ^ min n kMaxRetransmissions :=
      le_mul_of_one_le_right (le_trans (by decide) hbase) hpow
    exact Option.bind_eq_some_iff.2 ⟨_, baseRetransmissionDelay_eq_some.2 ⟨by omega, rfl⟩,
      Option.bind_eq_some_iff.2 ⟨_, checked_eq_some.2 ⟨hlt, rfl⟩, rfl⟩⟩

/-- **Where no operation overflows, this is the delay of the timer.** -/
theorem getRetransmissionDelay_timer (s : Packets.SentPacketManager RttStats)
    (h : s.rttStats.getRetransmissionDelay s.consecutiveRtoCount = some d) :
    s.getRetransmissionDelay timerStats = d := by
  obtain ⟨-, rfl⟩ := getRetransmissionDelay_eq_some.1 h
  have he : s.baseRetransmissionDelay timerStats = baseDelay s.rttStats := by
    unfold Packets.SentPacketManager.baseRetransmissionDelay
    by_cases h0 : s.rttStats.smoothedRtt = 0
    · rw [baseDelay_of_eq_zero h0]
      exact if_pos (Nat.cast_eq_zero.2 h0)
    · rw [baseDelay_of_ne_zero h0, ← max_min_delay (by omega)]
      exact if_neg (mt Nat.cast_eq_zero.1 h0)
  unfold Packets.SentPacketManager.getRetransmissionDelay
  rw [he]
  rfl

/-! ## Bounds and order -/

/-- A delay that is more than the maximum, but not by a millisecond. -/
def Missed (t : ℤ) : Prop :=
  fromMilliseconds kMaxRetransmissionTimeMs < t ∧
    t < fromMilliseconds (kMaxRetransmissionTimeMs + 1)

instance (t : ℤ) : Decidable (Missed t) := inferInstanceAs (Decidable (_ ∧ _))

/-- The delays are from 200 ms to 60 s, and do not decrease with the number of
timeouts. -/
structure BacksOff (s : RttStats) : Prop where
  bounded : ∀ n, ∃ d, s.getRetransmissionDelay n = some d ∧
    fromMilliseconds kMinRetransmissionTimeMs ≤ d ∧ d ≤ fromMilliseconds kMaxRetransmissionTimeMs
  mono : ∀ n n' d d', n ≤ n' → s.getRetransmissionDelay n = some d →
    s.getRetransmissionDelay n' = some d' → d ≤ d'

/-- The round trip times with a proper back-off: the largest delay fits an `int64_t`, and
none is missed by the comparison with the maximum. -/
def Regular (s : RttStats) : Prop :=
  s.smoothedRtt = 0 ∨
    (max (fromMilliseconds kMinRetransmissionTimeMs) (s.smoothedRtt + 4 * s.meanDeviation) <
        2 ^ 53 ∧
      ∀ k ≤ kMaxRetransmissions,
        ¬Missed (max (fromMilliseconds kMinRetransmissionTimeMs)
          (s.smoothedRtt + 4 * s.meanDeviation) * 2 ^ k))

/-- A delay that is not missed is cut off at the maximum. -/
theorem capDelay_eq_min (ht : 0 ≤ t) (h : ¬Missed t) :
    RttStats.capDelay t = min t (fromMilliseconds kMaxRetransmissionTimeMs) := by
  have hle := toMilliseconds_lt_iff ht (kMaxRetransmissionTimeMs + 1)
  unfold RttStats.capDelay
  unfold Missed at h
  unfold fromMilliseconds at h hle ⊢
  split_ifs <;> omega

/-- One that is missed is not. -/
theorem lt_capDelay_of_missed (h : Missed t) :
    fromMilliseconds kMaxRetransmissionTimeMs < RttStats.capDelay t := by
  have ht : 0 ≤ t := le_trans (by decide) h.1.le
  unfold RttStats.capDelay
  rw [if_neg (by rw [not_lt, ← Int.lt_add_one_iff, toMilliseconds_lt_iff ht]; exact h.2)]
  exact h.1

theorem regular_iff :
    Regular s ↔
      baseDelay s < 2 ^ 53 ∧ ∀ k ≤ kMaxRetransmissions, ¬Missed (baseDelay s * 2 ^ k) := by
  unfold Regular
  by_cases h0 : s.smoothedRtt = 0
  · rw [baseDelay_of_eq_zero h0]
    exact ⟨fun _ => ⟨by decide, by decide⟩, fun _ => .inl h0⟩
  · rw [baseDelay_of_ne_zero h0]
    exact ⟨fun h => h.resolve_left h0, .inr⟩

/-- **When retransmissions back off as they should.** -/
theorem backsOff_iff (s : RttStats) : BacksOff s ↔ Regular s := by
  rw [regular_iff]
  have hbase := le_baseDelay s
  have hpos : 0 ≤ baseDelay s := le_trans (by decide) hbase
  constructor
  · intro h
    constructor
    · obtain ⟨d, hd, -⟩ := h.bounded kMaxRetransmissions
      obtain ⟨hlt, -⟩ := getRetransmissionDelay_eq_some.1 hd
      simp only [kMaxRetransmissions, Nat.min_self] at hlt
      omega
    · intro k hk hmissed
      obtain ⟨d, hd, -, hle⟩ := h.bounded k
      obtain ⟨-, rfl⟩ := getRetransmissionDelay_eq_some.1 hd
      rw [Nat.min_eq_left hk] at hle
      exact absurd hle (not_le.2 (lt_capDelay_of_missed hmissed))
  · rintro ⟨hlt, hmissed⟩
    -- The exact delay after `k` timeouts, which is cut off at the maximum.
    have hcap : ∀ n, s.getRetransmissionDelay n =
        some (min (baseDelay s * 2 ^ min n kMaxRetransmissions)
          (fromMilliseconds kMaxRetransmissionTimeMs)) := by
      intro n
      have hle : (2 : ℤ) ^ min n kMaxRetransmissions ≤ 2 ^ 10 :=
        pow_le_pow_right₀ (by decide) (Nat.min_le_right n _)
      have hprod := Int.mul_le_mul_of_nonneg_left hle hpos
      refine getRetransmissionDelay_eq_some.2 ⟨by omega, ?_⟩
      exact capDelay_eq_min (Int.mul_nonneg hpos (pow_nonneg (by decide) _))
        (hmissed _ (Nat.min_le_right n _))
    refine ⟨fun n => ⟨_, hcap n, le_min ?_ (by decide), min_le_right _ _⟩, ?_⟩
    · exact hbase.trans (le_mul_of_one_le_right hpos (one_le_pow₀ (by decide)))
    · intro n n' d d' hn hd hd'
      obtain rfl := Option.some.inj ((hcap n).symm.trans hd)
      obtain rfl := Option.some.inj ((hcap n').symm.trans hd')
      refine min_le_min_right _ (Int.mul_le_mul_of_nonneg_left ?_ hpos)
      exact pow_le_pow_right₀ (by decide) (min_le_min_right _ hn)

/-- A client whose round trips took 60 000.5 ms gets a delay of that, and then one of 60 s;
for one with `2 ^ 60` microseconds, the third timeout overflows. -/
theorem not_backsOff_seeded :
    (∃ s, Lib.run RttStats.step .new [.setInitialSrttUs 60000500] = some s ∧
      s.getRetransmissionDelay 0 = some 60000500 ∧ s.getRetransmissionDelay 1 = some 60000000 ∧
      ¬BacksOff s) ∧
    ∃ s, Lib.run RttStats.step .new [.setInitialSrttUs (2 ^ 60)] = some s ∧
      s.getRetransmissionDelay 3 = none ∧ ¬BacksOff s := by
  have hnone : (RttStats.new.setInitialSrttUs (2 ^ 60)).getRetransmissionDelay 3 = none := by decide
  refine ⟨⟨_, rfl, by decide, by decide, fun h => ?_⟩, ⟨_, rfl, hnone, fun h => ?_⟩⟩
  · exact absurd (h.mono 0 1 60000500 60000000 (by decide) (by decide) (by decide)) (by decide)
  · obtain ⟨d, hd, -⟩ := h.bounded 3
    exact Option.some_ne_none d (hd.symm.trans hnone)

end Rtt
end QuicNs3
