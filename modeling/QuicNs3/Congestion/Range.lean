/-
# The range of the window

`OnPacketLost` subtracts from an unsigned window twice: the lost bytes, in the
per-loss step of the large reduction, and a packet, in a cutback from slow start.
Neither wraps if the window is never below a packet (`1460` bytes, where a lost
packet has at most `1452`).

The window has that lower bound because everything it can fall to has it: the
minimum, the window to start from and, for the per-loss step, the exit window.  The
seed of `CreateQuicSession` sets the exit window to no less than half of the window to
start from, which at that moment is two packets or more; `MIN1` lowers the minimum
to one packet, but only `SetFromConfig` sees that option, and it comes after the seed.
A cutback sets the exit window to half of a window that has doubled.

The upper bound is one ack's increase above the maximum.
-/

import QuicNs3.Congestion.Loss

namespace QuicNs3
namespace Congestion

open Lib

/-- The bounds of the windows.  `room` is there for the windows that do not depend on
the one in use. -/
structure Windows.Bounds (w : Windows) : Prop where
  mss_le_current : kDefaultTCPMSS ≤ w.current
  mss_le_slowStartExit : kDefaultTCPMSS ≤ w.slowStartExit
  current_lt : w.current < w.maximum + kDefaultTCPMSS
  slowStartExit_lt : w.slowStartExit < w.maximum + kDefaultTCPMSS
  initial_le : w.initial ≤ w.maximum
  maximum_eq : w.maximum = w.initialMaximum
  room : kMaxResumptionCongestionWindow * kDefaultTCPMSS ≤ w.maximum

namespace TcpCubicSender

variable {σ : Type} {B : Backoff σ} {s t : TcpCubicSender σ}

/-- The subtractions of `OnPacketLost` do not wrap: the lost bytes in the per-loss step,
a packet in a cutback from slow start with the large reduction. -/
def SubtractsWithin (s : TcpCubicSender σ) (packetNumber lostBytes : ℕ) : Prop :=
  (packetNumber ≤ s.largestSentAtLastCutback →
    s.lastCutbackExitedSlowstart ∧ s.slowStartLargeReduction → lostBytes ≤ s.congestionWindow) ∧
  (s.largestSentAtLastCutback < packetNumber →
    s.slowStartLargeReduction ∧ s.inSlowStart → kDefaultTCPMSS ≤ s.congestionWindow)

/-- The window is in its range, and no loss takes it out of that of a `uint64_t`. -/
def InRange (s : TcpCubicSender σ) : Prop :=
  kDefaultTCPMSS ≤ s.congestionWindow ∧
    s.congestionWindow < s.maxCongestionWindow + kDefaultTCPMSS ∧
    ∀ packetNumber lostBytes, lostBytes ≤ kMaxPacketSize → s.SubtractsWithin packetNumber lostBytes

theorem inRange_of_bounds (h : s.windows.Bounds) : s.InRange := by
  have hmss : kDefaultTCPMSS ≤ s.congestionWindow := h.mss_le_current
  refine ⟨hmss, h.current_lt, fun packetNumber lostBytes hlost => ⟨fun _ _ => ?_, fun _ _ => hmss⟩⟩
  exact Nat.le_trans hlost (Nat.le_trans (by decide) hmss)

theorem bounds_new (reno : Bool) : (new B reno .default).windows.Bounds := by
  have hw : (new B reno .default).windows =
      ⟨32 * kDefaultTCPMSS, kDefaultMinimumCongestionWindow, 2000 * kDefaultTCPMSS,
        32 * kDefaultTCPMSS, 2000 * kDefaultTCPMSS, kDefaultMinimumCongestionWindow⟩ := rfl
  rw [hw]
  constructor <;> decide

/-- A window made from a bandwidth and a round trip time has room below the maximum. -/
theorem resumptionWindow_bounds (bits us : ℤ) (hi : s.windows.Inv) (h : s.windows.Bounds) :
    kDefaultTCPMSS ≤ s.resumptionWindow bits us ∧
      s.resumptionWindow bits us ≤ s.maxCongestionWindow := by
  have hmss : 1460 ≤ s.minCongestionWindow := hi.mss_le_minimum
  have hmin : s.minCongestionWindow ≤ 2 * 1460 := hi.minimum_le
  have hroom : 200 * 1460 ≤ s.maxCongestionWindow := h.room
  unfold resumptionWindow kMaxResumptionCongestionWindow kDefaultTCPMSS
  omega

theorem bounds_setInitial (bits us : ℤ) (hi : s.windows.Inv) (h : s.windows.Bounds) :
    (s.setInitialCongestionWindowFromBandwidthAndRtt bits us).windows.Bounds :=
  { h with initial_le := (resumptionWindow_bounds bits us hi h).2 }

theorem bounds_setCongestionWindow (bits us : ℤ) (hi : s.windows.Inv) (h : s.windows.Bounds) :
    (s.setCongestionWindowFromBandwidthAndRtt bits us).windows.Bounds := by
  obtain ⟨hmss, hmax⟩ := resumptionWindow_bounds bits us hi h
  exact { h with
    mss_le_current := hmss
    current_lt := Nat.lt_of_le_of_lt hmax (Nat.lt_add_of_pos_right (by decide)) }

/-- The seed of the exit window, made where the window to start from is two packets or
more. -/
theorem bounds_setMinSlowstartExit (bits us : ℤ) (h : s.windows.Bounds)
    (hinitial : 2 * kDefaultTCPMSS ≤ s.initialTcpCongestionWindow) :
    (s.setMinSlowstartExitWindowFromBandwidthAndRtt bits us).windows.Bounds := by
  have hmss : kDefaultTCPMSS ≤ s.congestionWindow := h.mss_le_current
  have hlt : s.congestionWindow < s.maxCongestionWindow + kDefaultTCPMSS := h.current_lt
  refine { h with mss_le_slowStartExit := ?_, slowStartExit_lt := ?_ }
  · refine Nat.le_min.2 ⟨hmss, Nat.le_trans ?_ (Nat.le_max_left ..)⟩
    show kDefaultTCPMSS ≤ s.initialTcpCongestionWindow / 2
    omega
  · exact Nat.lt_of_le_of_lt (Nat.min_le_left ..) hlt

/-- An option may set the window to at most 50 packets. -/
theorem bounds_setOption (tag : Tag) (h : s.windows.Bounds) :
    (s.setOption B tag).windows.Bounds := by
  have hroom : 200 * 1460 ≤ s.maxCongestionWindow := h.room
  have hpackets : ∀ packets, 1 ≤ packets → packets ≤ 200 →
      (s.setCongestionWindowInPackets packets).windows.Bounds := by
    intro packets hone hle
    refine { h with mss_le_current := ?_, current_lt := ?_ }
    · exact Nat.le_mul_of_pos_left _ hone
    · show packets * 1460 < s.maxCongestionWindow + 1460
      omega
  cases tag with
  | iw03 => exact hpackets 3 (by decide) (by decide)
  | iw10 => exact hpackets 10 (by decide) (by decide)
  | iw20 => exact hpackets 20 (by decide) (by decide)
  | iw50 => exact hpackets 50 (by decide) (by decide)
  | min1 => exact { h with }
  | min4 => exact { h with }
  | sslr | nprr | ccvx | cbqt | blmx | cpau => exact h

/-- A loss among packets sent before the last cutback stops at the exit window. -/
theorem bounds_onLateLoss (hi : s.windows.Inv) (h : s.windows.Bounds) {lostBytes : ℕ}
    (hlost : lostBytes ≤ kMaxPacketSize) : (s.onLateLoss lostBytes).windows.Bounds := by
  have hsub : sub64 s.congestionWindow lostBytes ≤ s.congestionWindow := by
    refine (sub64_le_iff hi.current_lt (Nat.lt_of_le_of_lt hlost (by decide))).2 ?_
    exact Nat.le_trans hlost (Nat.le_trans (by decide) h.mss_le_current)
  rw [windows_onLateLoss]
  split_ifs
  · exact { h with
      mss_le_current := Nat.le_trans h.mss_le_slowStartExit (Nat.le_max_right ..)
      current_lt := Nat.max_lt.2 ⟨Nat.lt_of_le_of_lt hsub h.current_lt, h.slowStartExit_lt⟩ }
  · exact h

/-- A cutback stops at the minimum. -/
theorem bounds_onCutback (hloss : ∀ c w, (B.congestionWindowAfterPacketLoss c w).1 ≤ w)
    (hreno : ∀ n w, B.reno n w ≤ w) (hi : s.windows.Inv) (h : s.windows.Bounds)
    (priorInFlight : ℕ) : (s.onCutback B priorInFlight).windows.Bounds := by
  have hmss : kDefaultTCPMSS ≤ s.congestionWindow := h.mss_le_current
  have hcurrent : s.congestionWindow < s.maxCongestionWindow + kDefaultTCPMSS := h.current_lt
  have hcut : s.cutTo B ≤ s.congestionWindow := by
    unfold cutTo
    split_ifs
    · exact (sub64_le_iff hi.current_lt (by decide)).2 hmss
    · exact hreno _ _
    · exact hloss _ _
  have hminimum : s.minCongestionWindow < s.maxCongestionWindow + kDefaultTCPMSS := by
    have hle : s.minCongestionWindow ≤ s.initialTcpCongestionWindow := hi.minimum_le_initial
    have hroom : s.initialTcpCongestionWindow ≤ s.maxCongestionWindow := h.initial_le
    unfold kDefaultTCPMSS
    omega
  obtain ⟨exit, hw, hexit⟩ := windows_onCutback (B := B) (s := s) priorInFlight
  rw [hw]
  refine { h with
    mss_le_current := Nat.le_trans hi.mss_le_minimum (Nat.le_max_right ..)
    current_lt := Nat.max_lt.2 ⟨Nat.lt_of_le_of_lt hcut hcurrent, hminimum⟩
    mss_le_slowStartExit := ?_
    slowStartExit_lt := ?_ }
  · rcases hexit with rfl | ⟨hdoubled, rfl⟩
    · exact h.mss_le_slowStartExit
    · -- half of the window is not below the window to start from
      have hinitial : kDefaultTCPMSS ≤ s.initialTcpCongestionWindow :=
        Nat.le_trans hi.mss_le_minimum hi.minimum_le_initial
      show kDefaultTCPMSS ≤ s.congestionWindow / 2
      omega
  · rcases hexit with rfl | ⟨-, rfl⟩
    · exact h.slowStartExit_lt
    · exact Nat.lt_of_le_of_lt (Nat.div_le_self ..) hcurrent

/-- An ack adds to a window below the maximum. -/
theorem bounds_onPacketAcked (hack : ∀ c a w d e, w ≤ (B.congestionWindowAfterAck c a w d e).1)
    (h : s.windows.Bounds) (packetNumber ackedBytes priorInFlight : ℕ) (minRtt eventTime : ℤ) :
    (s.onPacketAcked B packetNumber ackedBytes priorInFlight minRtt eventTime).windows.Bounds := by
  have hmss : kDefaultTCPMSS ≤ s.congestionWindow := h.mss_le_current
  rcases windows_onPacketAcked (B := B) (s := s) packetNumber ackedBytes priorInFlight minRtt
    eventTime with hw | ⟨window, hlt, hw, rfl | rfl⟩
  · rw [hw]
    exact h
  · rw [hw]
    exact { h with
      mss_le_current := Nat.le_add_left ..
      current_lt := Nat.add_lt_add_right hlt _ }
  · rw [hw]
    refine { h with
      mss_le_current := Nat.le_min.2 ⟨by omega, Nat.le_trans hmss (hack _ _ _ _ _)⟩
      current_lt := Nat.lt_of_le_of_lt (Nat.min_le_left ..) ?_ }
    exact Nat.lt_add_of_pos_right (by decide)

/-- **One operation after the seed keeps the bounds.** -/
theorem bounds_apply (hack : ∀ c a w d e, w ≤ (B.congestionWindowAfterAck c a w d e).1)
    (hloss : ∀ c w, (B.congestionWindowAfterPacketLoss c w).1 ≤ w) (hreno : ∀ n w, B.reno n w ≤ w)
    (hi : s.windows.Inv) (h : s.windows.Bounds) {op : Op} (hvalid : op.Valid s)
    (hop : ¬ op.Seeds) : (s.apply B op).windows.Bounds := by
  cases op with
  | setInitialCongestionWindow bits us => exact absurd trivial hop
  | setCongestionWindow bits us => exact absurd trivial hop
  | setMinSlowstartExitWindow bits us => exact absurd trivial hop
  | setFromConfig options =>
    exact setFromConfig_rule (P := fun s => s.windows.Bounds)
      (fun _ tag h => bounds_setOption tag h) options h
  | adjustNetworkParameters bits us =>
    rw [apply, adjustNetworkParameters]
    split_ifs
    · exact h
    · exact bounds_setCongestionWindow bits us hi h
  | setNumEmulatedConnections n => exact h
  | packetSent packetNumber bytes isRetransmittable =>
    rw [apply, windows_onPacketSent]
    exact h
  | rttUpdated latestRtt minRtt =>
    rw [apply, windows_onRttUpdated]
    exact h
  | packetLost packetNumber lostBytes priorInFlight =>
    rw [apply, onPacketLost]
    split_ifs
    · exact bounds_onLateLoss hi h hvalid
    · exact bounds_onCutback hloss hreno hi h priorInFlight
  | packetAcked packetNumber ackedBytes priorInFlight minRtt eventTime =>
    exact bounds_onPacketAcked hack h packetNumber ackedBytes priorInFlight minRtt eventTime
  | retransmissionTimeout packetsRetransmitted =>
    cases packetsRetransmitted with
    | false => exact h
    | true =>
      refine { h with mss_le_current := hi.mss_le_minimum, current_lt := ?_ }
      refine Nat.lt_of_le_of_lt (Nat.le_trans hi.minimum_le_initial h.initial_le) ?_
      exact Nat.lt_add_of_pos_right (by decide)
  | connectionMigration =>
    have hmax : s.maxCongestionWindow = s.initialMaxTcpCongestionWindow := h.maximum_eq
    have hbounds : ({ s.windows with current := s.initialTcpCongestionWindow } : Windows).Bounds :=
      { h with
        mss_le_current := Nat.le_trans hi.mss_le_minimum hi.minimum_le_initial
        current_lt := Nat.lt_of_le_of_lt h.initial_le (Nat.lt_add_of_pos_right (by decide)) }
    have hw : (s.onConnectionMigration B).windows =
        { s.windows with current := s.initialTcpCongestionWindow } := by
      simp only [windows, onConnectionMigration, hmax]
    rw [apply, hw]
    exact hbounds

/-- A run without seed keeps the bounds. -/
theorem always_bounds (hack : ∀ c a w d e, w ≤ (B.congestionWindowAfterAck c a w d e).1)
    (hloss : ∀ c w, (B.congestionWindowAfterPacketLoss c w).1 ≤ w) (hreno : ∀ n w, B.reno n w ≤ w)
    (hi : s.windows.Inv) (h : s.windows.Bounds) {ops : List Op} (hops : ∀ op ∈ ops, ¬ op.Seeds) :
    Always (step B) (fun s => s.windows.Inv ∧ s.windows.Bounds) s ops := by
  refine always_of_eachStep (C := fun _ op => ¬ op.Seeds) ?_ ⟨hi, h⟩ ?_
  · rintro s op t ⟨hi, h⟩ hop hstep
    unfold step at hstep
    split_ifs at hstep with hvalid
    obtain rfl := Option.some.inj hstep
    exact ⟨inv_apply op hi, bounds_apply hack hloss hreno hi h hvalid hop⟩
  · intro pre op t hpre _
    exact hops op (hpre.subset (by simp))

/-- **The window stays in its range.**  Built with the default limits, seeded from a
history or not, and with back-offs that do not raise the window at a loss and do not
lower it at an ack, a sender has in every state it reaches a window of at least one
packet and less than one above the maximum, and no loss makes a subtraction wrap. -/
theorem always_inRange (hack : ∀ c a w d e, w ≤ (B.congestionWindowAfterAck c a w d e).1)
    (hloss : ∀ c w, (B.congestionWindowAfterPacketLoss c w).1 ≤ w) (hreno : ∀ n w, B.reno n w ≤ w)
    (reno : Bool) {seed ops : List Op}
    (hseed : seed = [] ∨ ∃ bandwidthMax bandwidthMean rttMax rttMean,
      seed = seeding bandwidthMax bandwidthMean rttMax rttMean)
    (hops : ∀ op ∈ ops, ¬ op.Seeds) :
    Always (step B) InRange (new B reno .default) (seed ++ ops) := by
  have hi₀ := inv_new (B := B) reno .default
  have h₀ := bounds_new (B := B) reno
  refine Always.mono (P := fun s => s.windows.Inv ∧ s.windows.Bounds) ?_
    fun s h => inRange_of_bounds h.2
  rcases hseed with rfl | ⟨bandwidthMax, bandwidthMean, rttMax, rttMean, rfl⟩
  · exact always_bounds hack hloss hreno hi₀ h₀ hops
  · have hi₁ := inv_apply (B := B) (.setInitialCongestionWindow bandwidthMax rttMax) hi₀
    have h₁ := bounds_setInitial bandwidthMax rttMax hi₀ h₀
    have hi₂ := inv_apply (B := B) (.setCongestionWindow bandwidthMax rttMean) hi₁
    have h₂ := bounds_setCongestionWindow bandwidthMax rttMean hi₁ h₁
    have hi₃ := inv_apply (B := B) (.setMinSlowstartExitWindow bandwidthMean rttMean) hi₂
    -- the minimum is still two packets here
    have h₃ := bounds_setMinSlowstartExit bandwidthMean rttMean h₂
      (resumptionWindow_le (s := new B reno .default) bandwidthMax rttMax hi₀).1
    refine always_cons.2 ⟨⟨hi₀, h₀⟩, fun s₁ hs₁ => ?_⟩
    obtain rfl := Option.some.inj hs₁
    refine always_cons.2 ⟨⟨hi₁, h₁⟩, fun s₂ hs₂ => ?_⟩
    obtain rfl := Option.some.inj hs₂
    refine always_cons.2 ⟨⟨hi₂, h₂⟩, fun s₃ hs₃ => ?_⟩
    obtain rfl := Option.some.inj hs₃
    exact always_bounds hack hloss hreno hi₃ h₃ hops

/-- A seeded connection with the smallest minimum, the large reduction, three losses and
a timeout between them. -/
theorem always_inRange_seeded :
    Always (step plainBackoff) InRange (new plainBackoff false .default)
      (seeding 0 0 0 0 ++ [.setFromConfig [.min1, .sslr], .packetSent 1 1452 true,
        .packetSent 2 1452 true, .packetSent 3 1452 true, .packetLost 1 1452 4356,
        .packetLost 2 1452 4356, .retransmissionTimeout true, .packetLost 3 1452 1452]) := by
  refine always_inRange (fun _ _ _ _ _ => Nat.le_refl _) (fun _ => plainBackoff_le)
    (fun _ => plainBackoff_le) false (.inr ⟨0, 0, 0, 0, rfl⟩) ?_
  simp [Op.Seeds]

end TcpCubicSender

end Congestion
end QuicNs3
