/-
# The window and its minimum

Every operation that sets the window keeps it above `min_congestion_window_`, with
one exception: the per-loss step of the large reduction stops at
`min_slow_start_exit_window_` instead.  The constructor and slow start keep that
above the minimum, but the seed from the history of the client may put it at half of
the window to start from, which is below the minimum if that window is small.

`always_minimum_iff` says which runs keep the window above its minimum throughout,
and `exists_run_below_minimum` is one that does not.
-/

import QuicNs3.Congestion.Loss

namespace QuicNs3
namespace Congestion
namespace TcpCubicSender

open Lib

variable {σ : Type} {B : Backoff σ} {s : TcpCubicSender σ}

/-- The window is not below the minimum. -/
def AboveMinimum (s : TcpCubicSender σ) : Prop := s.minCongestionWindow ≤ s.congestionWindow

/-- A loss that takes the per-loss step of the large reduction finds the exit window
not below the minimum, or a window that is above it by the lost bytes. -/
def StopsAtMinimum (s : TcpCubicSender σ) : Op → Prop
  | .packetLost packetNumber lostBytes _ =>
    packetNumber ≤ s.largestSentAtLastCutback →
      s.lastCutbackExitedSlowstart ∧ s.slowStartLargeReduction →
        s.minCongestionWindow ≤ s.minSlowStartExitWindow ∨
          s.minCongestionWindow + lostBytes ≤ s.congestionWindow
  | _ => True

instance (s : TcpCubicSender σ) : (op : Op) → Decidable (s.StopsAtMinimum op)
  | .packetLost _ _ _ => inferInstanceAs (Decidable (_ → _ → _))
  | .setInitialCongestionWindow _ _ | .setCongestionWindow _ _ | .setMinSlowstartExitWindow _ _
  | .setFromConfig _ | .adjustNetworkParameters _ _ | .setNumEmulatedConnections _
  | .packetSent _ _ _ | .rttUpdated _ _ | .packetAcked _ _ _ _ _ | .retransmissionTimeout _
  | .connectionMigration => .isTrue trivial

/-- The per-loss step. -/
theorem aboveMinimum_onLateLoss_iff (h : s.windows.Inv) (hs : s.AboveMinimum) {lostBytes : ℕ}
    (hlost : lostBytes ≤ kMaxPacketSize) :
    (s.onLateLoss lostBytes).AboveMinimum ↔
      (s.lastCutbackExitedSlowstart ∧ s.slowStartLargeReduction →
        s.minCongestionWindow ≤ s.minSlowStartExitWindow ∨
          s.minCongestionWindow + lostBytes ≤ s.congestionWindow) := by
  have hmss : kDefaultTCPMSS ≤ s.minCongestionWindow := h.mss_le_minimum
  have hcurrent : s.congestionWindow < 2 ^ 64 := h.current_lt
  -- a packet is smaller than the minimum, so the difference does not wrap
  have hsub : sub64 s.congestionWindow lostBytes = s.congestionWindow - lostBytes := by
    unfold AboveMinimum at hs
    unfold kDefaultTCPMSS at hmss
    unfold kMaxPacketSize at hlost
    unfold sub64
    omega
  change (s.onLateLoss lostBytes).windows.minimum ≤ (s.onLateLoss lostBytes).windows.current ↔ _
  rw [windows_onLateLoss]
  split_ifs with hlarge
  · show s.minCongestionWindow ≤ max (sub64 s.congestionWindow lostBytes)
      s.minSlowStartExitWindow ↔ _
    unfold AboveMinimum at hs
    rw [hsub]
    simp only [hlarge, and_self, true_imp_iff]
    omega
  · exact ⟨fun _ hl => absurd hl hlarge, fun _ => hs⟩

/-- An operation that is no loss keeps the window above the minimum. -/
theorem aboveMinimum_apply (hack : ∀ c a w d e, w ≤ (B.congestionWindowAfterAck c a w d e).1)
    (h : s.windows.Inv) (hs : s.AboveMinimum) (op : Op)
    (hop : ∀ packetNumber lostBytes priorInFlight,
      op ≠ .packetLost packetNumber lostBytes priorInFlight) : (s.apply B op).AboveMinimum := by
  cases op with
  | setInitialCongestionWindow bits us => exact hs
  | setCongestionWindow bits us => exact (resumptionWindow_le bits us h).1
  | setMinSlowstartExitWindow bits us => exact hs
  | setFromConfig options =>
    have hboth := setFromConfig_rule (B := B)
      (P := fun s => s.windows.Inv ∧ s.minCongestionWindow ≤ s.congestionWindow)
      (fun _ tag h => ⟨(inv_setOption tag h.1).1, (inv_setOption tag h.1).2 h.2⟩) options ⟨h, hs⟩
    exact hboth.2
  | adjustNetworkParameters bits us =>
    rw [apply, adjustNetworkParameters]
    split_ifs
    · exact hs
    · exact (resumptionWindow_le bits us h).1
  | setNumEmulatedConnections n => exact hs
  | packetSent packetNumber bytes isRetransmittable =>
    have hw := windows_onPacketSent (s := s) packetNumber bytes isRetransmittable
    change (s.onPacketSent packetNumber bytes isRetransmittable).windows.minimum ≤
      (s.onPacketSent packetNumber bytes isRetransmittable).windows.current
    rw [hw]
    exact hs
  | rttUpdated latestRtt minRtt =>
    have hw := windows_onRttUpdated (s := s) latestRtt minRtt
    change (s.onRttUpdated latestRtt minRtt).windows.minimum ≤
      (s.onRttUpdated latestRtt minRtt).windows.current
    rw [hw]
    exact hs
  | packetLost packetNumber lostBytes priorInFlight => exact absurd rfl (hop _ _ _)
  | packetAcked packetNumber ackedBytes priorInFlight minRtt eventTime =>
    change (s.onPacketAcked B packetNumber ackedBytes priorInFlight minRtt
      eventTime).windows.minimum ≤ (s.onPacketAcked B packetNumber ackedBytes priorInFlight minRtt
      eventTime).windows.current
    rcases windows_onPacketAcked (B := B) (s := s) packetNumber ackedBytes priorInFlight minRtt
      eventTime with hw | ⟨window, hlt, hw, rfl | rfl⟩
    · rw [hw]
      exact hs
    · rw [hw]
      exact Nat.le_trans hs (Nat.le_add_right ..)
    · rw [hw]
      refine Nat.le_min.2 ⟨Nat.le_of_lt (Nat.lt_of_le_of_lt hs hlt), ?_⟩
      exact Nat.le_trans hs (hack _ _ _ _ _)
  | retransmissionTimeout packetsRetransmitted =>
    cases packetsRetransmitted with
    | false => exact hs
    | true => exact Nat.le_refl _
  | connectionMigration => exact h.minimum_le_initial

/-- **One step.**  It keeps the window above the minimum exactly if a loss stops there. -/
theorem aboveMinimum_step (hack : ∀ c a w d e, w ≤ (B.congestionWindowAfterAck c a w d e).1)
    (s : TcpCubicSender σ) (op : Op) (t : TcpCubicSender σ) (h : s.windows.Inv)
    (hs : s.AboveMinimum) (hstep : s.step B op = some t) :
    t.AboveMinimum ↔ s.StopsAtMinimum op := by
  unfold step at hstep
  split_ifs at hstep with hvalid
  obtain rfl := Option.some.inj hstep
  cases op with
  | packetLost packetNumber lostBytes priorInFlight =>
    change (s.onPacketLost B packetNumber lostBytes priorInFlight).AboveMinimum ↔
      (packetNumber ≤ s.largestSentAtLastCutback → _)
    unfold onPacketLost
    split_ifs with hlate
    · rw [aboveMinimum_onLateLoss_iff h hs hvalid]
      exact ⟨fun hle _ => hle, fun hle => hle hlate⟩
    · obtain ⟨exit, hw, -⟩ := windows_onCutback (B := B) (s := s) priorInFlight
      refine ⟨fun _ hlate' => absurd hlate' hlate, fun _ => ?_⟩
      change (s.onCutback B priorInFlight).windows.minimum ≤
        (s.onCutback B priorInFlight).windows.current
      rw [hw]
      exact Nat.le_max_right ..
  | _ => exact ⟨fun _ => trivial, fun _ => aboveMinimum_apply hack h hs _ (by simp)⟩

/-- **Which runs keep the window above its minimum.**  With a CUBIC that does not lower
the window at an ack, exactly those in which every loss stops there. -/
theorem always_minimum_iff (hack : ∀ c a w d e, w ≤ (B.congestionWindowAfterAck c a w d e).1)
    {reno : Bool} {limits : Limits} {ops : List Op}
    (hr : run (step B) (new B reno limits) ops = some s) :
    Always (step B) AboveMinimum (new B reno limits) ops ↔
      EachStep (step B) StopsAtMinimum (new B reno limits) ops := by
  have hinv : (new B reno limits).windows.Inv := inv_new reno limits
  have hnew : (new B reno limits).AboveMinimum := hinv.minimum_le_initial
  exact always_iff_eachStep (I := fun s => s.windows.Inv) inv_step (aboveMinimum_step hack)
    hinv hnew hr

/-- A connection without a seed, with the large reduction and two losses. -/
theorem always_minimum_unseeded :
    Always (step plainBackoff) AboveMinimum (new plainBackoff false .default)
      [.setFromConfig [.sslr], .packetSent 1 1452 true, .packetSent 2 1452 true,
        .packetLost 1 1452 2904, .packetLost 2 1452 2904] := by
  exact (always_minimum_iff (fun _ _ _ _ _ => Nat.le_refl _) rfl).2 (by decide)

/-- **A seed can let the window fall below its minimum.**  An empty history gives the
smallest window to start from, two packets, and half of it to exit slow start with.
The second loss then leaves little more than one packet. -/
theorem exists_run_below_minimum :
    ∃ s, run (step plainBackoff) (new plainBackoff false .default)
        [.setInitialCongestionWindow 0 0, .setCongestionWindow 0 0,
          .setMinSlowstartExitWindow 0 0, .setFromConfig [.sslr], .packetSent 1 1452 true,
          .packetSent 2 1452 true, .packetLost 1 1452 2904, .packetLost 2 1452 2904] = some s ∧
      s.congestionWindow = 1468 ∧ s.minCongestionWindow = 2920 := by
  exact ⟨_, rfl, by decide, by decide⟩

end TcpCubicSender
end Congestion
end QuicNs3
