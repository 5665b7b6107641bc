/-
# What a loss does to the window

A loss should close the window.  `OnPacketLost` can open it in two ways.  The
per-loss step of the large reduction takes the larger of the reduced window and
`min_slow_start_exit_window_`, and that may be left over from before a timeout or a
migration, or have been seeded, and be far above the window in use.  A cutback
raises a window below the minimum to the minimum.

`onPacketLost_le_iff` says exactly when a loss leaves the window no larger.
`exists_onPacketLost_gt` is a connection that has its window raised from 2 to 200
packets by a loss after a timeout.
-/

import QuicNs3.Congestion.Windows

namespace QuicNs3
namespace Congestion
namespace TcpCubicSender

open Lib

variable {σ : Type} {B : Backoff σ} {s : TcpCubicSender σ}

/-- The state before a loss that does not open the window.  The per-loss step of the
large reduction needs a window not below the lost bytes and the exit window, a
cutback one not below the minimum. -/
def LossCloses (s : TcpCubicSender σ) (packetNumber lostBytes : ℕ) : Prop :=
  (packetNumber ≤ s.largestSentAtLastCutback →
    s.lastCutbackExitedSlowstart ∧ s.slowStartLargeReduction →
      lostBytes ≤ s.congestionWindow ∧ s.minSlowStartExitWindow ≤ s.congestionWindow) ∧
  (s.largestSentAtLastCutback < packetNumber → s.minCongestionWindow ≤ s.congestionWindow)

instance (s : TcpCubicSender σ) (packetNumber lostBytes : ℕ) :
    Decidable (s.LossCloses packetNumber lostBytes) :=
  inferInstanceAs (Decidable ((_ → _ → _) ∧ (_ → _)))

/-- A difference that wraps is larger than what it was taken from. -/
theorem sub64_le_iff {a b : ℕ} (ha : a < 2 ^ 64) (hb : b < 2 ^ 64) : sub64 a b ≤ a ↔ b ≤ a := by
  unfold sub64
  constructor
  · intro h
    by_contra hlt
    rw [Nat.mod_eq_of_lt (by omega)] at h
    omega
  · intro h
    rw [show a + 2 ^ 64 - b = a - b + 2 ^ 64 by omega, Nat.add_mod_right]
    exact Nat.le_trans (Nat.mod_le _ _) (Nat.sub_le _ _)

/-- The per-loss step. -/
theorem onLateLoss_le_iff (h : s.windows.Inv) {lostBytes : ℕ} (hlost : lostBytes ≤ kMaxPacketSize) :
    (s.onLateLoss lostBytes).congestionWindow ≤ s.congestionWindow ↔
      (s.lastCutbackExitedSlowstart ∧ s.slowStartLargeReduction →
        lostBytes ≤ s.congestionWindow ∧ s.minSlowStartExitWindow ≤ s.congestionWindow) := by
  have hcurrent : s.congestionWindow < 2 ^ 64 := h.current_lt
  have hbytes : lostBytes < 2 ^ 64 := Nat.lt_of_le_of_lt hlost (by decide)
  change (s.onLateLoss lostBytes).windows.current ≤ _ ↔ _
  rw [windows_onLateLoss]
  split_ifs with hlarge
  · simp only [Nat.max_le, sub64_le_iff hcurrent hbytes, hlarge, and_self, true_imp_iff]
  · exact ⟨fun _ hl => absurd hl hlarge, fun _ => Nat.le_refl _⟩

/-- A cutback aims below the window if that is at least the minimum. -/
theorem cutTo_le (h : s.windows.Inv)
    (hloss : ∀ c w, (B.congestionWindowAfterPacketLoss c w).1 ≤ w) (hreno : ∀ n w, B.reno n w ≤ w)
    (hmin : s.minCongestionWindow ≤ s.congestionWindow) : s.cutTo B ≤ s.congestionWindow := by
  unfold cutTo
  split_ifs
  · exact (sub64_le_iff h.current_lt (by decide)).2 (Nat.le_trans h.mss_le_minimum hmin)
  · exact hreno _ _
  · exact hloss _ _

/-- A cutback. -/
theorem onCutback_le_iff (h : s.windows.Inv)
    (hloss : ∀ c w, (B.congestionWindowAfterPacketLoss c w).1 ≤ w) (hreno : ∀ n w, B.reno n w ≤ w)
    (priorInFlight : ℕ) :
    (s.onCutback B priorInFlight).congestionWindow ≤ s.congestionWindow ↔
      s.minCongestionWindow ≤ s.congestionWindow := by
  obtain ⟨exit, hw, -⟩ := windows_onCutback (B := B) (s := s) priorInFlight
  change (s.onCutback B priorInFlight).windows.current ≤ _ ↔ _
  rw [hw, Nat.max_le]
  exact ⟨fun hle => hle.2, fun hmin => ⟨cutTo_le h hloss hreno hmin, hmin⟩⟩

/-- **When a loss leaves the window no larger.**  In every state a run from the
constructor reaches, with back-offs that do not raise the window they are given, it
does so exactly if `LossCloses` holds in the state before. -/
theorem onPacketLost_le_iff (hloss : ∀ c w, (B.congestionWindowAfterPacketLoss c w).1 ≤ w)
    (hreno : ∀ n w, B.reno n w ≤ w) {reno : Bool} {limits : Limits} {ops : List Op}
    (hr : run (step B) (new B reno limits) ops = some s) {lostBytes : ℕ}
    (hlost : lostBytes ≤ kMaxPacketSize) (packetNumber priorInFlight : ℕ) :
    (s.onPacketLost B packetNumber lostBytes priorInFlight).congestionWindow ≤ s.congestionWindow ↔
      s.LossCloses packetNumber lostBytes := by
  have h := inv_run hr
  unfold onPacketLost LossCloses
  split_ifs with hlate
  · rw [onLateLoss_le_iff h hlost]
    exact ⟨fun hle => ⟨fun _ => hle, fun hlt => absurd hlate (Nat.not_le.2 hlt)⟩,
      fun hle => hle.1 hlate⟩
  · rw [onCutback_le_iff h hloss hreno priorInFlight]
    exact ⟨fun hle => ⟨fun hlate' => absurd hlate' hlate, fun _ => hle⟩,
      fun hle => hle.2 (Nat.not_le.1 hlate)⟩

/-- A back-off without a state: CUBIC keeps `85%` of the window at a loss and nothing
changes it at an ack, Reno with its two connections keeps `85%` too. -/
def plainBackoff : Backoff Unit where
  init := ()
  setNumConnections _ _ := ()
  resetCubicState _ := ()
  congestionWindowAfterPacketLoss _ w := (w % 2 ^ 64 * 85 / 100, ())
  congestionWindowAfterAck _ _ w _ _ := (w, ())
  onApplicationLimited _ := ()
  setFixConvexMode _ := ()
  setFixCubicQuantization _ := ()
  setFixBetaLastMax _ := ()
  setAllowPerAckUpdates _ := ()
  reno _ w := w % 2 ^ 64 * 85 / 100
  congestionWindowAfterPacketLoss_lt _ w := by
    have : w % 2 ^ 64 < 2 ^ 64 := Nat.mod_lt _ (by decide)
    dsimp only; omega
  reno_lt _ w := by
    have : w % 2 ^ 64 < 2 ^ 64 := Nat.mod_lt _ (by decide)
    omega

theorem plainBackoff_le (w : ℕ) : w % 2 ^ 64 * 85 / 100 ≤ w := by
  have : w % 2 ^ 64 ≤ w := Nat.mod_le _ _
  omega

/-- The first loss closes the window to `85%`. -/
theorem onPacketLost_le_first_loss :
    ∃ s, run (step plainBackoff) (new plainBackoff true .default) [.packetSent 1 1400 true] =
        some s ∧
      (s.onPacketLost plainBackoff 1 1400 2800).congestionWindow ≤ s.congestionWindow := by
  have hr : run (step plainBackoff) (new plainBackoff true .default) [.packetSent 1 1400 true] =
      some ((new plainBackoff true .default).onPacketSent 1 1400 true) := rfl
  refine ⟨_, hr, ?_⟩
  exact (onPacketLost_le_iff (fun _ => plainBackoff_le) (fun _ => plainBackoff_le) hr (by decide)
    1 2800).2 (by decide)

/-- **A loss can open the window.**  The history of the client gives a window of `200`
packets, also for the exit from slow start, and the client asks for the large
reduction.  After a timeout the window is `2` packets.  The first loss keeps it there
and the second raises it to `200`. -/
theorem exists_onPacketLost_gt :
    ∃ s, run (step plainBackoff) (new plainBackoff false .default)
        [.setInitialCongestionWindow 80000000 100000, .setCongestionWindow 80000000 100000,
          .setMinSlowstartExitWindow 80000000 100000, .setFromConfig [.sslr],
          .packetSent 1 1452 true, .packetSent 2 1452 true, .retransmissionTimeout true,
          .packetSent 3 1452 true, .packetLost 1 1452 4356] = some s ∧
      s.congestionWindow = 2920 ∧
      (s.onPacketLost plainBackoff 2 1452 4356).congestionWindow = 292000 := by
  exact ⟨_, rfl, by decide, by decide⟩

end TcpCubicSender
end Congestion
end QuicNs3
