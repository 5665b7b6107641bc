/-
# The windows of a sender

Six of the data members are windows.  `Windows` is that part of the state, and one
lemma for each operation says what it does to it (`windows_onPacketAcked` and the
others); most operations leave it alone.

`Inv` is what holds of the windows in every run: the minimum is one or two packets,
the window to start from is not below it, and no window leaves the range of a
`uint64_t`, although the one in use may come close to its end.
-/

import QuicNs3.Congestion.Basic

namespace QuicNs3
namespace Congestion

open Lib

/-- The windows among the data members. -/
structure Windows where
  current : ℕ
  minimum : ℕ
  maximum : ℕ
  initial : ℕ
  initialMaximum : ℕ
  slowStartExit : ℕ

namespace TcpCubicSender

variable {σ : Type} {B : Backoff σ} {s : TcpCubicSender σ}

/-- The windows of a sender. -/
def windows (s : TcpCubicSender σ) : Windows where
  current := s.congestionWindow
  minimum := s.minCongestionWindow
  maximum := s.maxCongestionWindow
  initial := s.initialTcpCongestionWindow
  initialMaximum := s.initialMaxTcpCongestionWindow
  slowStartExit := s.minSlowStartExitWindow

theorem windows_onPacketSent (packetNumber bytes : ℕ) (isRetransmittable : Bool) :
    (s.onPacketSent packetNumber bytes isRetransmittable).windows = s.windows := by
  unfold onPacketSent
  dsimp only
  split_ifs <;> rfl

theorem windows_onRttUpdated (latestRtt minRtt : ℤ) :
    (s.onRttUpdated latestRtt minRtt).windows = s.windows := by
  unfold onRttUpdated
  split_ifs
  · dsimp only
    split_ifs <;> rfl
  · rfl

/-- An ack leaves the window alone, adds a packet or takes what CUBIC gives, and only
while the window is below the maximum. -/
theorem windows_onPacketAcked (packetNumber ackedBytes priorInFlight : ℕ) (minRtt eventTime : ℤ) :
    (s.onPacketAcked B packetNumber ackedBytes priorInFlight minRtt eventTime).windows = s.windows ∨
    ∃ window, s.congestionWindow < s.maxCongestionWindow ∧
      (s.onPacketAcked B packetNumber ackedBytes priorInFlight minRtt eventTime).windows =
        { s.windows with current := window } ∧
      (window = s.congestionWindow + kDefaultTCPMSS ∨
        window = min s.maxCongestionWindow (B.congestionWindowAfterAck s.cubic ackedBytes
          s.congestionWindow minRtt eventTime).1) := by
  have hcwnd : ∀ t : TcpCubicSender σ, (t.maybeIncreaseCwnd B ackedBytes priorInFlight minRtt
      eventTime).windows = t.windows ∨
      ∃ window, t.congestionWindow < t.maxCongestionWindow ∧
        (t.maybeIncreaseCwnd B ackedBytes priorInFlight minRtt eventTime).windows =
          { t.windows with current := window } ∧
        (window = t.congestionWindow + kDefaultTCPMSS ∨
          window = min t.maxCongestionWindow (B.congestionWindowAfterAck t.cubic ackedBytes
            t.congestionWindow minRtt eventTime).1) := by
    intro t
    unfold maybeIncreaseCwnd
    split_ifs with _ hmax
    · exact .inl rfl
    · exact .inr ⟨_, Nat.lt_of_not_le hmax, rfl, .inl rfl⟩
    · exact .inr ⟨_, Nat.lt_of_not_le hmax, rfl, .inl rfl⟩
    · exact .inl rfl
    · exact .inr ⟨_, Nat.lt_of_not_le hmax, rfl, .inr rfl⟩
    · exact .inl rfl
  -- the rest of the function changes no window
  have hacked := hcwnd
    { s with largestAckedPacketNumber := max packetNumber s.largestAckedPacketNumber }
  unfold onPacketAcked
  dsimp only
  split_ifs
  · exact .inl rfl
  · exact .inl rfl
  · exact hacked
  · exact hacked

/-- A loss among packets sent before the last cutback moves the window only with the
large reduction. -/
theorem windows_onLateLoss (lostBytes : ℕ) :
    (s.onLateLoss lostBytes).windows =
      if s.lastCutbackExitedSlowstart ∧ s.slowStartLargeReduction then
        { s.windows with
          current := max (sub64 s.congestionWindow lostBytes) s.minSlowStartExitWindow }
      else s.windows := by
  unfold onLateLoss
  cases h₁ : s.lastCutbackExitedSlowstart with
  | false => simp
  | true =>
    cases h₂ : s.slowStartLargeReduction with
    | false => simp [windows]
    | true => simp [windows]

/-- The window a cutback aims at. -/
def cutTo (B : Backoff σ) (s : TcpCubicSender σ) : ℕ :=
  if s.slowStartLargeReduction ∧ s.inSlowStart then sub64 s.congestionWindow kDefaultTCPMSS
  else if s.reno then B.reno s.numConnections s.congestionWindow
  else (B.congestionWindowAfterPacketLoss s.cubic s.congestionWindow).1

/-- A cutback goes there, but not below the minimum.  It may set the exit window to half
of a window that has doubled since the start. -/
theorem windows_onCutback (priorInFlight : ℕ) :
    ∃ exit, (s.onCutback B priorInFlight).windows =
        { s.windows with current := max (s.cutTo B) s.minCongestionWindow, slowStartExit := exit } ∧
      (exit = s.minSlowStartExitWindow ∨
        (2 * s.initialTcpCongestionWindow ≤ s.congestionWindow ∧
          exit = s.congestionWindow / 2)) := by
  have hcut : ∀ t : TcpCubicSender σ, ∃ exit, (t.cutWindow B).windows =
        { t.windows with current := t.cutTo B, slowStartExit := exit } ∧
      (exit = t.minSlowStartExitWindow ∨
        (2 * t.initialTcpCongestionWindow ≤ t.congestionWindow ∧
          exit = t.congestionWindow / 2)) := by
    intro t
    unfold cutWindow cutTo
    split_ifs with _ hdoubled
    · exact ⟨_, rfl, .inr ⟨hdoubled, rfl⟩⟩
    · exact ⟨_, rfl, .inl rfl⟩
    · exact ⟨_, rfl, .inl rfl⟩
    · exact ⟨_, rfl, .inl rfl⟩
  obtain ⟨exit, hexit, hcases⟩ := hcut { s with
    stats.tcpLossEvents := s.stats.tcpLossEvents + 1
    lastCutbackExitedSlowstart := s.inSlowStart
    stats.slowstartPacketsLost :=
      if s.inSlowStart then s.stats.slowstartPacketsLost + 1 else s.stats.slowstartPacketsLost
    prr := if s.noPrr then s.prr else PrrSender.onPacketLost priorInFlight }
  refine ⟨exit, ?_, hcases⟩
  simp only [windows, Windows.mk.injEq] at hexit ⊢
  simp only [onCutback, hexit, cutTo, and_self]
  trivial

end TcpCubicSender

/-- What holds of the windows in every run. -/
structure Windows.Inv (w : Windows) : Prop where
  mss_le_minimum : kDefaultTCPMSS ≤ w.minimum
  minimum_le : w.minimum ≤ kDefaultMinimumCongestionWindow
  minimum_le_initial : w.minimum ≤ w.initial
  current_lt : w.current < 2 ^ 64
  initial_lt : w.initial < 2 ^ 64
  slowStartExit_lt : w.slowStartExit < 2 ^ 64
  maximum_lt : w.maximum < 2 ^ 63
  initialMaximum_lt : w.initialMaximum < 2 ^ 63

namespace TcpCubicSender

variable {σ : Type} {B : Backoff σ} {s t : TcpCubicSender σ}

theorem sub64_lt (a b : ℕ) : sub64 a b < 2 ^ 64 := Nat.mod_lt _ (by decide)

theorem cutTo_lt : s.cutTo B < 2 ^ 64 := by
  unfold cutTo
  split_ifs
  · exact sub64_lt _ _
  · exact B.reno_lt _ _
  · exact B.congestionWindowAfterPacketLoss_lt _ _

theorem resumptionWindow_le (bits us : ℤ) (h : s.windows.Inv) :
    s.minCongestionWindow ≤ s.resumptionWindow bits us ∧ s.resumptionWindow bits us < 2 ^ 64 := by
  have hmin : s.minCongestionWindow ≤ 2 * 1460 := h.minimum_le
  unfold resumptionWindow kMaxResumptionCongestionWindow kDefaultTCPMSS
  omega

theorem inv_new (reno : Bool) (limits : Limits) : (new B reno limits).windows.Inv := by
  have h₁ := limits.two_le_initial
  have h₂ := limits.initial_lt
  have h₃ := limits.max_lt
  constructor <;>
    simp only [windows, new, kDefaultMinimumCongestionWindow, kDefaultTCPMSS] <;> omega

/-- An option keeps the windows in order, and the window above the minimum. -/
theorem inv_setOption (tag : Tag) (h : s.windows.Inv) :
    (s.setOption B tag).windows.Inv ∧
      (s.minCongestionWindow ≤ s.congestionWindow →
        (s.setOption B tag).minCongestionWindow ≤ (s.setOption B tag).congestionWindow) := by
  obtain ⟨h₁, h₂, h₃, h₄, h₅, h₆, h₇, h₈⟩ := h
  simp only [windows, kDefaultMinimumCongestionWindow, kDefaultTCPMSS] at h₁ h₂ h₃ h₄ h₅ h₆ h₇ h₈
  cases tag <;>
    refine ⟨⟨?_, ?_, ?_, ?_, ?_, ?_, ?_, ?_⟩, fun hle => ?_⟩ <;>
    simp only [windows, setOption, setCongestionWindowInPackets, setMinCongestionWindowInPackets,
      kDefaultMinimumCongestionWindow, kDefaultTCPMSS] <;> omega

/-- What every option keeps, `SetFromConfig` keeps. -/
theorem setFromConfig_rule {P : TcpCubicSender σ → Prop}
    (hP : ∀ s tag, P s → P (s.setOption B tag)) (options : List Tag) (h : P s) :
    P (s.setFromConfig B options) := by
  unfold setFromConfig
  generalize [Tag.iw03, .iw10, .iw20, .iw50, .min1, .min4, .sslr, .nprr, .ccvx, .cbqt, .blmx,
    .cpau] = tags
  induction tags generalizing s with
  | nil => exact h
  | cons tag tags ih =>
    rw [List.foldl_cons]
    split_ifs
    · exact ih (hP s tag h)
    · exact ih h

theorem inv_setFromConfig (options : List Tag) (h : s.windows.Inv) :
    (s.setFromConfig B options).windows.Inv :=
  setFromConfig_rule (P := fun s => s.windows.Inv) (fun _ tag h => (inv_setOption tag h).1)
    options h

/-- **The windows stay in order, whatever happens.** -/
theorem inv_apply (op : Op) (h : s.windows.Inv) : (s.apply B op).windows.Inv := by
  cases op with
  | setInitialCongestionWindow bits us =>
    have := resumptionWindow_le bits us h
    exact { h with minimum_le_initial := this.1, initial_lt := this.2 }
  | setCongestionWindow bits us =>
    exact { h with current_lt := (resumptionWindow_le bits us h).2 }
  | setMinSlowstartExitWindow bits us =>
    exact { h with slowStartExit_lt := Nat.lt_of_le_of_lt (Nat.min_le_left ..) h.current_lt }
  | setFromConfig options => exact inv_setFromConfig options h
  | adjustNetworkParameters bits us =>
    rw [apply, adjustNetworkParameters]
    split_ifs
    · exact h
    · exact { h with current_lt := (resumptionWindow_le bits us h).2 }
  | setNumEmulatedConnections n => exact h
  | packetSent packetNumber bytes isRetransmittable =>
    rw [apply, windows_onPacketSent]
    exact h
  | rttUpdated latestRtt minRtt =>
    rw [apply, windows_onRttUpdated]
    exact h
  | packetLost packetNumber lostBytes priorInFlight =>
    rw [apply, onPacketLost]
    split_ifs
    · rw [windows_onLateLoss]
      split_ifs
      · exact { h with current_lt := Nat.max_lt.2 ⟨sub64_lt _ _, h.slowStartExit_lt⟩ }
      · exact h
    · obtain ⟨exit, hw, hexit⟩ := windows_onCutback (B := B) (s := s) priorInFlight
      have hmin : s.minCongestionWindow < 2 ^ 64 :=
        Nat.lt_of_le_of_lt h.minimum_le (by decide)
      rw [hw]
      refine { h with
        current_lt := Nat.max_lt.2 ⟨cutTo_lt, hmin⟩
        slowStartExit_lt := ?_ }
      rcases hexit with rfl | ⟨-, rfl⟩
      · exact h.slowStartExit_lt
      · exact Nat.lt_of_le_of_lt (Nat.div_le_self ..) h.current_lt
  | packetAcked packetNumber ackedBytes priorInFlight minRtt eventTime =>
    have hmax : s.maxCongestionWindow < 2 ^ 63 := h.maximum_lt
    rw [apply]
    rcases windows_onPacketAcked (B := B) (s := s) packetNumber ackedBytes priorInFlight minRtt
      eventTime with hw | ⟨window, hlt, hw, rfl | rfl⟩
    · rw [hw]
      exact h
    · rw [hw]
      exact { h with current_lt := by simp only [kDefaultTCPMSS]; omega }
    · rw [hw]
      exact { h with current_lt := Nat.lt_of_le_of_lt (Nat.min_le_left ..) (by omega) }
  | retransmissionTimeout packetsRetransmitted =>
    cases packetsRetransmitted with
    | false => exact h
    | true => exact { h with current_lt := Nat.lt_of_le_of_lt h.minimum_le (by decide) }
  | connectionMigration =>
    exact { h with current_lt := h.initial_lt, maximum_lt := h.initialMaximum_lt }

theorem inv_step (s : TcpCubicSender σ) (op : Op) (t : TcpCubicSender σ) (h : s.windows.Inv)
    (hstep : s.step B op = some t) : t.windows.Inv := by
  unfold step at hstep
  split_ifs at hstep
  · exact Option.some.inj hstep ▸ inv_apply op h

/-- The windows of every state that a run from the constructor reaches. -/
theorem inv_run {reno : Bool} {limits : Limits} {ops : List Op}
    (hr : run (step B) (new B reno limits) ops = some s) : s.windows.Inv :=
  run_invariant (P := fun s => s.windows.Inv) (inv_step (B := B)) (inv_new reno limits) hr

end TcpCubicSender

end Congestion
end QuicNs3
