/-
# `CubicBytes`

Model of `net/quic/core/congestion_control/cubic_bytes.cc`, which computes the window of
a `TcpCubicSenderBytes` after a loss and after an ack outside slow start.

What is computed in floats is a parameter (`Floats`): the back-off factors, which depend
on the number of emulated connections, the growth of the window of an emulated TCP, and
the cube root.  The cubic itself is in integers of 64 bits, signed and unsigned as in the
source; it wraps where they do.
-/

import QuicNs3.Congestion.Basic

namespace QuicNs3
namespace Congestion

/-- The arithmetic on floats, with results that are converted to integers. -/
structure Floats where
  /-- `window * Beta()`, for a number of connections and a window. -/
  timesBeta : ℕ → ℕ → ℕ
  /-- `BetaLastMax() * window`, with or without `fix_beta_last_max_`. -/
  timesBetaLastMax : Bool → ℕ → ℕ → ℕ
  cbrt : ℕ → ℕ
  /-- The window of the emulated TCP, for a number of connections, the bytes acked and
  the window before. -/
  growTcpWindow : ℕ → ℕ → ℕ → ℕ
  /-- `window * RenoBeta()`. -/
  timesRenoBeta : ℕ → ℕ → ℕ
  timesBeta_lt : ∀ n w, timesBeta n w < 2 ^ 64
  timesRenoBeta_lt : ∀ n w, timesRenoBeta n w < 2 ^ 64

/-- The arithmetic without rounding, for tests. -/
def Floats.exact : Floats where
  timesBeta n w := w * (10 * n - 3) / (10 * n) % 2 ^ 64
  timesBetaLastMax fix n w := if fix then w * (100 * n - 15) / (100 * n) else w * 85 / 100
  cbrt n := ((List.range (n + 1)).filter fun k => k ^ 3 ≤ n).length - 1
  growTcpWindow n acked window :=
    window + acked * (9 * n * n * kDefaultTCPMSS) / ((20 * n - 3) * window)
  timesRenoBeta n w := w * (10 * n - 3) / (10 * n) % 2 ^ 64
  timesBeta_lt _ _ := Nat.mod_lt _ (by decide)
  timesRenoBeta_lt _ _ := Nat.mod_lt _ (by decide)

def kCubeScale : ℕ := 40

def kCubeCongestionWindowScale : ℕ := 410

def kCubeFactor : ℕ := 2 ^ kCubeScale / kCubeCongestionWindowScale / kDefaultTCPMSS

/-- `MaxCubicTimeInterval`. -/
def maxCubicTimeInterval : ℤ := 30 * 1000

/-- `CubicBytes`; times are in microseconds. -/
structure CubicBytes where
  numConnections : ℕ
  epoch : ℤ
  lastUpdateTime : ℤ
  lastCongestionWindow : ℕ
  lastMaxCongestionWindow : ℕ
  ackedBytesCount : ℕ
  estimatedTcpCongestionWindow : ℕ
  originPointCongestionWindow : ℕ
  timeToOriginPoint : ℕ
  lastTargetCongestionWindow : ℕ
  fixConvexMode : Bool
  fixCubicQuantization : Bool
  fixBetaLastMax : Bool
  allowPerAckUpdates : Bool
deriving DecidableEq, Repr

namespace CubicBytes

def resetCubicState (c : CubicBytes) : CubicBytes :=
  { c with
    epoch := 0
    lastUpdateTime := 0
    lastCongestionWindow := 0
    lastMaxCongestionWindow := 0
    ackedBytesCount := 0
    estimatedTcpCongestionWindow := 0
    originPointCongestionWindow := 0
    timeToOriginPoint := 0
    lastTargetCongestionWindow := 0 }

/-- The constructor. -/
def new : CubicBytes := ⟨2, 0, 0, 0, 0, 0, 0, 0, 0, 0, false, false, false, false⟩

def onApplicationLimited (c : CubicBytes) : CubicBytes := { c with epoch := 0 }

def congestionWindowAfterPacketLoss (F : Floats) (c : CubicBytes) (currentCongestionWindow : ℕ) :
    ℕ × CubicBytes :=
  let lastWindowDelta := if c.fixBetaLastMax then kDefaultTCPMSS else 0
  (F.timesBeta c.numConnections currentCongestionWindow,
    { c with
      lastMaxCongestionWindow :=
        if currentCongestionWindow + lastWindowDelta < c.lastMaxCongestionWindow then
          F.timesBetaLastMax c.fixBetaLastMax c.numConnections currentCongestionWindow
        else currentCongestionWindow
      epoch := 0 })

/-- The start of an epoch: the first ack after a loss. -/
def startEpoch (F : Floats) (c : CubicBytes) (ackedBytes currentCongestionWindow : ℕ)
    (eventTime : ℤ) : CubicBytes :=
  { c with
    epoch := eventTime
    ackedBytesCount := ackedBytes
    estimatedTcpCongestionWindow := currentCongestionWindow
    timeToOriginPoint :=
      if c.lastMaxCongestionWindow ≤ currentCongestionWindow then 0
      else F.cbrt (kCubeFactor * (c.lastMaxCongestionWindow - currentCongestionWindow) % 2 ^ 64)
    originPointCongestionWindow :=
      if c.lastMaxCongestionWindow ≤ currentCongestionWindow then currentCongestionWindow
      else c.lastMaxCongestionWindow }

/-- The time since the epoch, in `2 ^ 10` fractions of a second. -/
def elapsedTime (c : CubicBytes) (delayMin eventTime : ℤ) : ℤ :=
  (eventTime + delayMin - c.epoch) * 2 ^ 10 % 2 ^ 64 / (1000 * 1000)

/-- What the cubic adds to the window at the origin point, or takes off it. -/
def deltaCongestionWindow (c : CubicBytes) (elapsed : ℤ) : ℕ :=
  let offset := if c.fixConvexMode then |c.timeToOriginPoint - elapsed|
    else c.timeToOriginPoint - elapsed
  let cube := kCubeCongestionWindowScale * offset * offset * offset
  if c.fixCubicQuantization then (cube * kDefaultTCPMSS % 2 ^ 64 / 2 ^ kCubeScale).toNat
  else (cube.bmod (2 ^ 64) / 2 ^ kCubeScale * kDefaultTCPMSS % 2 ^ 64).toNat

/-- The window of the cubic, not more than half of the acked bytes above the current
one. -/
def targetCongestionWindow (c : CubicBytes) (currentCongestionWindow : ℕ)
    (delayMin eventTime : ℤ) : ℕ :=
  let elapsed := c.elapsedTime delayMin eventTime
  let delta := c.deltaCongestionWindow elapsed
  min
    (if c.fixConvexMode ∧ (c.timeToOriginPoint : ℤ) < elapsed then
      (c.originPointCongestionWindow + delta) % 2 ^ 64
    else sub64 c.originPointCongestionWindow delta)
    (currentCongestionWindow + c.ackedBytesCount / 2)

/-- `CongestionWindowAfterAck`, where the last update was long enough ago. -/
def updateAfterAck (F : Floats) (c : CubicBytes) (ackedBytes currentCongestionWindow : ℕ)
    (delayMin eventTime : ℤ) : ℕ × CubicBytes :=
  let c := { c with lastCongestionWindow := currentCongestionWindow, lastUpdateTime := eventTime }
  let c := if c.epoch = 0 then c.startEpoch F ackedBytes currentCongestionWindow eventTime else c
  let target := c.targetCongestionWindow currentCongestionWindow delayMin eventTime
  let estimated :=
    F.growTcpWindow c.numConnections c.ackedBytesCount c.estimatedTcpCongestionWindow
  (max target estimated,
    { c with
      estimatedTcpCongestionWindow := estimated
      ackedBytesCount := 0
      lastTargetCongestionWindow := target })

def congestionWindowAfterAck (F : Floats) (c : CubicBytes)
    (ackedBytes currentCongestionWindow : ℕ) (delayMin eventTime : ℤ) : ℕ × CubicBytes :=
  let c := { c with ackedBytesCount := c.ackedBytesCount + ackedBytes }
  if ¬c.allowPerAckUpdates ∧ c.lastCongestionWindow = currentCongestionWindow ∧
      eventTime - c.lastUpdateTime ≤ maxCubicTimeInterval then
    (max c.lastTargetCongestionWindow c.estimatedTcpCongestionWindow, c)
  else c.updateAfterAck F ackedBytes currentCongestionWindow delayMin eventTime

/-- `CubicBytes` as the back-off of a sender. -/
def backoff (F : Floats) : Backoff CubicBytes where
  init := new
  setNumConnections c n := { c with numConnections := n }
  resetCubicState := resetCubicState
  congestionWindowAfterPacketLoss := congestionWindowAfterPacketLoss F
  congestionWindowAfterAck := congestionWindowAfterAck F
  onApplicationLimited := onApplicationLimited
  setFixConvexMode c := { c with fixConvexMode := true }
  setFixCubicQuantization c := { c with fixCubicQuantization := true }
  setFixBetaLastMax c := { c with fixBetaLastMax := true }
  setAllowPerAckUpdates c := { c with allowPerAckUpdates := true }
  reno := F.timesRenoBeta
  congestionWindowAfterPacketLoss_lt c w := F.timesBeta_lt c.numConnections w
  reno_lt := F.timesRenoBeta_lt

/-! ## What a reset leaves -/

/-- The settings of the experiments. -/
structure Experiments where
  fixConvexMode : Bool
  fixCubicQuantization : Bool
  fixBetaLastMax : Bool
  allowPerAckUpdates : Bool
deriving DecidableEq, Repr

def experiments (c : CubicBytes) : Experiments :=
  ⟨c.fixConvexMode, c.fixCubicQuantization, c.fixBetaLastMax, c.allowPerAckUpdates⟩

/-- A `CubicBytes` with nothing but its settings. -/
def ofSettings (n : ℕ) (e : Experiments) : CubicBytes :=
  ⟨n, 0, 0, 0, 0, 0, 0, 0, 0, 0, e.fixConvexMode, e.fixCubicQuantization, e.fixBetaLastMax,
    e.allowPerAckUpdates⟩

variable (F : Floats) (c : CubicBytes)

/-- An ack does not change the settings. -/
theorem settings_congestionWindowAfterAck (ackedBytes current : ℕ) (delayMin eventTime : ℤ) :
    let d := (c.congestionWindowAfterAck F ackedBytes current delayMin eventTime).2
    d.numConnections = c.numConnections ∧ d.experiments = c.experiments := by
  unfold congestionWindowAfterAck
  dsimp only
  split_ifs
  · exact ⟨rfl, rfl⟩
  · unfold updateAfterAck
    dsimp only
    split_ifs <;> exact ⟨rfl, rfl⟩

end CubicBytes

end Congestion
end QuicNs3
