/-
# Flow control

The two halves of `QuicFlowController`.  A `SendController` counts the bytes sent
against the offset the peer has allowed.  A `ReceiveController` keeps the highest
offset received and the bytes consumed, and moves its window when less than half of
it is left; a window that moves more often than every two round trips grows, up to
its limit.

Every offset is an unsigned 64-bit counter of the source.  Those that the peer chooses
can take a sum or a difference out of its range, so these wrap (`wrapAdd`, `wrapSub`).

Not here: the WINDOW_UPDATE and BLOCKED frames the controllers hand to the connection,
and `UpdateReceiveWindowSize`, which only the negotiation of the configuration calls.
-/

import QuicNs3.Lib.Word

namespace QuicNs3
namespace Streams

open Lib

/-- `kMinimumFlowControlSendWindow`. -/
def kMinimumFlowControlSendWindow : ℕ := 16 * 1024

/-- `kStreamReceiveWindowLimit`. -/
def kStreamReceiveWindowLimit : ℕ := 16 * 1024 * 1024

/-- `kSessionReceiveWindowLimit`. -/
def kSessionReceiveWindowLimit : ℕ := 24 * 1024 * 1024

/-- What the controllers read of the connection: its clock and the smoothed round trip
time, in microseconds. -/
structure Environment where
  now : ℤ
  smoothedRtt : ℤ
  deriving Repr, DecidableEq

/-! ## Sending -/

/-- The sending half of `QuicFlowController`. -/
structure SendController where
  bytesSent : ℕ
  sendWindowOffset : ℕ
  lastBlockedSendWindowOffset : ℕ
  deriving Repr, DecidableEq

namespace SendController

/-- `SendWindowSize`. -/
def sendWindowSize (c : SendController) : ℕ :=
  if c.sendWindowOffset < c.bytesSent then 0 else c.sendWindowOffset - c.bytesSent

/-- `IsBlocked`. -/
def isBlocked (c : SendController) : Bool := decide (c.sendWindowSize = 0)

/-- `MaybeSendBlocked`. -/
def maybeSendBlocked (c : SendController) : SendController :=
  if c.sendWindowSize = 0 ∧ c.lastBlockedSendWindowOffset < c.sendWindowOffset then
    { c with lastBlockedSendWindowOffset := c.sendWindowOffset }
  else c

/-- `AddBytesSent`.  The flag says that they are too many, and then the connection is
closed. -/
def addBytesSent (c : SendController) (bytes : ℕ) : Bool × SendController :=
  if c.sendWindowOffset < wrapAdd c.bytesSent bytes then
    (true, { c with bytesSent := c.sendWindowOffset })
  else (false, { c with bytesSent := wrapAdd c.bytesSent bytes })

/-- `UpdateSendWindowOffset`.  The flag says that the update unblocks. -/
def updateSendWindowOffset (c : SendController) (offset : ℕ) : Bool × SendController :=
  if offset ≤ c.sendWindowOffset then (false, c)
  else (c.isBlocked, { c with sendWindowOffset := offset })

end SendController

/-! ## Receiving -/

/-- The receiving half of `QuicFlowController`. -/
structure ReceiveController where
  bytesConsumed : ℕ
  highestReceivedByteOffset : ℕ
  receiveWindowOffset : ℕ
  receiveWindowSize : ℕ
  receiveWindowSizeLimit : ℕ
  autoTuneReceiveWindow : Bool
  /-- Zero before the first update. -/
  prevWindowUpdateTime : ℤ
  deriving Repr, DecidableEq

namespace ReceiveController

/-- The controller of a stream or, with another limit, of the session. -/
def new (window limit : ℕ) (autoTune : Bool) : ReceiveController where
  bytesConsumed := 0
  highestReceivedByteOffset := 0
  receiveWindowOffset := window
  receiveWindowSize := window
  receiveWindowSizeLimit := limit
  autoTuneReceiveWindow := autoTune
  prevWindowUpdateTime := 0

/-- `UpdateHighestReceivedOffset`, if the offset has increased. -/
def updateHighestReceivedOffset (c : ReceiveController) (offset : ℕ) : ReceiveController :=
  if offset ≤ c.highestReceivedByteOffset then c
  else { c with highestReceivedByteOffset := offset }

/-- `FlowControlViolation`. -/
def flowControlViolation (c : ReceiveController) : Bool :=
  decide (c.receiveWindowOffset < c.highestReceivedByteOffset)

/-- `IncreaseWindowSize`. -/
def increaseWindowSize (c : ReceiveController) : ReceiveController :=
  { c with receiveWindowSize := min (2 * c.receiveWindowSize) c.receiveWindowSizeLimit }

/-- `UpdateReceiveWindowOffsetAndSendWindowUpdate`. -/
def updateReceiveWindowOffset (c : ReceiveController) (availableWindow : ℕ) : ReceiveController :=
  { c with
    receiveWindowOffset :=
      wrapAdd c.receiveWindowOffset (wrapSub c.receiveWindowSize availableWindow) }

/-- `EnsureWindowAtLeast`. -/
def ensureWindowAtLeast (c : ReceiveController) (windowSize : ℕ) : ReceiveController :=
  if windowSize ≤ c.receiveWindowSizeLimit then c
  else
    c.increaseWindowSize.updateReceiveWindowOffset
      (wrapSub c.receiveWindowOffset c.bytesConsumed)

/-- `MaybeIncreaseMaxWindowSize`, with the window the controller of the session has to
have at least if this one has grown.  The source multiplies by `1.5` in floating point;
neither product exceeds the limit of the session. -/
def maybeIncreaseMaxWindowSize (c : ReceiveController) (e : Environment) :
    ReceiveController × Option ℕ :=
  let updated := { c with prevWindowUpdateTime := e.now }
  if c.prevWindowUpdateTime = 0 then (updated, none)
  else if !c.autoTuneReceiveWindow then (updated, none)
  else if e.smoothedRtt = 0 then (updated, none)
  else if 2 * e.smoothedRtt ≤ e.now - c.prevWindowUpdateTime then (updated, none)
  else
    let grown := updated.increaseWindowSize
    (grown, if c.receiveWindowSize < grown.receiveWindowSize then
      some (3 * grown.receiveWindowSize / 2) else none)

/-- `MaybeSendWindowUpdate`. -/
def maybeSendWindowUpdate (c : ReceiveController) (e : Environment) :
    ReceiveController × Option ℕ :=
  let availableWindow := wrapSub c.receiveWindowOffset c.bytesConsumed
  let c :=
    if c.prevWindowUpdateTime = 0 then { c with prevWindowUpdateTime := e.now } else c
  if c.receiveWindowSize / 2 ≤ availableWindow then (c, none)
  else
    let r := c.maybeIncreaseMaxWindowSize e
    (r.1.updateReceiveWindowOffset availableWindow, r.2)

/-- What `MaybeSendWindowUpdate` asserts when `AddBytesConsumed` has counted the bytes. -/
def canConsume (c : ReceiveController) (bytes : ℕ) : Bool :=
  decide (wrapAdd c.bytesConsumed bytes ≤ c.receiveWindowOffset)

/-- `AddBytesConsumed`. -/
def addBytesConsumed (c : ReceiveController) (e : Environment) (bytes : ℕ) :
    ReceiveController × Option ℕ :=
  { c with bytesConsumed := wrapAdd c.bytesConsumed bytes }.maybeSendWindowUpdate e

end ReceiveController

end Streams
end QuicNs3
