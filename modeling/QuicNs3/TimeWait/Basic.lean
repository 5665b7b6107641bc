/-
# The time wait list

Model of `QuicTimeWaitListManager` (`net/tools/quic/quic_time_wait_list_manager.cc`), which
remembers for a while which connections were closed.  The linked hash map is the list of
its entries in the order of insertion.

An id leaves the list in two ways.  `CleanUpOldConnectionIds`, which the clean up alarm
calls, takes entries from the front as long as they are old enough; and adding an id to a
full list takes entries from the front until there is room.  Both loops look at the first
entry only.

The clock is an input: it moves on (`tick`), but not past the deadline of an alarm that has
not gone off.  `SetConnectionIdCleanUpAlarm` returns before it does anything.  The value
`none` stands for the loop of `TrimTimeWaitListIfNeeded` with a limit of zero, which does
not end, and for `ProcessPacket` of an id that is not there, which reads behind the map.
`added` records, and nothing reads it, when ids were added.

What is sent goes to the writer or waits in a queue; neither looks at the list.
-/

import QuicNs3.Lib.Recency
import QuicNs3.Lib.Run
import Mathlib.Algebra.Order.Ring.Int

namespace QuicNs3
namespace TimeWait

open Lib

/-- `ConnectionIdData`. -/
structure ConnectionIdData (π : Type) where
  numPackets : ℕ
  version : ℕ
  timeAdded : ℤ
  terminationPackets : List π
  connectionRejectedStatelessly : Bool
  deriving Repr, DecidableEq

/-- `ConnectionIdMap`. -/
abbrev ConnectionIdMap (π : Type) := List (ℕ × ConnectionIdData π)

/-- `QuicTime::Infinite()`. -/
def infinite : ℤ := 2 ^ 63 - 1

/-- What a manager is set up with. -/
structure Config where
  timeWaitPeriod : ℤ
  /-- `quic_time_wait_list_max_connections`. -/
  maxConnections : ℤ
  period_nonneg : 0 ≤ timeWaitPeriod

/-- The flags as they are defined. -/
def Config.default : Config := ⟨200000000, 600000, by decide⟩

/-- `QuicTimeWaitListManager`, with the clock. -/
structure Manager (π : Type) where
  config : Config
  clock : ℤ
  connectionIdMap : ConnectionIdMap π
  /-- The deadline of `connection_id_clean_up_alarm_`. -/
  alarm : Option ℤ
  /-- When each id was added last. -/
  added : List (ℕ × ℤ)

/-- What `ProcessPacket` sends. -/
inductive Response (π : Type)
  | nothing
  | packets (packets : List π)
  | publicReset (id : ℕ)
  deriving Repr, DecidableEq

/-! ## The loops -/

section Loops

variable {π : Type}

/-- `MaybeExpireOldestConnection`. -/
def maybeExpireOldestConnection (expiration : ℤ) : ConnectionIdMap π → Bool × ConnectionIdMap π
  | [] => (false, [])
  | e :: l => if e.2.timeAdded > expiration then (false, e :: l) else (true, l)

/-- The loop of `CleanUpOldConnectionIds`. -/
def expireLoop (expiration : ℤ) : ConnectionIdMap π → ConnectionIdMap π
  | [] => []
  | e :: l =>
    match maybeExpireOldestConnection expiration (e :: l) with
    | (false, l') => l'
    | (true, _) => expireLoop expiration l

/-- The loop of `TrimTimeWaitListIfNeeded`. -/
def trimLoop (limit : ℕ) : ConnectionIdMap π → Option (ConnectionIdMap π)
  | [] => if limit ≤ 0 then none else some []
  | e :: l =>
    if limit ≤ l.length + 1 then
      match maybeExpireOldestConnection infinite (e :: l) with
      | (false, _) => none
      | (true, _) => trimLoop limit l
    else some (e :: l)

/-- `TrimTimeWaitListIfNeeded`. -/
def trimTimeWaitListIfNeeded (c : Config) (l : ConnectionIdMap π) : Option (ConnectionIdMap π) :=
  if c.maxConnections < 0 then some l else trimLoop c.maxConnections.toNat l

end Loops

/-! ## The manager -/

/-- `ShouldSendResponse`: the number of packets is a power of two. -/
def shouldSendResponse (receivedPacketCount : ℕ) : Bool :=
  decide (receivedPacketCount &&& (receivedPacketCount - 1) = 0)

namespace Manager

variable {π : Type}

/-- `SetConnectionIdCleanUpAlarm`, which returns at once. -/
def setConnectionIdCleanUpAlarm (m : Manager π) : Manager π := m

/-- The constructor, at a time. -/
def new (c : Config) (clock : ℤ) : Manager π :=
  { config := c
    clock := clock
    connectionIdMap := []
    alarm := none
    added := [] : Manager π }.setConnectionIdCleanUpAlarm

/-- `IsConnectionIdInTimeWait`. -/
def isConnectionIdInTimeWait (m : Manager π) (id : ℕ) : Bool :=
  decide (id ∈ m.connectionIdMap.map Prod.fst)

/-- The entry `AddConnectionIdToTimeWait` makes, with the number of packets of an entry that
was there. -/
def newData (m : Manager π) (id version : ℕ) (rejectedStatelessly : Bool)
    (terminationPackets : Option (List π)) : ConnectionIdData π where
  numPackets := ((valueAt id m.connectionIdMap).map ConnectionIdData.numPackets).getD 0
  version := version
  timeAdded := m.clock
  terminationPackets := terminationPackets.getD []
  connectionRejectedStatelessly := rejectedStatelessly

/-- `AddConnectionIdToTimeWait`. -/
def addConnectionIdToTimeWait (m : Manager π) (id version : ℕ) (rejectedStatelessly : Bool)
    (terminationPackets : Option (List π)) : Option (Manager π) :=
  -- Replace record if it is reinserted.
  (trimTimeWaitListIfNeeded m.config (without id m.connectionIdMap)).map fun l =>
    { m with
      connectionIdMap :=
        l ++ [(id, m.newData id version rejectedStatelessly terminationPackets)]
      added := without id m.added ++ [(id, m.clock)] }

/-- `ProcessPacket`, and what it sends. -/
def processPacket (m : Manager π) (id : ℕ) : Option (Response π × Manager π) :=
  (valueAt id m.connectionIdMap).map fun d =>
    let numPackets := d.numPackets + 1
    (if !shouldSendResponse numPackets then .nothing
      else if !d.terminationPackets.isEmpty then .packets d.terminationPackets
      else .publicReset id,
      { m with
        connectionIdMap := m.connectionIdMap.map fun e =>
          if e.1 = id then (e.1, { e.2 with numPackets := e.2.numPackets + 1 }) else e })

/-- `CleanUpOldConnectionIds`. -/
def cleanUpOldConnectionIds (m : Manager π) : Manager π :=
  { m with
    connectionIdMap :=
      expireLoop (m.clock - m.config.timeWaitPeriod) m.connectionIdMap
    }.setConnectionIdCleanUpAlarm

end Manager

/-- What can happen to a manager. -/
inductive Op (π : Type)
  | addConnectionIdToTimeWait (id version : ℕ) (rejectedStatelessly : Bool)
      (terminationPackets : Option (List π))
  | processPacket (id : ℕ)
  | cleanUpOldConnectionIds
  /-- The clock moves on. -/
  | tick (clock : ℤ)
  /-- The alarm goes off. -/
  | onAlarm
  deriving Repr, DecidableEq

namespace Manager

variable {π : Type}

/-- One step.  An alarm goes off when it is due, and not later. -/
def step (m : Manager π) : Op π → Option (Manager π)
  | .addConnectionIdToTimeWait id version rejectedStatelessly terminationPackets =>
    m.addConnectionIdToTimeWait id version rejectedStatelessly terminationPackets
  | .processPacket id => (m.processPacket id).map Prod.snd
  | .cleanUpOldConnectionIds => some m.cleanUpOldConnectionIds
  | .tick clock =>
    if m.clock ≤ clock ∧ clock ≤ infinite ∧ ∀ deadline ∈ m.alarm, clock ≤ deadline then
      some { m with clock := clock }
    else none
  | .onAlarm =>
    m.alarm.bind fun deadline =>
      if deadline ≤ m.clock then some { m with alarm := none }.cleanUpOldConnectionIds else none

end Manager

end TimeWait
end QuicNs3
