/-
# The dispatcher of the server

Model of `net/tools/quic/quic_dispatcher.cc`, with the buffered packet store
(`net/quic/core/quic_buffered_packet_store.cc`) and the time wait list
(`net/tools/quic/quic_time_wait_list_manager.cc`) it keeps.  Linked hash maps are
lists of entries in the order of insertion; of a session the dispatcher knows its
connection id.

A packet that arrives is first looked up in four containers: the sessions, the
connections with a buffered client hello, the connections whose client hello is
with the stateless rejector, and the time wait list.  Only a packet with an unknown
connection id goes on to the validity checks and the rejector.  The rejector may
answer later, by a callback that holds the packet (`rejectors`).

Inputs are what the client hello extractor and the rejector find out about a packet
(`Chlo`), the clock, and whether a session closes while it processes packets.
Responses that are sent and the writers that are blocked are left out.  The field
`collided` records, and nothing reads it, that `session_map_.insert` was called for
an id with a session.  The flag that bounds the time wait list is not zero, with
which the source does not return.
-/

import QuicNs3.Lib.Recency
import Mathlib.Algebra.Order.Ring.Int

namespace QuicNs3
namespace Dispatch

open Lib

/-- The keys of a linked hash map. -/
def keys {K V : Type} (l : List (K × V)) : List K := l.map Prod.fst

/-- The flags of `quic_flags_list.h` that the dispatcher reads. -/
structure Flags where
  allowChloBuffering : Bool
  useCheapStatelessRejects : Bool
  enableStatelessRejectSupport : Bool
  limitNumNewSessionsPerEpollLoop : Bool
  setVersionOnAsyncGetProofReturns : Bool
  timeWaitListMaxConnections : ℤ
  deriving Repr, DecidableEq

/-- The flags as they are defined. -/
def Flags.default : Flags := ⟨true, true, true, true, false, 600000⟩

/-! ## The buffered packet store -/

/-- `BufferedPacketList`. -/
structure BufferedPacketList (π : Type) where
  bufferedPackets : List π
  creationTime : ℤ
  alpn : String
  deriving Repr, DecidableEq

/-- `QuicBufferedPacketStore`. -/
structure BufferedPacketStore (π : Type) where
  undecryptablePackets : List (ℕ × BufferedPacketList π)
  connectionsWithChlo : List ℕ
  deriving Repr, DecidableEq

/-- `EnqueuePacketResult`. -/
inductive EnqueuePacketResult
  | success
  | tooManyPackets
  | tooManyConnections
  deriving Repr, DecidableEq

def kDefaultMaxConnectionsInStore : ℕ := 100

def kMaxConnectionsWithoutCHLO : ℕ := kDefaultMaxConnectionsInStore / 2

def kDefaultMaxUndecryptablePackets : ℕ := 10

/-- `kInitialIdleTimeoutSecs`, in microseconds. -/
def connectionLifeSpan : ℤ := 5000000

namespace BufferedPacketStore

variable {π : Type}

def hasBufferedPackets (b : BufferedPacketStore π) (id : ℕ) : Bool :=
  decide (id ∈ keys b.undecryptablePackets)

def hasChloForConnection (b : BufferedPacketStore π) (id : ℕ) : Bool :=
  decide (id ∈ b.connectionsWithChlo)

/-- `ShouldBufferPacket`, which says that there is no room. -/
def shouldBufferPacket (flags : Flags) (b : BufferedPacketStore π) (isChlo : Bool) : Bool :=
  let isStoreFull := decide (kDefaultMaxConnectionsInStore ≤ b.undecryptablePackets.length)
  if isChlo then isStoreFull
  else
    isStoreFull || (flags.limitNumNewSessionsPerEpollLoop &&
      decide (kMaxConnectionsWithoutCHLO ≤
        b.undecryptablePackets.length - b.connectionsWithChlo.length))

/-- The queue of a connection after a packet is put into it. -/
def pushPacket (q : BufferedPacketList π) (packet : π) (isChlo : Bool) (alpn : String) (now : ℤ) :
    BufferedPacketList π where
  bufferedPackets :=
    if isChlo then packet :: q.bufferedPackets else q.bufferedPackets ++ [packet]
  creationTime := if q.bufferedPackets.isEmpty then now else q.creationTime
  alpn := if isChlo then alpn else q.alpn

/-- `EnqueuePacket`. -/
def enqueuePacket (flags : Flags) (b : BufferedPacketStore π) (id : ℕ) (packet : π) (isChlo : Bool)
    (alpn : String) (now : ℤ) : EnqueuePacketResult × BufferedPacketStore π :=
  if !b.hasBufferedPackets id && b.shouldBufferPacket flags isChlo then (.tooManyConnections, b)
  else
    let queue := (valueAt id b.undecryptablePackets).getD ⟨[], 0, ""⟩
    -- The queue of a new connection goes to the back.
    let b : BufferedPacketStore π :=
      if b.hasBufferedPackets id then b
      else { b with undecryptablePackets := b.undecryptablePackets ++ [(id, queue)] }
    let numNonChloPackets :=
      if b.hasChloForConnection id then queue.bufferedPackets.length - 1
      else queue.bufferedPackets.length
    if !isChlo && decide (kDefaultMaxUndecryptablePackets ≤ numNonChloPackets) then
      (.tooManyPackets, b)
    else
      (.success,
        { undecryptablePackets := b.undecryptablePackets.map fun e =>
            if e.1 = id then (id, pushPacket queue packet isChlo alpn now) else e
          connectionsWithChlo :=
            if isChlo && !b.hasChloForConnection id then b.connectionsWithChlo ++ [id]
            else b.connectionsWithChlo })

/-- `DeliverPackets`. -/
def deliverPackets (b : BufferedPacketStore π) (id : ℕ) :
    BufferedPacketList π × BufferedPacketStore π :=
  ((valueAt id b.undecryptablePackets).getD ⟨[], 0, ""⟩,
    { b with undecryptablePackets := without id b.undecryptablePackets })

/-- `DiscardPackets`. -/
def discardPackets (b : BufferedPacketStore π) (id : ℕ) : BufferedPacketStore π where
  undecryptablePackets := without id b.undecryptablePackets
  connectionsWithChlo := b.connectionsWithChlo.filter fun k => decide (k ≠ id)

/-- `DeliverPacketsForNextConnection`: the connection, its packets, and the store. -/
def deliverPacketsForNextConnection (b : BufferedPacketStore π) :
    Option (ℕ × BufferedPacketList π × BufferedPacketStore π) :=
  match b.connectionsWithChlo with
  | [] => none
  | id :: l => some (id, { b with connectionsWithChlo := l }.deliverPackets id)

end BufferedPacketStore

/-! ## The time wait list -/

/-- `ConnectionIdData`, without its termination packets. -/
structure ConnectionIdData where
  numPackets : ℕ
  version : ℕ
  timeAdded : ℤ
  connectionRejectedStatelessly : Bool
  deriving Repr, DecidableEq

/-- `connection_id_map_` of `QuicTimeWaitListManager`. -/
abbrev TimeWaitList := List (ℕ × ConnectionIdData)

/-- `quic_time_wait_list_seconds`, in microseconds. -/
def timeWaitPeriod : ℤ := 200000000

namespace TimeWaitList

def isConnectionIdInTimeWait (w : TimeWaitList) (id : ℕ) : Bool := decide (id ∈ keys w)

/-- `TrimTimeWaitListIfNeeded`: the oldest connections go, until there is room for
one. -/
def trimTimeWaitListIfNeeded (flags : Flags) (w : TimeWaitList) : TimeWaitList :=
  if flags.timeWaitListMaxConnections < 0 then w
  else w.drop (w.length + 1 - flags.timeWaitListMaxConnections.toNat)

/-- `AddConnectionIdToTimeWait`. -/
def addConnectionIdToTimeWait (flags : Flags) (w : TimeWaitList) (id version : ℕ)
    (rejectedStatelessly : Bool) (now : ℤ) : TimeWaitList :=
  let numPackets := (valueAt id w).elim 0 ConnectionIdData.numPackets
  trimTimeWaitListIfNeeded flags (without id w) ++
    [(id, ⟨numPackets, version, now, rejectedStatelessly⟩)]

/-- `ProcessPacket`. -/
def processPacket (w : TimeWaitList) (id : ℕ) : TimeWaitList :=
  w.map fun e => if e.1 = id then (e.1, { e.2 with numPackets := e.2.numPackets + 1 }) else e

/-- `CleanUpOldConnectionIds`. -/
def cleanUpOldConnectionIds (w : TimeWaitList) (now : ℤ) : TimeWaitList :=
  w.dropWhile fun e => decide (e.2.timeAdded ≤ now - timeWaitPeriod)

end TimeWaitList

/-! ## The dispatcher -/

/-- What the public header of a packet says, and its packet number. -/
structure PacketHeader where
  connectionId : ℕ
  /-- The connection id has its full length. -/
  fullConnectionId : Bool
  clientPort : ℕ
  resetFlag : Bool
  /-- The first of the versions, if the packet has any. -/
  version : Option ℕ
  /-- The packet number, if the framer can read so far. -/
  packetNumber : Option ℕ
  deriving Repr, DecidableEq

/-- `StatelessRejector::State`. -/
inductive RejectorState
  | unknown
  | unsupported
  | failed
  | accepted
  | rejected
  deriving Repr, DecidableEq

/-- What is found out about a packet with an unknown connection id. -/
inductive Chlo
  | notChlo
  /-- A client hello that `CanAcceptClientHello` refuses. -/
  | prohibited (alpn : String)
  /-- A client hello, with the state of the rejector after `OnChlo`. -/
  | chlo (alpn : String) (state : RejectorState)
  deriving Repr, DecidableEq

/-- `QuicPacketFate`. -/
inductive PacketFate
  | process
  | timeWait
  | buffer
  | drop
  deriving Repr, DecidableEq

/-- `StatelessRejectorProcessDoneCallback`, with its rejector. -/
structure Rejector (π : Type) where
  connectionId : ℕ
  packet : π
  firstVersion : ℕ
  deriving Repr, DecidableEq

/-- `QuicDispatcher`. -/
structure Dispatcher (π : Type) where
  flags : Flags
  supportedVersions : List ℕ
  /-- The ids of `session_map_`. -/
  sessions : List ℕ
  store : BufferedPacketStore π
  temporarilyBuffered : List ℕ
  timeWait : TimeWaitList
  rejectors : List (Rejector π)
  framerVersion : ℕ
  currentAlpn : String
  newSessionsAllowed : ℤ
  acceptNewConnections : Bool
  collided : Bool
  deriving Repr, DecidableEq

def kMaxReasonableInitialPacketNumber : ℕ := 200

namespace Dispatcher

variable {π : Type}

/-- The constructor. -/
def new (flags : Flags) (supportedVersions : List ℕ) : Dispatcher π where
  flags := flags
  supportedVersions := supportedVersions
  sessions := []
  store := ⟨[], []⟩
  temporarilyBuffered := []
  timeWait := []
  rejectors := []
  framerVersion := supportedVersions.headD 0
  currentAlpn := ""
  newSessionsAllowed := 0
  acceptNewConnections := true
  collided := false

/-- `session_map_.insert`. -/
def insertSession (d : Dispatcher π) (id : ℕ) : Dispatcher π :=
  if id ∈ d.sessions then { d with collided := true } else { d with sessions := id :: d.sessions }

def addToTimeWait (d : Dispatcher π) (id : ℕ) (rejectedStatelessly : Bool) (now : ℤ) :
    Dispatcher π :=
  { d with
    timeWait :=
      d.timeWait.addConnectionIdToTimeWait d.flags id d.framerVersion rejectedStatelessly now }

/-- `OnConnectionClosed` and `CleanUpSession`. -/
def onConnectionClosed (d : Dispatcher π) (id version : ℕ) (rejectedStatelessly : Bool)
    (now : ℤ) : Dispatcher π :=
  if id ∈ d.sessions then
    { d with
      timeWait := d.timeWait.addConnectionIdToTimeWait d.flags id version rejectedStatelessly now
      sessions := d.sessions.filter fun k => decide (k ≠ id) }
  else d

/-- What happens to a session while it processes packets: nothing, or it closes. -/
structure Outcome where
  closes : Bool
  version : ℕ
  rejectedStatelessly : Bool
  deriving Repr, DecidableEq

/-- `ProcessUdpPacket` of the session, for one or more packets. -/
def sessionProcesses (d : Dispatcher π) (id : ℕ) (o : Outcome) (now : ℤ) : Dispatcher π :=
  if o.closes then d.onConnectionClosed id o.version o.rejectedStatelessly now else d

/-- `BufferEarlyPacket`. -/
def bufferEarlyPacket (d : Dispatcher π) (id : ℕ) (packet : π) (now : ℤ) : Dispatcher π :=
  { d with store := (d.store.enqueuePacket d.flags id packet false "" now).2 }

/-- `ProcessChlo`, for the current connection id. -/
def processChlo (d : Dispatcher π) (id : ℕ) (packet : π) (o : Outcome) (now : ℤ) :
    Dispatcher π :=
  if !d.acceptNewConnections then
    let d := d.addToTimeWait id false now
    { d with timeWait := d.timeWait.processPacket id }
  else if d.flags.allowChloBuffering && d.flags.limitNumNewSessionsPerEpollLoop &&
      decide (d.newSessionsAllowed ≤ 0) then
    { d with store := (d.store.enqueuePacket d.flags id packet true d.currentAlpn now).2 }
  else
    let d := d.insertSession id
    let d := { d with store := (d.store.deliverPackets id).2 }
    let d := d.sessionProcesses id o now
    { d with
      newSessionsAllowed :=
        if d.flags.limitNumNewSessionsPerEpollLoop then d.newSessionsAllowed - 1
        else d.newSessionsAllowed }

/-- `ProcessUnauthenticatedHeaderFate`. -/
def processUnauthenticatedHeaderFate (d : Dispatcher π) (fate : PacketFate) (id : ℕ) (packet : π)
    (o : Outcome) (now : ℤ) : Dispatcher π :=
  match fate with
  | .process => d.processChlo id packet o now
  | .timeWait =>
    let d :=
      if !d.flags.useCheapStatelessRejects || !d.timeWait.isConnectionIdInTimeWait id then
        d.addToTimeWait id false now
      else d
    { d with
      timeWait := d.timeWait.processPacket id
      store := d.store.discardPackets id }
  | .buffer => d.bufferEarlyPacket id packet now
  | .drop => d

/-- `ProcessStatelessRejectorState`. -/
def processStatelessRejectorState (d : Dispatcher π) (state : RejectorState) (id : ℕ) (packet : π)
    (o : Outcome) (now : ℤ) : Dispatcher π :=
  match state with
  | .failed =>
    (d.addToTimeWait id false now).processUnauthenticatedHeaderFate .timeWait id packet o now
  | .unsupported => d.processUnauthenticatedHeaderFate .process id packet o now
  | .accepted => d.processUnauthenticatedHeaderFate .process id packet o now
  | .rejected =>
    (d.addToTimeWait id true now).processUnauthenticatedHeaderFate .timeWait id packet o now
  | .unknown => d.processUnauthenticatedHeaderFate .drop id packet o now

/-- `MaybeRejectStatelessly`. -/
def maybeRejectStatelessly (d : Dispatcher π) (id version : ℕ) (packet : π) (chlo : Chlo)
    (o : Outcome) (now : ℤ) : Dispatcher π :=
  if !d.flags.allowChloBuffering || !d.flags.useCheapStatelessRejects ||
      !d.flags.enableStatelessRejectSupport then
    -- Not use cheap stateless reject.
    match chlo with
    | .notChlo =>
      if d.flags.allowChloBuffering then
        d.processUnauthenticatedHeaderFate .buffer id packet o now
      else { d with currentAlpn := "" }.processUnauthenticatedHeaderFate .process id packet o now
    | .prohibited alpn | .chlo alpn _ =>
      { d with
        currentAlpn := if d.flags.allowChloBuffering then alpn else ""
        }.processUnauthenticatedHeaderFate .process id packet o now
  else
    match chlo with
    | .notChlo => d.processUnauthenticatedHeaderFate .buffer id packet o now
    | .prohibited alpn =>
      ({ d with currentAlpn := alpn }.addToTimeWait id false
        now).processUnauthenticatedHeaderFate .timeWait id packet o now
    | .chlo alpn .unknown =>
      { d with
        currentAlpn := alpn
        temporarilyBuffered :=
          if id ∈ d.temporarilyBuffered then d.temporarilyBuffered
          else id :: d.temporarilyBuffered
        rejectors := d.rejectors ++ [⟨id, packet, version⟩] }
    | .chlo alpn state =>
      { d with currentAlpn := alpn }.processStatelessRejectorState state id packet o now

/-- `ValidityChecks`, with the version of the header if it has one. -/
def validityChecks (version : Option ℕ) (packetNumber : ℕ) : PacketFate :=
  if version.isNone then .timeWait
  else if packetNumber = 0 ∨ kMaxReasonableInitialPacketNumber < packetNumber then .timeWait
  else .process

/-- `OnUnauthenticatedHeader`. -/
def onUnauthenticatedHeader (d : Dispatcher π) (h : PacketHeader) (packetNumber : ℕ) (packet : π)
    (chlo : Chlo) (o : Outcome) (now : ℤ) : Dispatcher π :=
  let id := h.connectionId
  if d.timeWait.isConnectionIdInTimeWait id then
    { d with timeWait := d.timeWait.processPacket id }
  else
    match validityChecks h.version packetNumber with
    | .process => d.maybeRejectStatelessly id (h.version.getD 0) packet chlo o now
    | fate => d.processUnauthenticatedHeaderFate fate id packet o now

/-- `OnUnauthenticatedPublicHeader` for a connection id that is not known: the
version the framer goes on with, if it does. -/
def unknownVersion (d : Dispatcher π) (h : PacketHeader) : Option ℕ :=
  if d.timeWait.isConnectionIdInTimeWait h.connectionId then
    (valueAt h.connectionId d.timeWait).map ConnectionIdData.version
  else
    match h.version with
    | none => some (d.supportedVersions.headD 0)
    | some v => if v ∈ d.supportedVersions then some v else none

/-- `ProcessPacket`: `OnUnauthenticatedPublicHeader`, and `OnUnauthenticatedHeader` if
the framer goes on. -/
def processPacket (d : Dispatcher π) (h : PacketHeader) (packet : π) (chlo : Chlo) (o : Outcome)
    (now : ℤ) : Dispatcher π :=
  let id := h.connectionId
  if h.clientPort = 0 then d
  else if !h.fullConnectionId then d
  else if id ∈ d.sessions then d.sessionProcesses id o now
  else if d.store.hasChloForConnection id then d.bufferEarlyPacket id packet now
  else if id ∈ d.temporarilyBuffered then d.bufferEarlyPacket id packet now
  else if h.resetFlag then d
  else
    match d.unknownVersion h with
    | none => d
    | some version =>
      let d := { d with framerVersion := version }
      match h.packetNumber with
      | none => d
      | some n => d.onUnauthenticatedHeader h n packet chlo o now

/-- `OnStatelessRejectorProcessDone`. -/
def onStatelessRejectorProcessDone (d : Dispatcher π) (r : Rejector π) (state : RejectorState)
    (o : Outcome) (now : ℤ) : Dispatcher π :=
  let id := r.connectionId
  let d := { d with temporarilyBuffered := d.temporarilyBuffered.filter fun k => decide (k ≠ id) }
  if d.timeWait.isConnectionIdInTimeWait id then
    { d with timeWait := d.timeWait.processPacket id }
  else
    { d with
      framerVersion :=
        if d.flags.setVersionOnAsyncGetProofReturns then r.firstVersion else d.framerVersion
      }.processStatelessRejectorState state id r.packet o now

/-- The loop of `ProcessBufferedChlos`, for at most `fuel` connections. -/
def processChlosFrom (now : ℤ) : ℕ → Dispatcher π → List Outcome → Dispatcher π
  | 0, d, _ => d
  | fuel + 1, d, os =>
    match d.store.deliverPacketsForNextConnection with
    | none => d
    | some (id, packets, store) =>
      let d := { d with store := store }
      if packets.bufferedPackets.isEmpty then d
      else
        let d := (d.insertSession id).sessionProcesses id (os.headD ⟨false, 0, false⟩) now
        processChlosFrom now fuel { d with newSessionsAllowed := d.newSessionsAllowed - 1 } os.tail

/-- `ProcessBufferedChlos`. -/
def processBufferedChlos (d : Dispatcher π) (maxConnectionsToCreate : ℤ) (os : List Outcome)
    (now : ℤ) : Dispatcher π :=
  processChlosFrom now maxConnectionsToCreate.toNat
    { d with newSessionsAllowed := maxConnectionsToCreate } os

/-- The loop of `OnExpirationTimeout`, on the queues not yet looked at. -/
def expireFrom (now : ℤ) (d : Dispatcher π) :
    List (ℕ × BufferedPacketList π) → Dispatcher π
  | [] => { d with store := { d.store with undecryptablePackets := [] } }
  | e :: l =>
    if now - connectionLifeSpan < e.2.creationTime then
      { d with store := { d.store with undecryptablePackets := e :: l } }
    else
      let d := d.addToTimeWait e.1 false now
      expireFrom now
        { d with
          store :=
            { d.store with
              connectionsWithChlo := d.store.connectionsWithChlo.filter fun k =>
                decide (k ≠ e.1) } } l

/-- `OnExpirationTimeout` of the store, with `OnExpiredPackets`. -/
def onExpirationTimeout (d : Dispatcher π) (now : ℤ) : Dispatcher π :=
  d.expireFrom now d.store.undecryptablePackets

/-- `Shutdown`: the sessions are closed one after the other, each with the version of its
connection. -/
def shutdown (d : Dispatcher π) (version : ℕ → ℕ) (now : ℤ) : Dispatcher π :=
  d.sessions.foldl (fun d id => d.onConnectionClosed id (version id) false now) d

end Dispatcher

/-- What happens to the dispatcher. -/
inductive Op (π : Type)
  | processPacket (header : PacketHeader) (packet : π) (chlo : Chlo) (outcome : Dispatcher.Outcome)
      (now : ℤ)
  /-- The callback of an asynchronous rejector runs; `index` says which one. -/
  | rejectorDone (index : ℕ) (state : RejectorState) (outcome : Dispatcher.Outcome) (now : ℤ)
  | processBufferedChlos (maxConnectionsToCreate : ℤ) (outcomes : List Dispatcher.Outcome)
      (now : ℤ)
  | expirationTimeout (now : ℤ)
  | cleanUpOldConnectionIds (now : ℤ)
  | closeSession (id version : ℕ) (rejectedStatelessly : Bool) (now : ℤ)
  | stopAcceptingNewConnections
  deriving Repr, DecidableEq

/-- One operation.  A callback runs once. -/
def Dispatcher.step {π : Type} (d : Dispatcher π) : Op π → Option (Dispatcher π)
  | .processPacket h packet chlo o now => some (d.processPacket h packet chlo o now)
  | .rejectorDone index state o now =>
    d.rejectors[index]?.map fun r =>
      { d with rejectors := d.rejectors.eraseIdx index }.onStatelessRejectorProcessDone r state o
        now
  | .processBufferedChlos n os now => some (d.processBufferedChlos n os now)
  | .expirationTimeout now => some (d.onExpirationTimeout now)
  | .cleanUpOldConnectionIds now =>
    some { d with timeWait := d.timeWait.cleanUpOldConnectionIds now }
  | .closeSession id version rejectedStatelessly now =>
    some (d.onConnectionClosed id version rejectedStatelessly now)
  | .stopAcceptingNewConnections => some { d with acceptNewConnections := false }

end Dispatch
end QuicNs3
