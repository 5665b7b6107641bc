/-
# Streams and the session

The objects of `QuicStream` with what `QuicSpdyStream` adds, and `QuicSession` with its
tables.  A stream object is known by its handle, the number of streams made before it:
its stream id does not name it for good, as a closed object outlives its entry in the
map of dynamic streams.  Handles 0 and 1 are the crypto and the headers stream, which
are static and do not contribute to the flow control of the connection.

Closing is re-entrant in the source: `CloseStreamInner` takes the stream out of the map
and then calls `OnClose`, which closes both sides and may send a reset, and each of
these calls `CloseStreamInner` again.  The inner calls find the stream gone.
`Session.onClose` is what is left of them.

The sessions are those of the tools directory, `QuicSpdyClientSession` and
`QuicSimpleServerSession`, with the flags as they are by default: streams are created
by `CreateIncomingDynamicStream`, no stream notifier is used, and no data is saved before
it is consumed.  Server push is left out, and with it the promised streams.  Left out
too are the frames the session sends, error codes and what only statistics read.

A `DCHECK` is always on and ends the program if it fails (`DCHECK_IS_ON` in `logging.h`).
`Session.aborted` says that one has failed, and `Session.step` ends the run there.  Those
that a frame of the peer can lead to are here: that a stream which gets a frame is not
closed on both sides, that a stream which is marked as draining is in the map of dynamic
streams, that a dynamic stream is not looked up under the id of a static one or under 0,
and that no more is consumed than the window allows.  Without the others there are only
more runs.
-/

import QuicNs3.Lib.Recency
import QuicNs3.Streams.Flow
import QuicNs3.Streams.Sequencer
import Mathlib.Data.Finset.Card
import Mathlib.Data.Finset.Image

namespace QuicNs3
namespace Streams

open Lib

/-- `Perspective`. -/
inductive Perspective
  | client
  | server
  deriving Repr, DecidableEq

/-! ## Streams -/

/-- `QuicStream::PendingData`. -/
structure PendingData where
  data : List UInt8
  offset : ℕ
  deriving Repr, DecidableEq

/-- A call of `WritevDataInner`: the offset and the bytes offered, whether a FIN was,
and what was consumed of them. -/
structure HandOver where
  offset : ℕ
  data : List UInt8
  fin : Bool
  bytesConsumed : ℕ
  finConsumed : Bool
  deriving Repr, DecidableEq

/-- What a `QuicStream` keeps for writing. -/
structure Outgoing where
  queuedData : List PendingData
  queuedDataBytes : ℕ
  streamBytesWritten : ℕ
  finBuffered : Bool
  flowController : SendController
  /-- The data `WriteOrBufferData` has accepted. -/
  accepted : List UInt8
  /-- Every hand-over so far. -/
  handOvers : List HandOver
  /-- Set where `OnCanWrite` finds an offset beyond the data. -/
  beyondData : Bool
  deriving Repr, DecidableEq

/-- `QuicStream`, and `QuicSpdyStream` if it is not static. -/
structure Stream where
  id : ℕ
  isStatic : Bool
  outgoing : Outgoing
  sequencer : Sequencer
  flowController : ReceiveController
  readSideClosed : Bool
  writeSideClosed : Bool
  finSent : Bool
  finReceived : Bool
  rstSent : Bool
  rstReceived : Bool
  headersDecompressed : Bool
  headerListEmpty : Bool
  trailersDecompressed : Bool
  trailersConsumed : Bool
  deriving Repr, DecidableEq

namespace Stream

/-- `HasFinalReceivedByteOffset`. -/
def hasFinalReceivedByteOffset (st : Stream) : Bool := st.finReceived || st.rstReceived

/-- `FinishedReadingHeaders`. -/
def finishedReadingHeaders (st : Stream) : Bool := st.headersDecompressed && st.headerListEmpty

/-- `FinishedReadingTrailers`. -/
def finishedReadingTrailers (st : Stream) : Bool :=
  if !st.finReceived then false else if !st.trailersDecompressed then true else st.trailersConsumed

/-- `IsDoneReading`. -/
def isDoneReading (st : Stream) : Bool :=
  st.finishedReadingHeaders && st.sequencer.isClosed && st.finishedReadingTrailers

end Stream

/-! ## The tables -/

/-- The tables of `QuicSession`. -/
structure Tables where
  /-- `dynamic_stream_map_`, from stream ids to handles. -/
  dynamicStreams : List (ℕ × ℕ)
  drainingStreams : Finset ℕ
  /-- `locally_closed_streams_highest_offset_`. -/
  locallyClosedStreams : List (ℕ × ℕ)
  numDynamicIncomingStreams : ℕ
  numDrainingIncomingStreams : ℕ
  numLocallyClosedIncomingStreams : ℕ
  availableStreams : Finset ℕ
  largestPeerCreatedStreamId : ℕ
  nextOutgoingStreamId : ℕ
  /-- The ids `CreateIncomingDynamicStream` has been called for. -/
  created : List ℕ
  /-- The ids frames have named. -/
  named : Finset ℕ
  deriving DecidableEq

/-- `kCryptoStreamId` and `kHeadersStreamId`. -/
def isStaticId (id : ℕ) : Bool := decide (id = 1) || decide (id = 3)

/-- The counters are of type `size_t`.  Each counts entries of a map, and no map has as many
as `2 ^ 64`. -/
def decrement (n : ℕ) : ℕ := if n = 0 then 2 ^ 64 - 1 else n - 1

namespace Tables

/-- The keys of `dynamic_stream_map_`. -/
def dynamicIds (t : Tables) : List ℕ := t.dynamicStreams.map Prod.fst

/-- The keys of `locally_closed_streams_highest_offset_`. -/
def locallyClosedIds (t : Tables) : List ℕ := t.locallyClosedStreams.map Prod.fst

/-- `IsIncomingStream`. -/
def isIncomingStream (t : Tables) (id : ℕ) : Bool := decide (id % 2 ≠ t.nextOutgoingStreamId % 2)

/-- `IsOpenStream`. -/
def isOpenStream (t : Tables) (id : ℕ) : Bool := isStaticId id || decide (id ∈ t.dynamicIds)

/-- `IsClosedStream`. -/
def isClosedStream (t : Tables) (id : ℕ) : Bool :=
  if t.isOpenStream id then false
  else if !t.isIncomingStream id then decide (id < t.nextOutgoingStreamId)
  else decide (id ≤ t.largestPeerCreatedStreamId) && decide (id ∉ t.availableStreams)

/-- `GetNumOpenIncomingStreams`. -/
def getNumOpenIncomingStreams (t : Tables) : ℕ :=
  wrapAdd (wrapSub t.numDynamicIncomingStreams t.numDrainingIncomingStreams)
    t.numLocallyClosedIncomingStreams

/-- `GetNumOpenOutgoingStreams`. -/
def getNumOpenOutgoingStreams (t : Tables) : ℕ :=
  wrapSub
    (wrapAdd (wrapSub t.dynamicStreams.length t.numDynamicIncomingStreams)
      (wrapSub t.locallyClosedStreams.length t.numLocallyClosedIncomingStreams))
    (wrapSub t.drainingStreams.card t.numDrainingIncomingStreams)

/-- `GetNumActiveStreams`. -/
def getNumActiveStreams (t : Tables) : ℕ :=
  wrapSub t.dynamicStreams.length t.drainingStreams.card

/-- `ActivateStream`. -/
def activateStream (t : Tables) (id p : ℕ) : Tables :=
  { t with
    dynamicStreams := without id t.dynamicStreams ++ [(id, p)]
    numDynamicIncomingStreams :=
      if t.isIncomingStream id then t.numDynamicIncomingStreams + 1
      else t.numDynamicIncomingStreams }

/-- `StreamDraining`. -/
def streamDraining (t : Tables) (id : ℕ) : Tables :=
  if id ∈ t.drainingStreams then t
  else
    { t with
      drainingStreams := insert id t.drainingStreams
      numDrainingIncomingStreams :=
        if t.isIncomingStream id then t.numDrainingIncomingStreams + 1
        else t.numDrainingIncomingStreams }

/-- `InsertLocallyClosedStreamsHighestOffset`. -/
def insertLocallyClosed (t : Tables) (id offset : ℕ) : Tables :=
  { t with
    locallyClosedStreams := without id t.locallyClosedStreams ++ [(id, offset)]
    numLocallyClosedIncomingStreams :=
      if t.isIncomingStream id then t.numLocallyClosedIncomingStreams + 1
      else t.numLocallyClosedIncomingStreams }

/-- The end of `OnFinalByteOffsetReceived`: the entry is erased. -/
def eraseLocallyClosed (t : Tables) (id : ℕ) : Tables :=
  { t with
    locallyClosedStreams := without id t.locallyClosedStreams
    numLocallyClosedIncomingStreams :=
      if t.isIncomingStream id then decrement t.numLocallyClosedIncomingStreams
      else t.numLocallyClosedIncomingStreams }

/-- What `CloseStreamInner` does to the maps of dynamic and draining streams. -/
def eraseDynamic (t : Tables) (id : ℕ) : Tables :=
  { t with
    dynamicStreams := without id t.dynamicStreams
    numDynamicIncomingStreams :=
      if t.isIncomingStream id then decrement t.numDynamicIncomingStreams
      else t.numDynamicIncomingStreams
    drainingStreams := t.drainingStreams.erase id
    numDrainingIncomingStreams :=
      if id ∈ t.drainingStreams ∧ t.isIncomingStream id then decrement t.numDrainingIncomingStreams
      else t.numDrainingIncomingStreams }

/-- What `CloseStreamInner` does to the tables; `offset` is the highest received offset
of a stream whose final one is not known. -/
def closeStream (t : Tables) (id : ℕ) (offset : Option ℕ) : Tables :=
  (match offset with
    | none => t
    | some offset => t.insertLocallyClosed id offset).eraseDynamic id

/-- The loop of `MaybeIncreaseLargestPeerStreamId`: the ids skipped become available. -/
def skipTo (t : Tables) (id : ℕ) : Tables :=
  { t with
    availableStreams := t.availableStreams ∪
      (Finset.range ((id - t.largestPeerCreatedStreamId) / 2 - 1)).image
        fun i => t.largestPeerCreatedStreamId + 2 + 2 * i
    largestPeerCreatedStreamId := id }

end Tables

/-! ## The session -/

/-- What a session is set up with.  The bounds are those that the constructor of
`QuicFlowController` asserts. -/
structure Config where
  perspective : Perspective
  initialStreamFlowControlWindowToSend : ℕ
  initialSessionFlowControlWindowToSend : ℕ
  /-- `GetReceivedFlowControlWindow`. -/
  receivedFlowControlWindow : ℕ
  maxOpenIncomingStreams : ℕ
  maxOpenOutgoingStreams : ℕ
  stream_le : initialStreamFlowControlWindowToSend ≤ kStreamReceiveWindowLimit
  session_le : initialSessionFlowControlWindowToSend ≤ kSessionReceiveWindowLimit
  received_lt : receivedFlowControlWindow < 2 ^ 64

/-- The windows of `QuicServer`, with the least one to send and the default number of
streams. -/
def Config.tool (perspective : Perspective) : Config where
  perspective := perspective
  initialStreamFlowControlWindowToSend := 64 * 1024
  initialSessionFlowControlWindowToSend := 1024 * 1024
  receivedFlowControlWindow := kMinimumFlowControlSendWindow
  maxOpenIncomingStreams := 100
  maxOpenOutgoingStreams := 100
  stream_le := by decide
  session_le := by decide
  received_lt := by decide

/-- `QuicSession`. -/
structure Session where
  config : Config
  environment : Environment
  connected : Bool
  goawayReceived : Bool
  /-- The stream objects, by their handles. -/
  streams : ℕ → Stream
  numStreams : ℕ
  tables : Tables
  /-- The two halves of `flow_controller_`. -/
  sendController : SendController
  flowController : ReceiveController
  /-- Set by the branch of `AddBytesSent` that closes the connection. -/
  sentTooMuch : Bool
  /-- A `DCHECK` has failed, and the program has ended. -/
  aborted : Bool

/-- A new stream.  A push stream of a client starts half closed. -/
def Config.newStream (c : Config) (id : ℕ) (isStatic writeSideClosed : Bool) : Stream where
  id := id
  isStatic := isStatic
  outgoing :=
    { queuedData := []
      queuedDataBytes := 0
      streamBytesWritten := 0
      finBuffered := false
      flowController := ⟨0, c.receivedFlowControlWindow, 0⟩
      accepted := []
      handOvers := []
      beyondData := false }
  sequencer := .new !isStatic
  flowController := .new c.initialStreamFlowControlWindowToSend kStreamReceiveWindowLimit
    (decide (c.perspective = .server))
  readSideClosed := false
  writeSideClosed := writeSideClosed
  finSent := false
  finReceived := false
  rstSent := false
  rstReceived := false
  headersDecompressed := false
  headerListEmpty := true
  trailersDecompressed := false
  trailersConsumed := false

/-- `largest_peer_created_stream_id_` after `Initialize`. -/
def Config.initialLargestPeerStreamId (c : Config) : ℕ :=
  match c.perspective with
  | .client => 0
  | .server => 3

namespace Session

variable (s : Session) (p id : ℕ)

/-- The session after `Initialize`, with the crypto and the headers stream.  The id of
the headers stream is the first that a client takes. -/
def new (c : Config) (e : Environment) : Session where
  config := c
  environment := e
  connected := true
  goawayReceived := false
  streams := fun p => c.newStream (if p = 0 then 1 else 3) true false
  numStreams := 2
  tables :=
    { dynamicStreams := []
      drainingStreams := ∅
      locallyClosedStreams := []
      numDynamicIncomingStreams := 0
      numDrainingIncomingStreams := 0
      numLocallyClosedIncomingStreams := 0
      availableStreams := ∅
      largestPeerCreatedStreamId := c.initialLargestPeerStreamId
      nextOutgoingStreamId := match c.perspective with | .client => 5 | .server => 2
      created := []
      named := ∅ }
  sendController := ⟨0, kMinimumFlowControlSendWindow, 0⟩
  flowController := .new c.initialSessionFlowControlWindowToSend kSessionReceiveWindowLimit
    (decide (c.perspective = .server))
  sentTooMuch := false
  aborted := false

/-- A `DCHECK` fails. -/
def abort : Session := { s with aborted := true }

/-- Change the object with handle `p`. -/
def modify (f : Stream → Stream) : Session :=
  { s with streams := Function.update s.streams p (f (s.streams p)) }

/-- The handle under an id in `dynamic_stream_map_`. -/
def findDynamic : Option ℕ := valueAt id s.tables.dynamicStreams

/-- The streams of a server override `CloseWriteSide` and `StopReading`. -/
def isServer : Bool := decide (s.config.perspective = .server)

/-- `QuicStream::AddBytesConsumed`. -/
def addBytesConsumed (bytes : ℕ) : Session :=
  let st := s.streams p
  -- Only adjust stream level flow controller if still reading.
  let s :=
    if st.readSideClosed then s
    else
      let r := st.flowController.addBytesConsumed s.environment bytes
      let s := s.modify p fun st => { st with flowController := r.1 }
      let s := { s with aborted := s.aborted || !st.flowController.canConsume bytes }
      match r.2 with
      | none => s
      | some window => { s with flowController := s.flowController.ensureWindowAtLeast window }
  if st.isStatic then s
  else
    { s with
      flowController := (s.flowController.addBytesConsumed s.environment bytes).1
      aborted := s.aborted || !s.flowController.canConsume bytes }

/-! ## Closing streams -/

/-- `OnClose` of a stream that has left the map: the calls of `CloseStreamInner` it leads
to find the stream gone, so it closes both sides, notes the reset it sends unless a FIN
or a reset was sent, and consumes what is left. -/
def onClose : Session :=
  let st := s.streams p
  let s := s.modify p fun st =>
    { st with
      readSideClosed := true
      sequencer := if st.readSideClosed then st.sequencer else st.sequencer.releaseBuffer
      writeSideClosed := true
      rstSent := st.rstSent || !st.finSent ||
        (s.isServer && !st.finReceived && !st.rstReceived && st.sequencer.ignoreReadData) }
  s.addBytesConsumed p
    (wrapSub st.flowController.highestReceivedByteOffset st.flowController.bytesConsumed)

/-- `CloseStreamInner`. -/
def closeStreamInner (locallyReset : Bool) : Session :=
  match s.findDynamic id with
  | none => s
  | some p =>
    let st := s.streams p
    let s := if locallyReset then s.modify p fun st => { st with rstSent := true } else s
    { s with
      tables := s.tables.closeStream id
        (if st.hasFinalReceivedByteOffset then none
          else some st.flowController.highestReceivedByteOffset) }.onClose p

/-- `SendRstStream`. -/
def sendRstStream : Session := if isStaticId id then s else s.closeStreamInner id true

/-- `QuicStream::Reset`. -/
def reset : Session :=
  (s.sendRstStream (s.streams p).id).modify p fun st => { st with rstSent := true }

/-- `CloseReadSide`. -/
def closeReadSide : Session :=
  let st := s.streams p
  if st.readSideClosed then s
  else
    let s := s.modify p fun st =>
      { st with readSideClosed := true, sequencer := st.sequencer.releaseBuffer }
    if st.writeSideClosed then s.closeStreamInner st.id false else s

/-- `QuicStream::CloseWriteSide`. -/
def closeWriteSideBase : Session :=
  let st := s.streams p
  if st.writeSideClosed then s
  else
    let s := s.modify p fun st => { st with writeSideClosed := true }
    if st.readSideClosed then s.closeStreamInner st.id false else s

/-- `CloseWriteSide`, which `QuicSpdyServerStreamBase` overrides: it tells the peer to stop
sending if the stream has stopped reading before a FIN or a reset was received. -/
def closeWriteSide : Session :=
  let st := s.streams p
  let s :=
    if s.isServer && !st.isStatic && !st.finReceived && !st.rstReceived &&
        st.sequencer.ignoreReadData && !st.rstSent then s.reset p
    else s
  s.closeWriteSideBase p

/-- `OnFinRead`. -/
def onFinRead : Session :=
  (s.modify p fun st => { st with finReceived := true }).closeReadSide p

/-- `QuicStream::OnConnectionClosed`, and what the loop of `QuicSession::OnConnectionClosed`
does if the stream has failed to close. -/
def onConnectionClosed : Session :=
  let st := s.streams p
  let s :=
    if st.readSideClosed && st.writeSideClosed then s else (s.closeWriteSide p).closeReadSide p
  s.closeStreamInner st.id false

/-- `CloseConnection`, with `QuicSession::OnConnectionClosed`. -/
def closeConnection : Session :=
  if s.connected then
    s.tables.dynamicStreams.foldl (fun s e => s.onConnectionClosed e.2)
      { s with connected := false }
  else s

/-- `StreamDraining`. -/
def streamDraining : Session :=
  if id ∈ s.tables.dynamicIds then { s with tables := s.tables.streamDraining id } else s.abort

end Session

end Streams
end QuicNs3
