/-
# Receiving

What the session does with the frames of the peer: `OnStreamFrame`, `OnRstStream` and
the header blocks that come in on the headers stream, down to the sequencer of the
stream and up again to the application.

The application is told of new data by `OnDataAvailable`, in the middle of a frame.
What it does there is a `Reaction`: it reads some of the readable bytes, and reads the
FIN if the sequencer is closed.  Anything else it does is an operation of its own.
-/

import QuicNs3.Streams.Session

namespace QuicNs3
namespace Streams

open Lib

/-- `kMaxAvailableStreamsMultiplier`. -/
def kMaxAvailableStreamsMultiplier : ℕ := 10

/-- `QuicStreamFrame`. -/
structure StreamFrame where
  streamId : ℕ
  fin : Bool
  offset : UInt64
  dataLength : UInt16
  deriving Repr, DecidableEq

namespace StreamFrame

/-- The offset behind the data. -/
def stop (f : StreamFrame) : ℕ := wrapAdd f.offset.toNat f.dataLength.toNat

end StreamFrame

/-- `QuicRstStreamFrame`; `noError` is the error code `QUIC_STREAM_NO_ERROR`. -/
structure RstStreamFrame where
  streamId : ℕ
  noError : Bool
  byteOffset : UInt64
  deriving Repr, DecidableEq

/-- What the application does in `OnDataAvailable`. -/
structure Reaction where
  bytes : ℕ
  readFin : Bool
  deriving Repr, DecidableEq

/-- A header as `CopyAndValidateTrailers` tells them apart. -/
inductive Header
  /-- The key `kFinalOffsetHeaderKey`, with its value if it is a number. -/
  | finalOffset (value : Option UInt64)
  | plain
  /-- A header that trailers must not have, or have twice. -/
  | malformed
  deriving Repr, DecidableEq

/-- The loop of `CopyAndValidateTrailers`, with the final offset found so far. -/
def copyAndValidateTrailers : Option UInt64 → List Header → Option UInt64
  | found, [] => found
  | none, .finalOffset (some offset) :: l => copyAndValidateTrailers (some offset) l
  | _, .finalOffset _ :: _ => none
  | found, .plain :: l => copyAndValidateTrailers found l
  | _, .malformed :: _ => none

namespace Session

variable (s : Session) (p id : ℕ)

/-! ## The sequencer -/

/-- `QuicStreamSequencer::MarkConsumed`. -/
def markConsumed (bytes : ℕ) : Session :=
  let b := (s.streams p).sequencer.buffer
  if b.readableBytes < bytes then s.reset p
  else
    (s.modify p fun st =>
      { st with
        sequencer := { st.sequencer with buffer := b.markConsumed bytes } }).addBytesConsumed p
      bytes

/-- `OnDataAvailable`. -/
def onDataAvailable (r : Reaction) : Session :=
  let bytes := min r.bytes (s.streams p).sequencer.buffer.readableBytes
  let s := if bytes = 0 then s else s.markConsumed p bytes
  if r.readFin && (s.streams p).sequencer.isClosed then s.onFinRead p else s

/-- `MaybeCloseStream`. -/
def maybeCloseStream (r : Reaction) : Session :=
  let q := (s.streams p).sequencer
  if q.blocked || !q.isClosed then s
  else
    (if q.ignoreReadData then s.onFinRead p else s.onDataAvailable p r).modify p fun st =>
      { st with sequencer := st.sequencer.releaseBuffer }

/-- `QuicStreamSequencer::FlushBufferedFrames`, which reads all that is buffered. -/
def flushBufferedFrames (r : Reaction) : Session :=
  let f := (s.streams p).sequencer.buffer.flushBufferedFrames
  ((s.modify p fun st =>
    { st with sequencer := { st.sequencer with buffer := f.2 } }).addBytesConsumed
      p f.1).maybeCloseStream p r

/-- `CloseStreamAtOffset`. -/
def closeStreamAtOffset (offset : ℕ) (r : Reaction) : Session :=
  let q := (s.streams p).sequencer
  -- If there is a scheduled close, the new offset should match it.
  if q.closeOffset ≠ kMaxOffset ∧ offset ≠ q.closeOffset then s.reset p
  else
    (s.modify p fun st =>
      { st with sequencer := { st.sequencer with closeOffset := offset } }).maybeCloseStream p r

/-- `QuicStreamSequencer::OnStreamFrame`, from `OnStreamData` on. -/
def onStreamData (f : StreamFrame) (r : Reaction) : Session :=
  match (s.streams p).sequencer.buffer.onStreamData f.offset.toNat f.dataLength.toNat with
  | .error _ => s.closeConnection
  | .duplicate => s
  | .invalid => s.modify p fun st => { st with sequencer := { st.sequencer with strayed := true } }
  | .buffered b =>
    let q := (s.streams p).sequencer
    let s := s.modify p fun st => { st with sequencer := { st.sequencer with buffer := b } }
    if q.blocked then s
    else if f.offset.toNat = b.totalBytesRead then
      if q.ignoreReadData then s.flushBufferedFrames p r else s.onDataAvailable p r
    else s

/-- `QuicStreamSequencer::OnStreamFrame`. -/
def sequencerOnStreamFrame (f : StreamFrame) (r : Reaction) : Session :=
  let s := if f.fin then s.closeStreamAtOffset p f.stop r else s
  if f.fin && decide (f.dataLength = 0) then s else s.onStreamData p f r

/-- `SetUnblocked`. -/
def setUnblocked (r : Reaction) : Session :=
  let s := s.modify p fun st => { st with sequencer := { st.sequencer with blocked := false } }
  let q := (s.streams p).sequencer
  if q.isClosed || decide (0 < q.buffer.readableBytes) then s.onDataAvailable p r else s

/-- `StopReading`, which `QuicSpdyServerStreamBase` overrides. -/
def stopReading (r : Reaction) : Session :=
  let st := s.streams p
  let s :=
    if s.isServer && !st.finReceived && !st.rstReceived && st.writeSideClosed && !st.rstSent then
      s.reset p
    else s
  if (s.streams p).sequencer.ignoreReadData then s
  else
    (s.modify p fun st =>
      { st with sequencer := { st.sequencer with ignoreReadData := true } }).flushBufferedFrames p r

/-! ## A stream -/

/-- `MaybeIncreaseHighestReceivedOffset`, if the offset has increased. -/
def increaseHighestReceivedOffset (offset : ℕ) : Session :=
  let c := (s.streams p).flowController
  let increment := wrapSub offset c.highestReceivedByteOffset
  let st := s.streams p
  let s := s.modify p fun st =>
    { st with flowController := c.updateHighestReceivedOffset offset }
  if st.isStatic then s
  else
    { s with
      flowController := s.flowController.updateHighestReceivedOffset
        (wrapAdd s.flowController.highestReceivedByteOffset increment) }

/-- `MaybeIncreaseHighestReceivedOffset`. -/
def maybeIncreaseHighestReceivedOffset (offset : ℕ) : Session :=
  if offset ≤ (s.streams p).flowController.highestReceivedByteOffset then s
  else s.increaseHighestReceivedOffset p offset

/-- `FlowControlViolation` of the stream or of the connection. -/
def flowControlViolation : Bool :=
  (s.streams p).flowController.flowControlViolation || s.flowController.flowControlViolation

/-- The `DCHECK` of `QuicStream::OnStreamFrame`. -/
def assertOpen : Session :=
  if (s.streams p).readSideClosed && (s.streams p).writeSideClosed then s.abort else s

/-- The part of `QuicStream::OnStreamFrame` that marks a FIN. -/
def receiveFin : Session :=
  let s := s.modify p fun st => { st with finReceived := true }
  if (s.streams p).finSent then s.streamDraining (s.streams p).id else s

/-- `QuicStream::OnStreamFrame`. -/
def streamOnStreamFrame (f : StreamFrame) (r : Reaction) : Session :=
  let s := s.assertOpen p
  let s := if f.fin then s.receiveFin p else s
  if (s.streams p).readSideClosed then s
  else if f.dataLength ≠ 0 ∧
      (s.streams p).flowController.highestReceivedByteOffset < f.stop then
    -- The highest received offset has changed: check for a violation of flow control.
    let s := s.increaseHighestReceivedOffset p f.stop
    if s.flowControlViolation p then s.closeConnection else s.sequencerOnStreamFrame p f r
  else s.sequencerOnStreamFrame p f r

/-- `QuicSpdyStream::OnStreamReset`, and `QuicStream::OnStreamReset` for an error. -/
def onStreamReset (f : RstStreamFrame) : Session :=
  let s := s.modify p fun st => { st with rstReceived := true }
  let s := (s.maybeIncreaseHighestReceivedOffset p f.byteOffset.toNat).closeWriteSide p
  if f.noError then s else s.closeReadSide p

/-- `QuicSpdyStream::OnInitialHeadersComplete`. -/
def onInitialHeadersComplete (fin : Bool) (headers : List Header) (r : Reaction) : Session :=
  let s := s.modify p fun st =>
    { st with headersDecompressed := true, headerListEmpty := headers.isEmpty }
  let s := if fin then s.streamOnStreamFrame p ⟨(s.streams p).id, true, 0, 0⟩ r else s
  if (s.streams p).finishedReadingHeaders then s.setUnblocked p r else s

/-- `QuicSpdyStream::OnTrailingHeadersComplete`. -/
def onTrailingHeadersComplete (fin : Bool) (headers : List Header) (r : Reaction) : Session :=
  if (s.streams p).finReceived then s.closeConnection
  else if !fin then s.closeConnection
  else
    match copyAndValidateTrailers none headers with
    | none => s.closeConnection
    | some offset =>
      (s.modify p fun st => { st with trailersDecompressed := true }).streamOnStreamFrame p
        ⟨(s.streams p).id, true, offset, 0⟩ r

/-- `QuicSpdyStream::OnStreamHeaderList`.  An empty list is one that was too large. -/
def streamOnStreamHeaderList (fin : Bool) (headers : List Header) (r : Reaction) : Session :=
  let s := if headers.isEmpty then s.reset p else s
  if headers.isEmpty && (s.streams p).isDoneReading then s
  else if !(s.streams p).headersDecompressed then s.onInitialHeadersComplete p fin headers r
  else s.onTrailingHeadersComplete p fin headers r

/-- `ConsumeHeaderList`. -/
def consumeHeaderList (r : Reaction) : Session :=
  let s := s.modify p fun st => { st with headerListEmpty := true }
  if (s.streams p).finishedReadingHeaders then s.setUnblocked p r else s

/-! ## Making streams -/

/-- A new object is made and activated. -/
def activateStream (writeSideClosed : Bool) : Session :=
  { s with
    streams := Function.update s.streams s.numStreams
      (s.config.newStream id false writeSideClosed)
    numStreams := s.numStreams + 1
    tables := s.tables.activateStream id s.numStreams }

/-- `MaybeIncreaseLargestPeerStreamId`. -/
def maybeIncreaseLargestPeerStreamId : Bool × Session :=
  if id ≤ s.tables.largestPeerCreatedStreamId then (true, s)
  else if s.config.maxOpenIncomingStreams * kMaxAvailableStreamsMultiplier <
      s.tables.availableStreams.card + ((id - s.tables.largestPeerCreatedStreamId) / 2 - 1) then
    (false, s.closeConnection)
  else (true, { s with tables := s.tables.skipTo id })

/-- `CreateIncomingDynamicStream`, with `ShouldCreateIncomingDynamicStream`.  The handle is
that of the new stream. -/
def createIncomingDynamicStream : Option ℕ × Session :=
  let s := { s with tables := { s.tables with created := id :: s.tables.created } }
  if !s.connected then (none, s)
  else
    match s.config.perspective with
    | .client =>
      if s.goawayReceived then (none, s)
      else if id % 2 ≠ 0 then (none, s.closeConnection)
      else (some s.numStreams, s.activateStream id true)
    | .server =>
      if id % 2 = 0 then (none, s.closeConnection)
      else (some s.numStreams, s.activateStream id false)

/-- `GetOrCreateDynamicStream`; that the id is not 0 is asserted by `IsClosedStream`. -/
def getOrCreateDynamicStream : Option ℕ × Session :=
  if isStaticId id then (none, s.abort)
  else
    match s.findDynamic id with
    | some p => (some p, s)
    | none =>
      if id = 0 then (none, s.abort)
      else if s.tables.isClosedStream id then (none, s)
      else if !s.tables.isIncomingStream id then (none, s.closeConnection)
      else
        let s := { s with
          tables := { s.tables with availableStreams := s.tables.availableStreams.erase id } }
        let r := s.maybeIncreaseLargestPeerStreamId id
        if !r.1 then (none, r.2)
        else if r.2.config.maxOpenIncomingStreams ≤ r.2.tables.getNumOpenIncomingStreams then
          -- Refuse to open the stream.
          (none, r.2.sendRstStream id)
        else r.2.createIncomingDynamicStream id

/-- `GetOrCreateStream`. -/
def getOrCreateStream : Option ℕ × Session :=
  if id = 1 then (some 0, s) else if id = 3 then (some 1, s) else s.getOrCreateDynamicStream id

/-- `ShouldCreateOutgoingDynamicStream`, once encryption is established. -/
def shouldCreateOutgoingDynamicStream : Bool :=
  if s.config.maxOpenOutgoingStreams ≤ s.tables.getNumOpenOutgoingStreams then false
  else
    match s.config.perspective with
    | .client => !s.goawayReceived
    | .server => s.connected

/-- `CreateOutgoingDynamicStream`. -/
def createOutgoingDynamicStream : Session :=
  if s.shouldCreateOutgoingDynamicStream then
    let id := s.tables.nextOutgoingStreamId
    { s with tables := { s.tables with nextOutgoingStreamId := id + 2 } }.activateStream id false
  else s

/-! ## The session -/

/-- `OnFinalByteOffsetReceived`. -/
def onFinalByteOffsetReceived (offset : ℕ) : Session :=
  match valueAt id s.tables.locallyClosedStreams with
  | none => s
  | some recorded =>
    let offsetDiff := wrapSub offset recorded
    let highest := wrapAdd s.flowController.highestReceivedByteOffset offsetDiff
    let increased := decide (s.flowController.highestReceivedByteOffset < highest)
    let s := { s with flowController := s.flowController.updateHighestReceivedOffset highest }
    if increased && s.flowController.flowControlViolation then s.closeConnection
    else
      { s with
        flowController := (s.flowController.addBytesConsumed s.environment offsetDiff).1
        tables := s.tables.eraseLocallyClosed id
        aborted := s.aborted || !s.flowController.canConsume offsetDiff }

/-- `QuicSession::OnStreamFrame`; a server takes no data on streams of its own. -/
def onStreamFrame (f : StreamFrame) (r : Reaction) : Session :=
  if s.isServer && !s.tables.isIncomingStream f.streamId then s.closeConnection
  else
    match s.getOrCreateStream f.streamId with
    | (some p, s) => s.streamOnStreamFrame p f r
    | (none, s) => if f.fin then s.onFinalByteOffsetReceived f.streamId f.stop else s

/-- `OnRstStream`, with `HandleRstOnValidNonexistentStream`. -/
def onRstStream (f : RstStreamFrame) : Session :=
  if isStaticId f.streamId then s.closeConnection
  else
    match s.getOrCreateDynamicStream f.streamId with
    | (some p, s) => s.onStreamReset p f
    | (none, s) =>
      if s.tables.isClosedStream f.streamId then
        s.onFinalByteOffsetReceived f.streamId f.byteOffset.toNat
      else s

/-- The loop of `QuicSpdySession::OnStreamHeaderList` for a stream that no longer exists. -/
def onTrailersOfClosed : List Header → Session → Session
  | [], s => s
  | .finalOffset none :: _, s => s.closeConnection
  | .finalOffset (some offset) :: l, s =>
    onTrailersOfClosed l (s.onFinalByteOffsetReceived id offset.toNat)
  | .plain :: l, s => onTrailersOfClosed l s
  | .malformed :: l, s => onTrailersOfClosed l s

/-- `QuicSpdySession::OnStreamHeaderList`.  A server has looked the stream up before, in
`OnStreamHeadersPriority`, which makes no difference. -/
def onStreamHeaderList (fin : Bool) (headers : List Header) (r : Reaction) : Session :=
  match s.getOrCreateDynamicStream id with
  | (some p, s) => s.streamOnStreamHeaderList p fin headers r
  | (none, s) => onTrailersOfClosed id headers s

end Session

end Streams
end QuicNs3
