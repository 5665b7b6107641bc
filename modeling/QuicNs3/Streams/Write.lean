/-
# Writing

`WriteOrBufferData`, `OnCanWrite` and `WritevData`, with what `QuicSpdyStream` adds for
headers and trailers, and the operations of a session (`Op`, `Session.step`).

A write is offered to the connection in `WritevDataInner`.  What comes of it is an
`Answer`: the stream may have to yield, and otherwise the connection consumes some of
the bytes, the FIN only if it has consumed them all, and may close on a write error.
An answer that takes more than was offered takes what was offered.
-/

import QuicNs3.Streams.Receive

namespace QuicNs3
namespace Streams

open Lib

/-- The outcome of a write. -/
structure Answer where
  /-- `ShouldYield`. -/
  shouldYield : Bool
  bytes : ℕ
  fin : Bool
  /-- The write has closed the connection. -/
  writeError : Bool
  deriving Repr, DecidableEq

/-- The answer of a connection that cannot write. -/
def Answer.nothing : Answer := ⟨false, 0, false, false⟩

/-- `QuicConsumedData`. -/
structure ConsumedData where
  bytesConsumed : ℕ
  finConsumed : Bool
  deriving Repr, DecidableEq

namespace Session

variable (s : Session) (p id : ℕ)

/-- Change what the stream `p` keeps for writing. -/
def modifyOutgoing (f : Outgoing → Outgoing) : Session :=
  s.modify p fun st => { st with outgoing := f st.outgoing }

/-- What flow control permits to be written. -/
def sendWindow : ℕ :=
  let window := (s.streams p).outgoing.flowController.sendWindowSize
  if (s.streams p).isStatic then window else min window s.sendController.sendWindowSize

/-- `QuicStream::MaybeSendBlocked`. -/
def maybeSendBlocked : Session :=
  let s := s.modifyOutgoing p fun o =>
    { o with flowController := o.flowController.maybeSendBlocked }
  if (s.streams p).isStatic then s
  else { s with sendController := s.sendController.maybeSendBlocked }

/-- A flow controller has counted more bytes than it allows. -/
def closeIfTooMuch (tooMuch : Bool) : Session :=
  if tooMuch then { s with sentTooMuch := true }.closeConnection else s

/-- `QuicStream::AddBytesSent`. -/
def addBytesSent (bytes : ℕ) : Session :=
  let r := (s.streams p).outgoing.flowController.addBytesSent bytes
  let s := (s.modifyOutgoing p fun o => { o with flowController := r.2 }).closeIfTooMuch r.1
  if (s.streams p).isStatic then s
  else
    let r := s.sendController.addBytesSent bytes
    { s with sendController := r.2 }.closeIfTooMuch r.1

/-- `WritevDataInner`, and what `WritevData` counts after it. -/
def writevDataInner (data : List UInt8) (fin : Bool) (a : Answer) : ConsumedData × Session :=
  let bytes := min a.bytes data.length
  let consumed : ConsumedData := ⟨bytes, fin && a.fin && decide (bytes = data.length)⟩
  let s := if a.writeError then s.closeConnection else s
  let s := s.modifyOutgoing p fun o =>
    { o with
      streamBytesWritten := o.streamBytesWritten + bytes
      handOvers := o.handOvers ++ [⟨o.streamBytesWritten, data, fin, bytes, consumed.finConsumed⟩] }
  (consumed, s.addBytesSent p bytes)

/-- The part of `WritevData` after a FIN has been consumed. -/
def sendFin : Session :=
  let s := s.modify p fun st => { st with finSent := true }
  let s := if (s.streams p).finReceived then s.streamDraining (s.streams p).id else s
  s.closeWriteSide p

/-- `WritevData`. -/
def writevData (data : List UInt8) (fin : Bool) (a : Answer) : ConsumedData × Session :=
  if (s.streams p).writeSideClosed then (⟨0, false⟩, s)
  else
    let finWithZeroData := fin && data.isEmpty
    let window := s.sendWindow p
    if a.shouldYield then (⟨0, false⟩, s)
    else if window = 0 ∧ finWithZeroData = false then (⟨0, false⟩, s.maybeSendBlocked p)
    else
      -- Don't send the FIN unless all the data will be sent.
      let fin := fin && decide (data.length ≤ window)
      let data := data.take window
      let r := s.writevDataInner p data fin a
      let consumed := r.1
      let s := r.2
      -- The write may have generated a write error causing this stream to be closed.
      if (s.streams p).writeSideClosed then (consumed, s)
      else if consumed.bytesConsumed = data.length then
        let s := if finWithZeroData then s else s.maybeSendBlocked p
        (consumed, if consumed.finConsumed then s.sendFin p else s)
      else (consumed, s)

/-- The first part of `WriteOrBufferData`: the data is accepted. -/
def acceptData (data : List UInt8) (fin : Bool) : Session :=
  s.modifyOutgoing p fun o => { o with finBuffered := fin, accepted := o.accepted ++ data }

/-- The last part of `WriteOrBufferData`: if there's unconsumed data or an unconsumed
fin, queue it. -/
def bufferData (data : List UInt8) (fin : Bool) (consumed : ConsumedData) : Session :=
  if consumed.bytesConsumed < data.length ∨ (fin = true ∧ consumed.finConsumed = false) then
    s.modifyOutgoing p fun o =>
      { o with
        queuedDataBytes := o.queuedDataBytes + (data.drop consumed.bytesConsumed).length
        queuedData := o.queuedData ++ [⟨data.drop consumed.bytesConsumed, 0⟩] }
  else s

/-- `WriteOrBufferData`. -/
def writeOrBufferData (data : List UInt8) (fin : Bool) (a : Answer) : Session :=
  if data.isEmpty && !fin then s
  else if (s.streams p).outgoing.finBuffered then s
  else if (s.streams p).writeSideClosed then s
  else
    let s := s.acceptData p data fin
    let r :=
      if (s.streams p).outgoing.queuedData.isEmpty then s.writevData p data fin a
      else (⟨0, false⟩, s)
    r.2.bufferData p data fin r.1

/-- What `OnCanWrite` does with the chunk in front after a write: it is popped if all of
it is consumed, with the FIN if there is one. -/
def settleFront (remaining : ℕ) (fin : Bool) (consumed : ConsumedData) : Session :=
  s.modifyOutgoing p fun o =>
    { o with
      queuedDataBytes := o.queuedDataBytes - consumed.bytesConsumed
      queuedData :=
        if consumed.bytesConsumed = remaining ∧ fin = consumed.finConsumed then o.queuedData.tail
        else
          match o.queuedData with
          | [] => []
          | d :: l => { d with offset := d.offset + consumed.bytesConsumed } :: l }

/-- The loop of `QuicStream::OnCanWrite`, for at most `fuel` chunks. -/
def writeQueued : ℕ → Session → List Answer → Session
  | 0, s, _ => s
  | fuel + 1, s, as =>
    let o := (s.streams p).outgoing
    match o.queuedData with
    | [] => s
    | d :: l =>
      let fin := l.isEmpty && o.finBuffered
      if 0 < d.offset ∧ d.data.length ≤ d.offset then
        -- This should be impossible.
        s.modifyOutgoing p fun o => { o with beyondData := true }
      else
        let data := d.data.drop d.offset
        let r := s.writevData p data fin (as.headD .nothing)
        let s := r.2.settleFront p data.length fin r.1
        if r.1.bytesConsumed = data.length ∧ fin = r.1.finConsumed then writeQueued fuel s as.tail
        else s

/-- `OnCanWrite`.  Trailers, and hence a FIN, may have been sent ahead of queued body bytes. -/
def onCanWrite (as : List Answer) : Session :=
  let s := writeQueued p (s.streams p).outgoing.queuedData.length s as
  let st := s.streams p
  if !st.isStatic && st.outgoing.queuedData.isEmpty && st.finSent then s.closeWriteSide p else s

/-- `QuicStream::OnWindowUpdateFrame`. -/
def streamOnWindowUpdateFrame (offset : ℕ) (as : List Answer) : Session :=
  let r := (s.streams p).outgoing.flowController.updateSendWindowOffset offset
  let s := s.modifyOutgoing p fun o => { o with flowController := r.2 }
  if r.1 then s.onCanWrite p as else s

/-- `QuicSession::OnWindowUpdateFrame`. -/
def onWindowUpdateFrame (offset : UInt64) (as : List Answer) : Session :=
  if id = 0 then
    { s with sendController := (s.sendController.updateSendWindowOffset offset.toNat).2 }
  else
    match s.getOrCreateStream id with
    | (some p, s) => s.streamOnWindowUpdateFrame p offset.toNat as
    | (none, s) => s

/-- The handle of the headers stream. -/
def headersStream : ℕ := 1

/-- `QuicSpdyStream::WriteHeaders`; `frame` is the frame for the headers stream. -/
def writeHeaders (frame : List UInt8) (fin : Bool) (a : Answer) : Session :=
  let s := s.writeOrBufferData headersStream frame false a
  if fin then (s.modify p fun st => { st with finSent := true }).closeWriteSide p else s

/-- `WriteTrailers`. -/
def writeTrailers (frame : List UInt8) (a : Answer) : Session :=
  if (s.streams p).finSent then s
  else
    let s := s.writeOrBufferData headersStream frame false a
    let s := s.modify p fun st => { st with finSent := true }
    -- If there is still queued data then CloseWriteSide would cause it never to be sent.
    if (s.streams p).outgoing.queuedDataBytes = 0 then s.closeWriteSide p else s

end Session

/-! ## The operations of a session -/

/-- What the peer, the connection and the application do.  The application names a
stream by its handle. -/
inductive Op
  | streamFrame (f : StreamFrame) (r : Reaction)
  | rstStream (f : RstStreamFrame)
  | windowUpdate (id : ℕ) (offset : UInt64) (answers : List Answer)
  | headerList (id : ℕ) (fin : Bool) (headers : List Header) (r : Reaction)
  | goaway
  | closeConnection
  /-- `OnCanWrite` of a stream that was write blocked. -/
  | canWrite (p : ℕ) (answers : List Answer)
  | createOutgoing
  | write (p : ℕ) (data : List UInt8) (fin : Bool) (answer : Answer)
  | writeHeaders (p : ℕ) (frame : List UInt8) (fin : Bool) (answer : Answer)
  | writeTrailers (p : ℕ) (frame : List UInt8) (answer : Answer)
  | consumeHeaderList (p : ℕ) (r : Reaction)
  | markTrailersConsumed (p : ℕ)
  | markConsumed (p bytes : ℕ)
  | finRead (p : ℕ)
  | stopReading (p : ℕ) (r : Reaction)
  | reset (p : ℕ)
  deriving Repr, DecidableEq

/-- The stream id a frame of the peer names. -/
def Op.names : Op → Option ℕ
  | .streamFrame f _ => some f.streamId
  | .rstStream f => some f.streamId
  | .windowUpdate id _ _ => some id
  | .headerList id _ _ _ => some id
  | _ => none

/-- Whether the operation is a frame of the peer, which is processed only while the
connection is open. -/
def Op.isFrame (op : Op) : Bool := op.names.isSome || decide (op = .goaway)

namespace Session

/-- The stream `p` is in the map of dynamic streams. -/
def isDynamic (s : Session) (p : ℕ) : Bool := decide (p ∈ s.tables.dynamicStreams.map Prod.snd)

/-- The stream `p` is open: it is dynamic, or one of the two static ones. -/
def isOpen (s : Session) (p : ℕ) : Bool := decide (p < 2) || s.isDynamic p

/-- One operation, if it may be made.  The application uses open streams only, writes no
FIN on a static one, and reads a FIN where the sequencer is closed, as `OnFinRead`
asserts.  A session whose stream ids are used up makes no more streams. -/
def apply (s : Session) : Op → Option Session
  | .streamFrame f r => some (s.onStreamFrame f r)
  | .rstStream f => some (s.onRstStream f)
  | .windowUpdate id offset as => some (s.onWindowUpdateFrame id offset as)
  | .headerList id fin headers r => some (s.onStreamHeaderList id fin headers r)
  | .goaway => some { s with goawayReceived := true }
  | .closeConnection => some s.closeConnection
  | .canWrite p as => if s.isOpen p then some (s.onCanWrite p as) else none
  | .createOutgoing =>
    if s.tables.nextOutgoingStreamId + 2 < 2 ^ 32 then some s.createOutgoingDynamicStream else none
  | .write p data fin a =>
    if s.isDynamic p || (s.isOpen p && !fin) then some (s.writeOrBufferData p data fin a) else none
  | .writeHeaders p frame fin a =>
    if s.isDynamic p then some (s.writeHeaders p frame fin a) else none
  | .writeTrailers p frame a => if s.isDynamic p then some (s.writeTrailers p frame a) else none
  | .consumeHeaderList p r => if s.isDynamic p then some (s.consumeHeaderList p r) else none
  | .markTrailersConsumed p =>
    if s.isDynamic p then some (s.modify p fun st => { st with trailersConsumed := true }) else none
  | .markConsumed p bytes => if s.isOpen p then some (s.markConsumed p bytes) else none
  | .finRead p =>
    if s.isDynamic p && (s.streams p).sequencer.isClosed then some (s.onFinRead p) else none
  | .stopReading p r => if s.isDynamic p then some (s.stopReading p r) else none
  | .reset p => if s.isDynamic p then some (s.reset p) else none

/-- The time passes and, if the operation is a frame, the id it names is noted. -/
def arrive (s : Session) (op : Op) (e : Environment) : Session :=
  { s with
    environment := e
    tables :=
      { s.tables with
        named := match op.names with
          | none => s.tables.named
          | some id => insert id s.tables.named } }

/-- **One step of a session.**  There is none if a `DCHECK` fails in it. -/
def step (s : Session) (x : Op × Environment) : Option Session :=
  if x.1.isFrame && !s.connected then none
  else ((s.arrive x.1 x.2).apply x.1).filter fun t => !t.aborted

end Session

end Streams
end QuicNs3
