/-
# Closing streams

Model of how a server session closes its streams: `CloseStreamInner`, `SendRstStream` and
`OnConnectionClosed` of `net/quic/core/quic_session.cc`, what a stream does when it is reset or
closed (`net/quic/core/quic_stream.cc`, `net/tools/quic/quic_spdy_server_stream_base.cc`), and
what the connection does when a write fails or when it is closed
(`net/quic/core/quic_connection.cc`).

These functions call each other.  `CloseStreamInner` takes a stream out of the map and calls
its `OnClose`, which closes both sides, sends a reset and may send a window update; each of
them may call `CloseStreamInner` again, and each write may fail and close the connection,
which closes all streams from inside.  Only after that `CloseStreamInner` appends its record
to the log.  So a call is a constructor of `Call`, and `body` is what it does, given what the
calls it makes do.

The outcomes of the packets each write sends are inputs: `script` has a list of them for every
write that is made.  Of a stream only the flags matter that decide what is closed; the stream
outlives its entry in the map, and its flags with it.  `removed` records, and nothing reads it,
which streams were taken out of the map, and a record of the log is the stream it is for.

Not in the model: packets written out of order, since packet numbers grow; the visitor of a
stream, which a server does not set; and push promises, since the server stream does not send
the responses that would make them, so that closing a stream opens no other one.
-/

import QuicNs3.Lib.Reentry
import QuicNs3.Lib.Run

namespace QuicNs3
namespace Closing

open Lib

/-- What becomes of a packet. -/
inductive Outcome
  /-- It is written, or queued. -/
  | ok
  /-- The writer reports that it is too big. -/
  | tooBig
  /-- The writer reports another error. -/
  | failed
  /-- It could not be encrypted. -/
  | notSerialized
  deriving Repr, DecidableEq

/-- The flags of a stream. -/
structure Stream where
  readSideClosed : Bool
  writeSideClosed : Bool
  finSent : Bool
  rstSent : Bool
  finReceived : Bool
  rstReceived : Bool
  /-- `ignore_read_data_` of the sequencer. -/
  ignoreReadData : Bool
  deriving Repr, DecidableEq

/-- A new stream. -/
def Stream.new : Stream := ⟨false, false, false, false, false, false, false⟩

/-- A server session with its connection. -/
structure Session where
  stream : ℕ → Stream
  /-- `dynamic_stream_map_`, in the order of its iterators. -/
  dynamicStreamMap : List ℕ
  connected : Bool
  writeErrorOccurred : Bool
  script : List (List Outcome)
  log : List ℕ
  removed : List ℕ

/-- The calls, named after the functions. -/
inductive Call
  /-- `QuicSession::CloseStreamInner`. -/
  | closeStreamInner (id : ℕ) (locallyReset : Bool)
  /-- `QuicSession::SendRstStream`. -/
  | sendRstStream (id : ℕ)
  /-- `QuicSession::OnConnectionClosed`. -/
  | onConnectionClosed
  /-- `QuicStream::OnClose`. -/
  | onClose (id : ℕ)
  /-- `QuicStream::CloseReadSide`. -/
  | closeReadSide (id : ℕ)
  /-- `QuicStream::CloseWriteSide`. -/
  | closeWriteSide (id : ℕ)
  /-- `QuicSpdyServerStreamBase::CloseWriteSide`. -/
  | serverCloseWriteSide (id : ℕ)
  /-- `QuicStream::Reset`. -/
  | reset (id : ℕ)
  /-- `QuicStream::AddBytesConsumed`. -/
  | addBytesConsumed (id : ℕ)
  /-- `QuicStream::OnConnectionClosed`. -/
  | streamOnConnectionClosed (id : ℕ)
  /-- `QuicSpdyStream::OnStreamReset`, with the error of the frame. -/
  | onStreamReset (id : ℕ) (noError : Bool)
  /-- `QuicStream::OnFinRead`. -/
  | onFinRead (id : ℕ)
  /-- `QuicSpdyServerStreamBase::StopReading`, and whether all was received. -/
  | stopReading (id : ℕ) (isClosed : Bool)
  /-- `QuicStream::WritevData`, whether the FIN is consumed, and whether more is sent than
  the window allows. -/
  | writevData (id : ℕ) (finConsumed tooMuch : Bool)
  /-- A write of the connection, with all the packets it sends. -/
  | write
  /-- `QuicConnection::OnWriteError`. -/
  | onWriteError (tooBig : Bool)
  /-- `QuicConnection::CloseConnection`, with or without a packet. -/
  | closeConnection (sendPacket : Bool)
  /-- `QuicConnection::TearDownLocalConnectionState`. -/
  | tearDownLocalConnectionState
  deriving Repr, DecidableEq

namespace Session

/-- A session without streams. -/
def new : Session := ⟨fun _ => Stream.new, [], true, false, [], [], []⟩

/-- Change the flags of a stream. -/
def modify (s : Session) (id : ℕ) (f : Stream → Stream) : Session :=
  { s with stream := fun i => if i = id then f (s.stream i) else s.stream i }

/-- The crypto and the headers stream. -/
def isStatic (id : ℕ) : Bool := decide (id = 1 ∨ id = 3)

/-- `if (b) f();`. -/
def onlyIf (b : Bool) (f : Session → Option Session) (s : Session) : Option Session :=
  if b then f s else some s

/-- The loop of `OnConnectionClosed`, for at most so many streams. -/
def drain (call : Call → Session → Option Session) : ℕ → Session → Option Session
  | 0, s => if s.dynamicStreamMap.isEmpty then some s else none
  | n + 1, s =>
    match s.dynamicStreamMap with
    | [] => some s
    | id :: _ => do
      let s ← call (.streamOnConnectionClosed id) s
      -- The stream should call CloseStream as part of OnConnectionClosed.
      let s ← onlyIf (decide (id ∈ s.dynamicStreamMap)) (call (.closeStreamInner id false)) s
      drain call n s

/-- What a packet leads to. -/
def packet (call : Call → Session → Option Session) (s : Session) : Outcome → Option Session
  | .ok => some s
  | .tooBig => call (.onWriteError true) s
  | .failed => call (.onWriteError false) s
  | .notSerialized => call .tearDownLocalConnectionState s

/-- What a call does. -/
def body (call : Call → Session → Option Session) : Call → Session → Option Session
  | .closeStreamInner id locallyReset, s =>
    if id ∈ s.dynamicStreamMap then do
      let s := if locallyReset then s.modify id fun x => { x with rstSent := true } else s
      let s :=
        { s with
          dynamicStreamMap := s.dynamicStreamMap.erase id
          removed := s.removed ++ [id] }
      let s ← call (.onClose id) s
      some { s with log := s.log ++ [id] }
    else some s
  | .sendRstStream id, s =>
    if isStatic id then some s
    else do
      -- Only send a RST_STREAM frame if still connected.
      let s ← onlyIf s.connected (call .write) s
      call (.closeStreamInner id true) s
  | .onConnectionClosed, s => drain call s.dynamicStreamMap.length s
  | .onClose id, s => do
    let s ← call (.closeReadSide id) s
    let s ← call (.serverCloseWriteSide id) s
    let s ← onlyIf (!(s.stream id).finSent && !(s.stream id).rstSent)
      (fun s => (call (.sendRstStream id) s).map
        fun s => s.modify id fun x => { x with rstSent := true }) s
    call (.addBytesConsumed id) s
  | .closeReadSide id, s =>
    if (s.stream id).readSideClosed then some s
    else
      onlyIf (s.stream id).writeSideClosed (call (.closeStreamInner id false))
        (s.modify id fun x => { x with readSideClosed := true })
  | .closeWriteSide id, s =>
    if (s.stream id).writeSideClosed then some s
    else
      onlyIf (s.stream id).readSideClosed (call (.closeStreamInner id false))
        (s.modify id fun x => { x with writeSideClosed := true })
  | .serverCloseWriteSide id, s => do
    let x := s.stream id
    let s ← onlyIf (!x.finReceived && !x.rstReceived && x.ignoreReadData && !x.rstSent)
      (call (.reset id)) s
    call (.closeWriteSide id) s
  | .reset id, s =>
    (call (.sendRstStream id) s).map fun s => s.modify id fun x => { x with rstSent := true }
  | .addBytesConsumed id, s => do
    -- Only adjust stream level flow controller if still reading.
    let s ← onlyIf (!(s.stream id).readSideClosed) (call .write) s
    call .write s
  | .streamOnConnectionClosed id, s =>
    if (s.stream id).readSideClosed && (s.stream id).writeSideClosed then some s
    else do
      let s ← call (.serverCloseWriteSide id) s
      call (.closeReadSide id) s
  | .onStreamReset id noError, s => do
    let s ← call (.serverCloseWriteSide id) (s.modify id fun x => { x with rstReceived := true })
    onlyIf (!noError) (call (.closeReadSide id)) s
  | .onFinRead id, s =>
    call (.closeReadSide id) (s.modify id fun x => { x with finReceived := true })
  | .stopReading id isClosed, s => do
    let x := s.stream id
    let s ← onlyIf (!x.finReceived && !x.rstReceived && x.writeSideClosed && !x.rstSent)
      (call (.reset id)) s
    if (s.stream id).ignoreReadData then some s
    else do
      let s ← call (.addBytesConsumed id) (s.modify id fun x => { x with ignoreReadData := true })
      onlyIf isClosed (call (.onFinRead id)) s
  | .writevData id finConsumed tooMuch, s =>
    if (s.stream id).writeSideClosed then some s
    else do
      let s ← call .write s
      let s ← onlyIf tooMuch (call (.closeConnection true)) s
      -- The write may have generated a write error causing this stream to be closed.
      if (s.stream id).writeSideClosed then some s
      else do
        let s ← call .write s
        onlyIf finConsumed
          (fun s =>
            call (.serverCloseWriteSide id) (s.modify id fun x => { x with finSent := true })) s
  | .write, s =>
    match s.script with
    | [] => some s
    | outcomes :: script => outcomes.foldlM (packet call) { s with script := script }
  | .onWriteError tooBig, s =>
    if s.writeErrorOccurred then some s
    else
      let s := { s with writeErrorOccurred := true }
      -- We can't send an error as the socket is presumably borked.
      if tooBig then call (.closeConnection true) s else call .tearDownLocalConnectionState s
  | .closeConnection sendPacket, s =>
    if s.connected then do
      let s ← onlyIf sendPacket (call .write) s
      call .tearDownLocalConnectionState s
    else some s
  | .tearDownLocalConnectionState, s =>
    if s.connected then call .onConnectionClosed { s with connected := false } else some s

end Session

/-! ## Fuel -/

/-- How far the calls that a call makes itself are below it, where nothing else changes. -/
@[simp] def Call.rank : Call → ℕ
  | .closeStreamInner .. => 0
  | .tearDownLocalConnectionState => 0
  | .onWriteError _ => 0
  | .write => 1
  | .closeReadSide _ => 1
  | .closeWriteSide _ => 1
  | .closeConnection _ => 2
  | .addBytesConsumed _ => 2
  | .sendRstStream _ => 2
  | .onFinRead _ => 2
  | .reset _ => 3
  | .serverCloseWriteSide _ => 4
  | .stopReading .. => 4
  | .streamOnConnectionClosed _ => 5
  | .onStreamReset .. => 5
  | .writevData .. => 5
  | .onConnectionClosed => 6
  | .onClose _ => 6

/-- What can still happen once: the streams that can be closed, the connection that can be
closed, and the first write error. -/
def Session.load (s : Session) : ℕ :=
  s.dynamicStreamMap.length + s.connected.toNat + (!s.writeErrorOccurred).toNat

/-- The measure of the calls. -/
def Call.measure (c : Call) (s : Session) : ℕ := 7 * s.load + c.rank

/-! ## Operations -/

/-- What happens to a session, from outside. -/
inductive Op
  /-- `ActivateStream`; the map may order its entries anew. -/
  | activateStream (id : ℕ) (order : List ℕ)
  | closeStream (id : ℕ)
  | sendRstStream (id : ℕ)
  /-- `OnRstStream` for a stream of the map. -/
  | onRstStream (id : ℕ) (noError : Bool)
  | reset (id : ℕ)
  | onFinRead (id : ℕ)
  | stopReading (id : ℕ) (isClosed : Bool)
  | addBytesConsumed (id : ℕ)
  | writevData (id : ℕ) (finConsumed tooMuch : Bool)
  /-- Any other write of the connection. -/
  | write
  | closeConnection (sendPacket : Bool)
  /-- The peer closes the connection. -/
  | onConnectionCloseFrame
  deriving Repr, DecidableEq

/-- The call an operation makes. -/
def Op.call : Op → Option Call
  | .activateStream .. => none
  | .closeStream id => some (.closeStreamInner id false)
  | .sendRstStream id => some (.sendRstStream id)
  | .onRstStream id noError => some (.onStreamReset id noError)
  | .reset id => some (.reset id)
  | .onFinRead id => some (.onFinRead id)
  | .stopReading id isClosed => some (.stopReading id isClosed)
  | .addBytesConsumed id => some (.addBytesConsumed id)
  | .writevData id finConsumed tooMuch => some (.writevData id finConsumed tooMuch)
  | .write => some .write
  | .closeConnection sendPacket => some (.closeConnection sendPacket)
  | .onConnectionCloseFrame => some .tearDownLocalConnectionState

namespace Session

/-- A call, with these outcomes of its writes. -/
def perform (s : Session) (c : Call) (script : List (List Outcome)) : Option Session :=
  exec body (c.measure s + 1) c { s with script := script }

/-- `ActivateStream`. -/
def activateStream (s : Session) (id : ℕ) (order : List ℕ) : Option Session :=
  if id ∉ s.dynamicStreamMap ∧ id ∉ s.removed ∧ isStatic id = false ∧
      order.Perm (id :: s.dynamicStreamMap) then
    some { s.modify id fun _ => Stream.new with dynamicStreamMap := order }
  else none

/-- One operation, with the outcomes of its writes. -/
def step (s : Session) : Op × List (List Outcome) → Option Session
  | (.activateStream id order, _) => s.activateStream id order
  | (.onRstStream id noError, script) =>
    if id ∈ s.dynamicStreamMap then s.perform (.onStreamReset id noError) script else some s
  | (op, script) => op.call.bind fun c => s.perform c script

end Session

end Closing
end QuicNs3
