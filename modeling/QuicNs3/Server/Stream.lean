/-
# A stream of the server

Model of `QuicSimpleServerStream` (`net/tools/quic/quic_simple_server_stream.cc`) with what
it uses of `QuicSpdyStream`, `QuicStream` and `QuicStreamSequencer`
(`net/quic/core/quic_spdy_stream.cc`, `quic_stream.cc`, `quic_stream_sequencer.cc`): how
headers, data and FINs come in, and which responses go out.

`writes` keeps what has been written on the stream: a header block, which goes out on the
headers stream, or data that was sent or buffered.  Data that `WriteOrBufferData` refuses
is not written; `WriteHeaders` refuses nothing.  Whether the connection takes the FIN at
once is up to the connection (`sent`); if not, it takes it later (`canWrite`).

Of the body only the size is ever looked at.  Data is read in blocks of the sequencer's
buffer.  A stream is in the map of its session until both its sides are closed, and gets
nothing after that.  Responses have no trailers.

Left out is flow control; a frame beyond its window closes the connection.  A reset by the
peer and a write error close the stream, too, and are no deliveries.
-/

import QuicNs3.Lib.Run
import QuicNs3.Server.Headers
import QuicNs3.Streams.Sequencer

namespace QuicNs3
namespace Server

open Lib Streams

/-- A write on the stream. -/
inductive Write
  | headers (block : HeaderBlock) (fin : Bool)
  | data (bytes : List Int8) (fin : Bool)
  deriving Repr, DecidableEq

namespace Write

def isHeaders : Write → Bool
  | headers _ _ => true
  | data _ _ => false

def fin : Write → Bool
  | headers _ fin => fin
  | data _ fin => fin

end Write

/-- The writes of `SendHeadersAndBody`: a FIN goes with the headers if there is no
body. -/
def Response.writes (r : Response) : List Write :=
  if r.body.isEmpty then [.headers r.headers true]
  else [.headers r.headers false, .data r.body true]

/-- `kBlockSizeBytes`. -/
def kBlockSizeBytes : ℕ := 8 * 1024

/-- `QuicSimpleServerStream`. -/
structure SimpleServerStream where
  sequencer : Sequencer
  headersDecompressed : Bool
  requestHeaders : HeaderBlock
  contentLength : ℤ
  bodySize : ℕ
  finReceived : Bool
  readSideClosed : Bool
  writeSideClosed : Bool
  finBuffered : Bool
  finSent : Bool
  writes : List Write
  deriving Repr, DecidableEq

namespace SimpleServerStream

/-- A new stream, which reads nothing before its headers. -/
def new : SimpleServerStream where
  sequencer := .new true
  headersDecompressed := false
  requestHeaders := []
  contentLength := -1
  bodySize := 0
  finReceived := false
  readSideClosed := false
  writeSideClosed := false
  finBuffered := false
  finSent := false
  writes := []

/-! ## Writing -/

/-- `CloseReadSide`. -/
def closeReadSide (s : SimpleServerStream) : SimpleServerStream :=
  if s.readSideClosed then s
  else { s with readSideClosed := true, sequencer := s.sequencer.releaseBuffer }

/-- `CloseWriteSide`. -/
def closeWriteSide (s : SimpleServerStream) : SimpleServerStream :=
  { s with writeSideClosed := true }

/-- `OnClose`, after `Reset` or with the connection. -/
def onClose (s : SimpleServerStream) : SimpleServerStream := s.closeReadSide.closeWriteSide

/-- `QuicSpdyStream::WriteHeaders`. -/
def writeHeaders (s : SimpleServerStream) (block : HeaderBlock) (fin : Bool) :
    SimpleServerStream :=
  let s := { s with writes := s.writes ++ [.headers block fin] }
  if fin then { s with finSent := true }.closeWriteSide else s

/-- `WriteOrBufferData`. -/
def writeOrBufferData (s : SimpleServerStream) (sent : Bool) (data : List Int8) (fin : Bool) :
    SimpleServerStream :=
  if data.isEmpty && !fin then s
  else if s.finBuffered then s
  else if s.writeSideClosed then s
  else
    let s := { s with finBuffered := fin, writes := s.writes ++ [.data data fin] }
    if fin && sent then { s with finSent := true }.closeWriteSide else s

/-- `SendHeadersAndBody`, which is `SendHeadersAndBodyAndTrailers` with no trailers. -/
def sendHeadersAndBody (s : SimpleServerStream) (sent : Bool) (r : Response) :
    SimpleServerStream :=
  let sendFin := r.body.isEmpty
  let s := s.writeHeaders r.headers sendFin
  if sendFin then s else s.writeOrBufferData sent r.body true

/-- `SendErrorResponse`. -/
def sendErrorResponse (s : SimpleServerStream) (sent : Bool) : SimpleServerStream :=
  s.sendHeadersAndBody sent Server.sendErrorResponse

/-- `SendResponse`. -/
def sendResponse (s : SimpleServerStream) (sent : Bool) : Option SimpleServerStream :=
  (Server.sendResponse s.requestHeaders s.contentLength (List.replicate s.bodySize 0)).map
    (s.sendHeadersAndBody sent)

/-- `OnCanWrite`: the buffered FIN is taken. -/
def onCanWrite (s : SimpleServerStream) : SimpleServerStream :=
  if s.finBuffered && !s.finSent && !s.writeSideClosed then
    { s with finSent := true }.closeWriteSide
  else s

/-! ## Reading -/

/-- The loop of `OnDataAvailable`, for at most `fuel` regions, and whether it has found the
body larger than the content length.  The region that made it so is not consumed. -/
def readLoop : ℕ → SimpleServerStream → Bool × SimpleServerStream
  | 0, s => (false, s)
  | fuel + 1, s =>
    let b := s.sequencer.buffer
    if b.readableBytes = 0 then (false, s)
    else
      let length := min b.readableBytes (kBlockSizeBytes - b.totalBytesRead % kBlockSizeBytes)
      let s := { s with bodySize := s.bodySize + length }
      if 0 ≤ s.contentLength ∧ s.contentLength < s.bodySize then (true, s)
      else
        readLoop fuel { s with sequencer := { s.sequencer with buffer := b.markConsumed length } }

/-- `OnDataAvailable` behind its loop.  Where it unblocks the sequencer, that has nothing
more to hand over. -/
def onBodyRead (s : SimpleServerStream) (sent : Bool) : Option SimpleServerStream :=
  if !s.sequencer.isClosed then
    some { s with sequencer := { s.sequencer with blocked := false } }
  else
    let s := { s with finReceived := true }.closeReadSide
    if s.writeSideClosed || s.finBuffered then some s else s.sendResponse sent

/-- `OnDataAvailable`. -/
def onDataAvailable (s : SimpleServerStream) (sent : Bool) : Option SimpleServerStream :=
  let r := s.readLoop s.sequencer.buffer.readableBytes
  if r.1 then some (r.2.sendErrorResponse sent) else r.2.onBodyRead sent

/-- `MaybeCloseStream`. -/
def maybeCloseStream (s : SimpleServerStream) (sent : Bool) : Option SimpleServerStream :=
  if s.sequencer.blocked || !s.sequencer.isClosed then some s
  else
    (s.onDataAvailable sent).map fun s => { s with sequencer := s.sequencer.releaseBuffer }

/-- `CloseStreamAtOffset`; a second offset that differs resets the stream. -/
def closeStreamAtOffset (s : SimpleServerStream) (sent : Bool) (offset : ℕ) :
    Option SimpleServerStream :=
  if s.sequencer.closeOffset ≠ kMaxOffset ∧ offset ≠ s.sequencer.closeOffset then some s.onClose
  else
    { s with sequencer := { s.sequencer with closeOffset := offset } }.maybeCloseStream sent

/-- `QuicStreamSequencer::OnStreamFrame`, from `OnStreamData` on. -/
def onStreamData (s : SimpleServerStream) (sent : Bool) (offset length : ℕ) :
    Option SimpleServerStream :=
  match s.sequencer.buffer.onStreamData offset length with
  | .error _ => some s.onClose
  | .duplicate => some s
  | .invalid => some { s with sequencer := { s.sequencer with strayed := true } }
  | .buffered b =>
    let s := { s with sequencer := { s.sequencer with buffer := b } }
    if s.sequencer.blocked then some s
    else if offset = b.totalBytesRead then s.onDataAvailable sent
    else some s

/-- `QuicStream::OnStreamFrame`. -/
def onStreamFrame (s : SimpleServerStream) (sent : Bool) (offset length : ℕ) (fin : Bool) :
    Option SimpleServerStream :=
  let s := if fin then { s with finReceived := true } else s
  if s.readSideClosed then some s
  else do
    let s ← if fin then s.closeStreamAtOffset sent (wrapAdd offset length) else some s
    if fin && length == 0 then some s else s.onStreamData sent offset length

/-- `SetUnblocked`. -/
def setUnblocked (s : SimpleServerStream) (sent : Bool) : Option SimpleServerStream :=
  let s := { s with sequencer := { s.sequencer with blocked := false } }
  if s.sequencer.isClosed || decide (0 < s.sequencer.buffer.readableBytes) then
    s.onDataAvailable sent
  else some s

/-! ## Headers -/

/-- The headers are validated, and a block that is not valid is answered. -/
def readHeaders (s : SimpleServerStream) (sent : Bool) (headers : HeaderBlock) :
    SimpleServerStream :=
  let v := copyAndValidateHeaders s.contentLength s.requestHeaders headers
  let s := { s with contentLength := v.contentLength, requestHeaders := v.headers }
  if v.valid then s else s.sendErrorResponse sent

/-- `OnInitialHeadersComplete`, that of `QuicSpdyStream` first.  The last step is
`ConsumeHeaderList`. -/
def onInitialHeadersComplete (s : SimpleServerStream) (sent fin : Bool) (headers : HeaderBlock) :
    Option SimpleServerStream :=
  let s := { s with headersDecompressed := true }
  (if fin then s.onStreamFrame sent 0 0 true else some s).bind fun s =>
    (if headers.isEmpty then s.setUnblocked sent else some s).bind fun s =>
      (s.readHeaders sent headers).setUnblocked sent

/-- `OnTrailingHeadersComplete`. -/
def onTrailingHeadersComplete (s : SimpleServerStream) (sent : Bool) : SimpleServerStream :=
  s.sendErrorResponse sent

/-- `IsDoneReading`; trailers are never read. -/
def isDoneReading (s : SimpleServerStream) : Bool :=
  s.headersDecompressed && s.sequencer.isClosed && s.finReceived

/-- `OnStreamHeaderList`.  An empty list is one that was too large. -/
def onStreamHeaderList (s : SimpleServerStream) (sent fin : Bool) (headers : HeaderBlock) :
    Option SimpleServerStream :=
  let s := if headers.isEmpty then s.onClose else s
  if headers.isEmpty && s.isDoneReading then some s
  else if !s.headersDecompressed then s.onInitialHeadersComplete sent fin headers
  else some (s.onTrailingHeadersComplete sent)

end SimpleServerStream

/-- What is delivered to a stream. -/
inductive Delivery
  | headerList (sent fin : Bool) (headers : HeaderBlock)
  | streamFrame (sent : Bool) (offset length : ℕ) (fin : Bool)
  | canWrite
  deriving Repr, DecidableEq

namespace SimpleServerStream

/-- A delivery to a stream that is not closed. -/
def step (s : SimpleServerStream) (d : Delivery) : Option SimpleServerStream :=
  if s.readSideClosed && s.writeSideClosed then none
  else
    match d with
    | .headerList sent fin headers => s.onStreamHeaderList sent fin headers
    | .streamFrame sent offset length fin => s.onStreamFrame sent offset length fin
    | .canWrite => some s.onCanWrite

end SimpleServerStream

end Server
end QuicNs3
