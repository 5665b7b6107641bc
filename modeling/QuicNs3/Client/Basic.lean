/-
# The event-driven client

Model of the ns-3 client and of what it drives: `utils/quic-client.cc`
(`QuicClient`), `net/tools/quic/quic_client_base.cc`,
`net/tools/quic/quic_spdy_client_base.cc` and
`net/tools/quic/quic_client_message_loop_network_helper.cc` (one record,
`ClientBase`), and `quic_chromium_packet_reader.cc`.

The socket has one receive callback.  `HandleRead` takes it off, reads one
datagram, and what it calls may put it back: `StartReading` does so where
`read_pending_` is not set, and the event loop calls `StartReading` where
`packet_reader_started_` is not set.

Three things are decided outside this component and are inputs here.

| input | what it stands for |
| --- | --- |
| `Outcome` | what `ProcessUdpPacket` does to the session it is called on |
| `Read.error` | a read of zero or fewer bytes |
| `Created` | how `Initialize` and `CryptoConnect` leave a new session |

A `Created` session has not been closed by a stateless reject, which is a message
of the server and so needs a datagram.  The flag
`enable_quic_stateless_reject_support` is on and `quic_refactor_stream_creation`
is off, as in `quic_flags_list.h`; requests carry no `:authority`, so the index
of push promises finds nothing for them.

Two things end the program (`aborted`).  `WaitForEvents` starts with
`DCHECK(connected())`, and a failed `DCHECK` is fatal (`base/logging.h`).
`QuicSpdyClientBase::OnClose`, which is run for every request's stream that is
closed, also when that is because the connection is, reads the header
`content-length` of the response whether or not it is there, and asserts that the
body is whole (`Server.onClose`).  Once aborted, the client takes no datagram.
-/

import QuicNs3.Server.Response

namespace QuicNs3
namespace Client

open Server (Response)

/-- The error a connection was closed with, as far as the client tells them apart. -/
inductive CloseError
  /-- `QUIC_CRYPTO_HANDSHAKE_STATELESS_REJECT`. -/
  | statelessReject
  | other
  deriving Repr, DecidableEq

/-- `connection()->connected()` and `session()->error()` of one session. -/
inductive Connection
  | connected
  | closed (error : CloseError)
  deriving Repr, DecidableEq

/-- The request of `QuicClient::SendRequest`: one header, and no body. -/
structure Request where
  maxBytes : ℕ
  deriving Repr, DecidableEq

/-- The current session, in what the client asks of it. -/
structure Session where
  connection : Connection
  /-- `IsEncryptionEstablished`. -/
  encryptionEstablished : Bool
  /-- `IsCryptoHandshakeConfirmed`. -/
  handshakeConfirmed : Bool
  /-- `GetNumSentClientHellos`. -/
  numSentClientHellos : ℕ
  /-- The streams of requests in `dynamic_stream_map_`: what each has received. -/
  active : List Response
  /-- The number of the server's streams in `dynamic_stream_map_`. -/
  pushed : ℕ
  /-- Below the limit of open streams, and no `GOAWAY` received. -/
  takesStreams : Bool
  /-- The requests sent on the streams of this session. -/
  sent : List Request
  deriving Repr, DecidableEq

/-- What `ProcessUdpPacket` does to a session that was connected. -/
structure Outcome where
  connection : Connection
  encryptionEstablished : Bool
  handshakeConfirmed : Bool
  numSentClientHellos : ℕ
  /-- For the streams of requests, in order: what each has received now, and whether
  it is finished.  A stream that is not listed has received nothing more. -/
  streams : List (Response × Bool)
  pushed : ℕ
  takesStreams : Bool
  deriving Repr, DecidableEq

/-- How `Initialize` and `CryptoConnect` leave a new session. -/
structure Created where
  connected : Bool
  encryptionEstablished : Bool
  numSentClientHellos : ℕ
  deriving Repr, DecidableEq

/-- What `Recv` returns for one datagram. -/
inductive Read
  | error
  | packet (outcome : Outcome)
  deriving Repr, DecidableEq

/-- One delivery: what is read, and how the sessions come out that are created
while it is handled. -/
structure Datagram where
  read : Read
  created : List Created
  deriving Repr, DecidableEq

namespace Session

def connected (s : Session) : Bool := s.connection = .connected

/-- `error() == QUIC_CRYPTO_HANDSHAKE_STATELESS_REJECT`. -/
def rejected (s : Session) : Bool := s.connection = .closed .statelessReject

/-- `CreateQuicClientSession` and `InitializeSession`. -/
def new (o : Created) : Session where
  connection := if o.connected then .connected else .closed .other
  encryptionEstablished := o.encryptionEstablished
  handshakeConfirmed := false
  numSentClientHellos := o.numSentClientHellos
  active := []
  pushed := 0
  takesStreams := true
  sent := []

/-- `num_active_requests`: the size of `dynamic_stream_map_`. -/
def numActiveRequests (s : Session) : ℕ := s.active.length + s.pushed

/-- What the streams of requests have received once a packet's frames are processed,
and whether they are to be closed: finished, or closed with the connection, by
`OnConnectionClosed`. -/
def closing (o : Outcome) : List Response → List (Response × Bool) → List (Response × Bool)
  | [], _ => []
  | r :: rs, [] => (r, o.connection ≠ .connected) :: closing o rs []
  | _ :: rs, (r, finished) :: us => (r, finished || o.connection ≠ .connected) :: closing o rs us

/-- `QuicConnection::ProcessUdpPacket`: a closed connection drops the packet. -/
def processUdpPacket (s : Session) (o : Outcome) : Session :=
  if s.connected then
    { connection := o.connection
      encryptionEstablished := o.encryptionEstablished
      handshakeConfirmed := o.handshakeConfirmed
      numSentClientHellos := o.numSentClientHellos
      active := ((closing o s.active o.streams).filter fun x => !x.2).map Prod.fst
      pushed := if o.connection = .connected then o.pushed else 0
      takesStreams := o.takesStreams
      sent := s.sent }
  else s

/-- The streams of requests that `ProcessUdpPacket` closes. -/
def closedByPacket (s : Session) (o : Outcome) : List Response :=
  if s.connected then ((closing o s.active o.streams).filter Prod.snd).map Prod.fst else []

/-- `QuicConnection::CloseConnection` with `QUIC_PEER_GOING_AWAY`. -/
def closeConnection (s : Session) : Session :=
  if s.connected then { s with connection := .closed .other, active := [], pushed := 0 } else s

/-- The streams of requests that `CloseConnection` closes. -/
def closedByClose (s : Session) : List Response := if s.connected then s.active else []

/-- `CreateClientStream` succeeds. -/
def canCreateStream (s : Session) : Bool :=
  s.connected && s.encryptionEstablished && s.takesStreams

/-- `CreateClientStream` and `stream->SendRequest`. -/
def sendOnStream (s : Session) (r : Request) : Session :=
  { s with active := s.active ++ [⟨[], []⟩], sent := s.sent ++ [r] }

end Session

/-- One of the streams makes `QuicSpdyClientBase::OnClose` end the program.
`QuicClient::SendRequest` has set `store_response_` before there is a stream. -/
def crashesOnClose (rs : List Response) : Bool :=
  rs.any fun r => Server.onClose r ≠ some true

/-- `QuicClientBase`, `QuicSpdyClientBase`, the network helper and its packet
reader. -/
structure ClientBase where
  session : Option Session
  /-- `data_to_resend_on_connect_`. -/
  dataToResendOnConnect : List Request
  connectedOrAttemptingConnect : Bool
  /-- Hellos of the sessions before the current one. -/
  numSentClientHellos : ℕ
  numStatelessRejectsReceived : ℕ
  /-- `connection_error_` is `QUIC_CRYPTO_TOO_MANY_REJECTS`. -/
  tooManyRejects : Bool
  initialized : Bool
  packetReaderStarted : Bool
  readPending : Bool
  /-- The socket's receive callback is `HandleRead`, not the null callback. -/
  recvCallback : Bool
  /-- The program has ended. -/
  aborted : Bool
  deriving Repr, DecidableEq

/-- `QuicCryptoClientStream::kMaxClientHellos`. -/
def kMaxClientHellos : ℕ := 3

namespace ClientBase

/-- The client after `Initialize`. -/
def initial : ClientBase where
  session := none
  dataToResendOnConnect := []
  connectedOrAttemptingConnect := false
  numSentClientHellos := 0
  numStatelessRejectsReceived := 0
  tooManyRejects := false
  initialized := true
  packetReaderStarted := false
  readPending := false
  recvCallback := false
  aborted := false

def connected (c : ClientBase) : Bool := c.session.any Session.connected

/-- There is a session, and its error is a stateless reject. -/
def rejected (c : ClientBase) : Bool := c.session.any Session.rejected

def encryptionBeingEstablished (c : ClientBase) : Bool :=
  c.session.any fun s => !s.encryptionEstablished && s.connected

/-- `GetNumSentClientHellosFromSession`. -/
def sessionHellos (c : ClientBase) : ℕ := c.session.elim 0 Session.numSentClientHellos

def getNumSentClientHellos (c : ClientBase) : ℕ :=
  c.numSentClientHellos + if c.connectedOrAttemptingConnect then c.sessionHellos else 0

def numActiveRequests (c : ClientBase) : ℕ := c.session.elim 0 Session.numActiveRequests

/-- `QuicChromiumPacketReader::StartReading`. -/
def startReading (c : ClientBase) : ClientBase :=
  if c.readPending then c else { c with readPending := true, recvCallback := true }

/-- `RunEventLoop`, which is `StartPacketReaderIfNotStarted`. -/
def runEventLoop (c : ClientBase) : ClientBase :=
  if c.packetReaderStarted then c else { c.startReading with packetReaderStarted := true }

/-- `QuicSpdyClientBase::SendRequest`, with `MaybeAddDataToResend`. -/
def sendRequest (c : ClientBase) (r : Request) : ClientBase :=
  match c.session with
  | none => c
  | some s =>
    if s.canCreateStream then
      { c with
        session := some (s.sendOnStream r)
        dataToResendOnConnect :=
          if s.handshakeConfirmed then [] else c.dataToResendOnConnect ++ [r] }
    else c

def resendSavedData (c : ClientBase) : ClientBase :=
  c.dataToResendOnConnect.foldl sendRequest { c with dataToResendOnConnect := [] }

/-- `FinishConnect`. -/
def finishConnect (c : ClientBase) : Bool × ClientBase :=
  if !c.connected && decide (kMaxClientHellos < c.getNumSentClientHellos) && c.rejected then
    (false, { c with tooManyRejects := true })
  else (c.connected, c)

/-- `ConnectLogic`: whether there is another attempt to make. -/
def connectLogic (c : ClientBase) : Bool × ClientBase :=
  let c' := if c.connected then c.resendSavedData else c
  (c'.session.isNone || c'.rejected, c')

/-- `StartConnect`, with `UpdateStats`. -/
def startConnect (c : ClientBase) (o : Created) : ClientBase :=
  { c with
    dataToResendOnConnect :=
      if c.connectedOrAttemptingConnect && !c.rejected then [] else c.dataToResendOnConnect
    numSentClientHellos := c.getNumSentClientHellos
    numStatelessRejectsReceived := c.numStatelessRejectsReceived +
      if c.connectedOrAttemptingConnect && c.rejected then 1 else 0
    session := some (.new o)
    connectedOrAttemptingConnect := true }

/-- `Connect`.  The list gives the outcomes of the sessions it creates, in order;
`none` when it needs one more than the list has. -/
def connect (c : ClientBase) : List Created → Option (Bool × ClientBase)
  | [] =>
    if !c.connected && decide (c.getNumSentClientHellos ≤ kMaxClientHellos) then none
    else some c.finishConnect
  | o :: os =>
    if !c.connected && decide (c.getNumSentClientHellos ≤ kMaxClientHellos) then
      let c' := c.startConnect o
      -- `WaitForEvents` on a connected session is only the event loop: see
      -- `waitForEvents_of_connected`.
      if c'.encryptionBeingEstablished then some (false, c'.runEventLoop)
      else
        let l := c'.connectLogic
        if l.1 then connect l.2 os else some l.2.finishConnect
    else some c.finishConnect

/-- `WaitForEvents`: whether there are active requests.  It ends the program at its
`DCHECK(connected())`. -/
def waitForEvents (c : ClientBase) (os : List Created) : Option (Bool × ClientBase) :=
  if c.connected then
    let c' := c.runEventLoop
    if !c'.connected && c'.rejected then
      (c'.connect os).map fun r => (decide (r.2.numActiveRequests ≠ 0), r.2)
    else some (decide (c'.numActiveRequests ≠ 0), c')
  else some (false, { c with aborted := true })

/-- `Disconnect`, with `CleanUpAllUDPSockets`. -/
def disconnect (c : ClientBase) : ClientBase :=
  { c with
    session := c.session.map Session.closeConnection
    dataToResendOnConnect := []
    packetReaderStarted := false
    initialized := false
    aborted := c.aborted || crashesOnClose (c.session.elim [] Session.closedByClose) }

/-- `OnReadComplete`, with `ProcessReadResult` and the helper's `OnReadError` and
`OnPacket`. -/
def onReadComplete (c : ClientBase) : Read → ClientBase
  | .error => disconnect { c with readPending := false }
  | .packet o =>
    let c' := { c with
      readPending := false
      session := c.session.map (Session.processUdpPacket · o)
      aborted := c.aborted || crashesOnClose (c.session.elim [] (Session.closedByPacket · o)) }
    if c'.connected then c'.startReading else c'

end ClientBase

/-- `QuicClient::cur_state`. -/
inductive CurState
  | connectLoop
  | sendRequest
  | after
  deriving Repr, DecidableEq

/-- The connection at the moment of a call of `QuicClient::SendRequest`. -/
structure Moment where
  connected : Bool
  encryptionEstablished : Bool
  deriving Repr, DecidableEq

/-- `QuicClient`, with a record of what it did. -/
structure QuicClient where
  client : ClientBase
  curState : CurState
  maxBytes : ℕ
  /-- `HandleRead` has been called. -/
  hasRead : Bool
  /-- The calls of `SendRequest`, in order. -/
  requests : List Moment
  deriving Repr, DecidableEq

namespace QuicClient

/-- The connection as `SendRequest` finds it. -/
def moment (c : QuicClient) : Moment where
  connected := c.client.connected
  encryptionEstablished := c.client.session.any Session.encryptionEstablished

/-- `QuicClient::SendRequest`.  Where `WaitForEvents` has ended the program, `cur_state`
is of no account. -/
def sendRequest (c : QuicClient) (os : List Created) : Option QuicClient :=
  ((c.client.sendRequest ⟨c.maxBytes⟩).waitForEvents os).map fun r =>
    { c with
      client := r.2
      curState := if r.1 then .sendRequest else .after
      requests := c.requests ++ [c.moment] }

/-- `HandleRead` up to its call of `OnReadComplete`: the callback is taken off and
one datagram is read. -/
def afterRead (c : QuicClient) (rd : Read) : ClientBase :=
  { c.client with recvCallback := false }.onReadComplete rd

/-- `HandleRead`. -/
def handleRead (c : QuicClient) (d : Datagram) : Option QuicClient :=
  let b := c.afterRead d.read
  let c := { c with client := b, hasRead := true }
  if b.aborted then some c else
  match c.curState with
  | .connectLoop =>
    if b.encryptionBeingEstablished then
      (b.waitForEvents d.created).map fun r => { c with client := r.2 }
    else
      let l := b.connectLogic
      if l.1 then (l.2.connect d.created).map fun r => { c with client := r.2 }
      else { c with client := l.2.finishConnect.2 }.sendRequest d.created
  | .sendRequest =>
    (b.waitForEvents d.created).map fun r =>
      { c with client := r.2, curState := if r.1 then .sendRequest else .after }
  | .after => some c

/-- A datagram reaches the socket: without a callback it stays there unread, and there
is none to reach once the program has ended. -/
def receive (c : QuicClient) (d : Datagram) : Option QuicClient :=
  if c.client.aborted then none
  else if c.client.recvCallback then c.handleRead d else some c

/-- `StartApplication`. -/
def startApplication (maxBytes : ℕ) (os : List Created) : Option QuicClient :=
  (ClientBase.initial.connect os).map fun r =>
    { client := r.2, curState := .connectLoop, maxBytes := maxBytes, hasRead := false,
      requests := [] }

end QuicClient

end Client
end QuicNs3
