/-
# The server that reads datagrams

Model of `QuicServer::HandleRead` (`utils/quic-server.cc`) and of `Listen`,
`StartReading`, `OnReadComplete` and `Shutdown` (`net/tools/quic/quic_simple_server.cc`),
over the dispatcher.  The socket calls its receive callback for each datagram
delivered to it; `HandleRead` takes the callback off and reads one datagram, and
`StartReading` puts it back.

`RecvFrom` of the socket is not part of this repository: it is a parameter, and what
is assumed of it has a name.  A datagram that the read buffer can hold is copied whole
and its length returned (`ReadsWhole`), and a datagram that was read has left the
queue (`TakesRead`); of longer datagrams nothing is assumed.  Closing the server's
socket does not end the delivery of datagrams.

What the dispatcher finds out about a packet is an input, as it is there; the source
address is left out.  The value `none` stands for a server that has crashed: it used
a socket that is gone, or an address that was not set.

`through_listening_iff` says which datagrams keep the server listening: those for which
`RecvFrom` returns a positive number, and so, of those that fit, all but the empty ones.
-/

import QuicNs3.Dispatch.Basic
import QuicNs3.Lib.Run

namespace QuicNs3
namespace Server

open Lib Dispatch

abbrev Bytes := List UInt8

def kMaxPacketSize : ℕ := 1452

def kReadBufferSize : ℕ := 2 * kMaxPacketSize

def kNumSessionsToCreatePerSocketEvent : ℤ := 16

/-- `ERR_CONNECTION_CLOSED`. -/
def errConnectionClosed : ℤ := -100

/-- A datagram, with what the dispatcher finds out about it. -/
structure Datagram where
  data : Bytes
  header : PacketHeader
  chlo : Chlo
  outcome : Dispatcher.Outcome
  deriving Repr, DecidableEq

/-- `RecvFrom` with the read buffer, for the first datagram of the queue: the number it
returns, and whether the datagram has then left the queue. -/
structure RecvFrom where
  result : Bytes → ℤ
  taken : Bytes → Bool

/-- A datagram that the read buffer can hold is copied whole, and its length returned. -/
def RecvFrom.ReadsWhole (recv : RecvFrom) : Prop :=
  ∀ data : Bytes, data.length ≤ kReadBufferSize → recv.result data = data.length

/-- A datagram of which bytes were read has left the queue. -/
def RecvFrom.TakesRead (recv : RecvFrom) : Prop :=
  ∀ data : Bytes, 0 < recv.result data → recv.taken data = true

/-- What the calls of `Listen` on the socket return. -/
structure ListenCalls where
  listen : ℤ
  setReceiveBufferSize : ℤ
  setSendBufferSize : ℤ
  getLocalAddress : ℤ
  deriving Repr, DecidableEq

/-- The server, with the part of the ns-3 socket it uses and the events it has scheduled. -/
structure QuicSimpleServer where
  dispatcher : Dispatcher Bytes
  /-- `socket_` is not null. -/
  socket : Bool
  readPending : Bool
  synchronousReadCount : ℤ
  /-- The datagrams that were delivered and not read. -/
  deliveryQueue : List Datagram
  /-- `HandleRead` is the receive callback. -/
  recvCallback : Bool
  /-- How many calls of `StartReading` are scheduled. -/
  scheduled : ℕ
  deriving Repr, DecidableEq

namespace QuicSimpleServer

def new (flags : Flags) (supportedVersions : List ℕ) : QuicSimpleServer where
  dispatcher := Dispatcher.new flags supportedVersions
  socket := false
  readPending := false
  synchronousReadCount := 0
  deliveryQueue := []
  recvCallback := false
  scheduled := 0

/-- `StartReading`, and what becomes of the sessions it creates. -/
def startReading (s : QuicSimpleServer) (os : List Dispatcher.Outcome) (now : ℤ) :
    Option QuicSimpleServer :=
  let s :=
    if s.synchronousReadCount = 0 then
      { s with
        dispatcher :=
          s.dispatcher.processBufferedChlos kNumSessionsToCreatePerSocketEvent os now }
    else s
  if s.readPending then some s
  else if !s.socket then none
  else
    some
      { s with
        readPending := true
        recvCallback := true
        synchronousReadCount := 0
        scheduled :=
          if s.dispatcher.store.connectionsWithChlo.isEmpty then s.scheduled
          else s.scheduled + 1 }

/-- `Listen`: the code it returns and the server. -/
def listen (s : QuicSimpleServer) (calls : ListenCalls) (os : List Dispatcher.Outcome) (now : ℤ) :
    Option (ℤ × QuicSimpleServer) :=
  if calls.listen < 0 then some (calls.listen, s)
  else if calls.setReceiveBufferSize < 0 then some (calls.setReceiveBufferSize, s)
  else if calls.setSendBufferSize < 0 then some (calls.setSendBufferSize, s)
  else if calls.getLocalAddress < 0 then some (calls.getLocalAddress, s)
  else ({ s with socket := true }.startReading os now).map fun t => (0, t)

/-- `Shutdown`. -/
def shutdown (s : QuicSimpleServer) (version : ℕ → ℕ) (now : ℤ) : Option QuicSimpleServer :=
  if s.socket then
    some { s with dispatcher := s.dispatcher.shutdown version now, socket := false }
  else none

/-- `OnReadComplete` for the datagram `g` that was read. -/
def onReadComplete (s : QuicSimpleServer) (result : ℤ) (g : Datagram)
    (os : List Dispatcher.Outcome) (version : ℕ → ℕ) (now : ℤ) : Option QuicSimpleServer :=
  let s := { s with readPending := false }
  let result := if result = 0 then errConnectionClosed else result
  if result < 0 then s.shutdown version now
  else
    { s with
      dispatcher :=
        s.dispatcher.processPacket g.header (g.data.take result.toNat) g.chlo g.outcome now
      }.startReading os now

/-- `HandleRead`. -/
def handleRead (s : QuicSimpleServer) (recv : RecvFrom) (os : List Dispatcher.Outcome)
    (version : ℕ → ℕ) (now : ℤ) : Option QuicSimpleServer :=
  match s.deliveryQueue with
  | [] => none
  | g :: q =>
    { s with
      recvCallback := false
      deliveryQueue := if recv.taken g.data then q else g :: q
      }.onReadComplete (recv.result g.data) g os version now

end QuicSimpleServer

/-- What happens to the server. -/
inductive Op
  /-- A datagram is delivered to the socket. -/
  | receive (g : Datagram) (os : List Dispatcher.Outcome) (version : ℕ → ℕ) (now : ℤ)
  /-- A scheduled `StartReading` runs. -/
  | startReading (os : List Dispatcher.Outcome) (now : ℤ)
  /-- An alarm or a callback of the dispatcher. -/
  | dispatch (op : Dispatch.Op Bytes)

namespace QuicSimpleServer

/-- One event.  An event that was not scheduled does nothing. -/
def step (recv : RecvFrom) (s : QuicSimpleServer) : Op → Option QuicSimpleServer
  | .receive g os version now =>
    let s := { s with deliveryQueue := s.deliveryQueue ++ [g] }
    if s.recvCallback then s.handleRead recv os version now else some s
  | .startReading os now =>
    if s.scheduled = 0 then some s
    else { s with scheduled := s.scheduled - 1 }.startReading os now
  | .dispatch op => some { s with dispatcher := (s.dispatcher.step op).getD s.dispatcher }

/-! ## Listening -/

/-- The server is listening. -/
structure Listening (s : QuicSimpleServer) : Prop where
  socket : s.socket = true
  pending : s.readPending = true
  callback : s.recvCallback = true

/-- The server is listening, and has read what was delivered. -/
structure Serving (s : QuicSimpleServer) : Prop extends Listening s where
  read : s.deliveryQueue = []

variable {s t : QuicSimpleServer} {recv : RecvFrom}

/-- `StartReading` puts the callback back, unless a read is pending. -/
theorem startReading_spec (h : s.socket = true) (hp : s.readPending = true → s.recvCallback = true)
    (hq : s.deliveryQueue = []) (os : List Dispatcher.Outcome) (now : ℤ) :
    ∃ t, s.startReading os now = some t ∧ Serving t := by
  unfold startReading
  dsimp only
  by_cases hpending : s.readPending = true
  · refine ⟨_, if_pos (by split_ifs <;> exact hpending), ?_⟩
    split_ifs
    · exact ⟨⟨h, hpending, hp hpending⟩, hq⟩
    · exact ⟨⟨h, hpending, hp hpending⟩, hq⟩
  · refine ⟨_, (if_neg (by split_ifs <;> exact hpending)).trans
      (if_neg (by split_ifs <;> simp [h])), ⟨?_, rfl, rfl⟩, ?_⟩
    · split_ifs <;> exact h
    · split_ifs <;> exact hq

/-- **A successful `Listen` leaves a server that serves.** -/
theorem serving_listen {flags : Flags} {versions : List ℕ} {calls : ListenCalls}
    {os : List Dispatcher.Outcome} {now rc : ℤ}
    (h : (new flags versions).listen calls os now = some (rc, s)) (hrc : 0 ≤ rc) : Serving s := by
  unfold listen at h
  split_ifs at h with h₁ h₂ h₃ h₄
  · obtain ⟨rfl, -⟩ := Prod.mk.inj (Option.some.inj h)
    omega
  · obtain ⟨rfl, -⟩ := Prod.mk.inj (Option.some.inj h)
    omega
  · obtain ⟨rfl, -⟩ := Prod.mk.inj (Option.some.inj h)
    omega
  · obtain ⟨rfl, -⟩ := Prod.mk.inj (Option.some.inj h)
    omega
  · obtain ⟨u, hu, heq⟩ := Option.map_eq_some_iff.1 h
    obtain ⟨-, rfl⟩ := Prod.mk.inj heq
    have hspec := startReading_spec (s := { new flags versions with socket := true }) rfl
      (fun hp => absurd hp Bool.false_ne_true) rfl os now
    obtain ⟨t, ht, hserving⟩ := hspec
    exact Option.some.inj (hu.symm.trans ht) ▸ hserving

/-- `RecvFrom` returns a positive number for the datagram. -/
def Readable (recv : RecvFrom) : Op → Prop
  | .receive g _ _ _ => 0 < recv.result g.data
  | .startReading _ _ | .dispatch _ => True

/-- **The one datagram that waits is read.**  If it is readable the server serves again;
otherwise it has shut down. -/
theorem handleRead_spec {g : Datagram} (htakes : recv.TakesRead) (h : Listening s)
    (hq : s.deliveryQueue = [g]) (os : List Dispatcher.Outcome) (version : ℕ → ℕ) (now : ℤ) :
    ∃ t, s.handleRead recv os version now = some t ∧
      (0 < recv.result g.data → Serving t) ∧ (Listening t → 0 < recv.result g.data) := by
  unfold handleRead onReadComplete
  rw [hq]
  dsimp only
  by_cases hread : 0 < recv.result g.data
  · rw [if_neg (by omega), if_neg (by omega)]
    obtain ⟨t, ht, hserving⟩ := startReading_spec
      (s := { s with
        dispatcher := s.dispatcher.processPacket g.header
          (g.data.take (recv.result g.data).toNat) g.chlo g.outcome now
        recvCallback := false
        deliveryQueue := if recv.taken g.data then [] else [g]
        readPending := false })
      h.socket (fun hp => absurd hp Bool.false_ne_true) (if_pos (htakes _ hread)) os now
    exact ⟨t, ht, fun _ => hserving, fun _ => hread⟩
  · -- a result of zero is an error like a negative one
    have hresult :
        (if recv.result g.data = 0 then errConnectionClosed else recv.result g.data) < 0 := by
      split_ifs with hzero
      · decide
      · omega
    unfold shutdown
    rw [if_pos hresult, if_pos h.socket]
    exact ⟨_, rfl, fun hr => absurd hr hread, fun hl => absurd hl.socket Bool.false_ne_true⟩

/-- **One event.** -/
theorem serving_step (htakes : recv.TakesRead) (h : Serving s) (op : Op) :
    ∃ t, s.step recv op = some t ∧ (Readable recv op → Serving t) ∧
      (Listening t → Readable recv op) := by
  cases op with
  | receive g os version now =>
    have hcall : s.step recv (.receive g os version now) =
        { s with deliveryQueue := s.deliveryQueue ++ [g] }.handleRead recv os version now :=
      if_pos h.callback
    rw [hcall, h.read]
    refine handleRead_spec htakes ?_ ?_ os version now
    · exact ⟨h.socket, h.pending, h.callback⟩
    · rfl
  | startReading os now =>
    unfold step
    dsimp only
    split_ifs
    · exact ⟨s, rfl, fun _ => h, fun _ => trivial⟩
    · obtain ⟨t, ht, hserving⟩ := startReading_spec (s := { s with scheduled := s.scheduled - 1 })
        h.socket (fun _ => h.callback) h.read os now
      exact ⟨t, ht, fun _ => hserving, fun _ => trivial⟩
  | dispatch op =>
    exact ⟨_, rfl, fun _ => ⟨⟨h.socket, h.pending, h.callback⟩, h.read⟩, fun _ => trivial⟩

/-- **Which datagrams a listening server survives.**  After a successful `Listen` the server
gets through any sequence of events and is listening after each of them, exactly if
`RecvFrom` returns a positive number for every datagram.  Of the datagrams that the read
buffer can hold, these are the ones that are not empty. -/
theorem through_listening_iff (hwhole : recv.ReadsWhole) (htakes : recv.TakesRead)
    {flags : Flags} {versions : List ℕ} {calls : ListenCalls}
    {os : List Dispatcher.Outcome} {now rc : ℤ}
    (h : (new flags versions).listen calls os now = some (rc, s)) (hrc : 0 ≤ rc) :
    (∀ ops : List Op, Through (step recv) Listening s ops ↔ ∀ op ∈ ops, Readable recv op) ∧
      ∀ (g : Datagram) (os : List Dispatcher.Outcome) (version : ℕ → ℕ) (now : ℤ),
        g.data.length ≤ kReadBufferSize →
          (Readable recv (.receive g os version now) ↔ g.data ≠ []) := by
  have hstep : ∀ u op, Serving u → ∃ t, u.step recv op = some t ∧
      (Readable recv op → Serving t) ∧ (Listening t → Readable recv op) :=
    fun u op hu => serving_step htakes hu op
  refine ⟨fun ops => through_iff_forall (fun _ hu => hu.toListening) hstep (serving_listen h hrc),
    fun g os version now hfits => ?_⟩
  show 0 < recv.result g.data ↔ g.data ≠ []
  rw [hwhole g.data hfits, Int.natCast_pos, List.length_pos_iff]

/-- A packet of connection `7` with the given bytes. -/
def datagramOf (data : Bytes) : Datagram :=
  ⟨data, ⟨7, true, 4433, false, some 35, some 1⟩, .notChlo, ⟨false, 35, false⟩⟩

/-- A socket that hands out every datagram whole. -/
def wholeSocket : RecvFrom := ⟨fun data => data.length, fun _ => true⟩

/-- Two packets of three bytes, and a scheduled call that is not there. -/
theorem through_listening_packets :
    ∃ s, (new .default [35]).listen ⟨0, 0, 0, 0⟩ [] 0 = some (0, s) ∧
      Through (step wholeSocket) Listening s
        [.receive (datagramOf [1, 2, 3]) [] (fun _ => 35) 1, .startReading [] 1,
          .receive (datagramOf [4, 5, 6]) [] (fun _ => 35) 2] := by
  obtain ⟨s, hs⟩ : ∃ s, (new .default [35]).listen ⟨0, 0, 0, 0⟩ [] 0 = some (0, s) := ⟨_, rfl⟩
  have hwhole : wholeSocket.ReadsWhole := fun _ _ => rfl
  have htakes : wholeSocket.TakesRead := fun _ _ => rfl
  refine ⟨s, hs, ((through_listening_iff hwhole htakes hs (by decide)).1 _).2 ?_⟩
  simp [Readable, datagramOf, wholeSocket]

/-- **An empty datagram switches the server off**: the socket is closed and the callback
off, and the next packet is not read. -/
theorem exists_switched_off :
    ∃ s, (new .default [35]).listen ⟨0, 0, 0, 0⟩ [] 0 = some (0, s) ∧
      ∃ t, run (step wholeSocket) s
          [.receive (datagramOf []) [] (fun _ => 35) 1,
            .receive (datagramOf [1, 2, 3]) [] (fun _ => 35) 2] = some t ∧
        t.socket = false ∧ t.readPending = false ∧ t.recvCallback = false ∧
        t.deliveryQueue = [datagramOf [1, 2, 3]] :=
  ⟨_, rfl, _, rfl, rfl, rfl, rfl, rfl⟩

end QuicSimpleServer
end Server
end QuicNs3
