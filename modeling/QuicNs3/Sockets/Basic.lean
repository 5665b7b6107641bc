/-
# The socket emulation layer

Model of `helper/socket_ns3.cc`, which gives the simulated programs the calls of the socket
interface.  Four global tables, indexed by the descriptor, stand for the kernel: the ns-3
socket, an address, its length, and whether the socket is nonblocking.

The table of sockets holds pointers; what is behind them (`sockets`) is here the kind of the
socket and the calls made on it, since the answers of the simulator are inputs.  An address
argument is the memory from the pointer on, together with the length the caller gives;
`*addr` copies `sizeof(sockaddr)` bytes of it, and `getsockname_ns3` writes as many into the
caller's memory.  The lengths go through the type `int`.

A call is `none` where it fails an assertion, reads behind the memory it is given, or would
return a descriptor that is not an `int`.  `returned` and `bound` record, and nothing reads
it, which descriptors were returned, and to which address each was bound last, that is, by
the last `bind_ns3` that reported success.
-/

import QuicNs3.Lib.Recency
import QuicNs3.Lib.Run
import Mathlib.Algebra.Order.Ring.Int

namespace QuicNs3
namespace Sockets

open Lib

/-- `sizeof(sockaddr)`. -/
def sizeofSockaddr : ℕ := 16

/-- `sockaddr()`. -/
def sockaddr : List UInt8 := List.replicate sizeofSockaddr 0

/-- An address argument and its length. -/
structure Address where
  bytes : List UInt8
  len : UInt32
  deriving Repr, DecidableEq

structure InetSocketAddress where
  ip : List UInt8
  port : ℕ
  deriving Repr, DecidableEq

/-- `convert_addr`, which reads a `sockaddr_in`. -/
def convertAddr (addr : Address) : InetSocketAddress where
  ip := (addr.bytes.drop 4).take 4
  port := 256 * (addr.bytes.getD 2 0).toNat + (addr.bytes.getD 3 0).toNat

/-- The factories of `CreateSocket`. -/
inductive Factory
  | udpSocketFactory
  | tcpSocketFactory
  deriving Repr, DecidableEq

/-- A call on an ns-3 socket. -/
inductive SocketCall
  | bind (address : InetSocketAddress)
  | connect (address : InetSocketAddress)
  deriving Repr, DecidableEq

/-- An ns-3 socket. -/
structure Socket where
  factory : Factory
  calls : List SocketCall
  deriving Repr, DecidableEq

/-- The global tables. -/
structure Layer where
  sockets : List Socket
  socketMap : List ℕ
  addrMap : List (List UInt8)
  lenMap : List Int32
  nonblockMap : List Bool
  returned : List ℕ
  bound : List (ℕ × Address)
  deriving Repr, DecidableEq

def sockDgram : ℤ := 2

def fGetfl : ℤ := 3

def fSetfl : ℤ := 4

def oNonblock : Int32 := 2048

namespace Layer

/-- The tables before the first call. -/
def empty : Layer := ⟨[], [], [], [], [], [], []⟩

/-- The tables with a new socket. -/
def pushSocket (s : Layer) (factory : Factory) : Layer where
  sockets := s.sockets ++ [⟨factory, []⟩]
  socketMap := s.socketMap ++ [s.sockets.length]
  addrMap := s.addrMap ++ [sockaddr]
  lenMap := s.lenMap ++ [-1]
  nonblockMap := s.nonblockMap ++ [false]
  returned := s.returned ++ [s.socketMap.length]
  bound := s.bound

/-- `socket_ns3`. -/
def socketNs3 (s : Layer) (type : ℤ) : Option (ℕ × Layer) :=
  let s := s.pushSocket (if type = sockDgram then .udpSocketFactory else .tcpSocketFactory)
  if s.socketMap.length < 2147483648 then some (s.socketMap.length - 1, s) else none

/-- `socketpair_ns3`. -/
def socketpairNs3 (s : Layer) (type : ℤ) : Option ((ℕ × ℕ) × Layer) :=
  (s.socketNs3 type).bind fun r => (r.2.socketNs3 type).map fun r' => ((r.1, r'.1), r'.2)

/-- `get`. -/
def get (s : Layer) (fd : ℕ) : Option ℕ := s.socketMap[fd]?

/-- The assignments to `len_map[fd]` and `addr_map[fd]`. -/
def setName (s : Layer) (fd : ℕ) (addr : Address) : Layer :=
  { s with
    lenMap := s.lenMap.set fd addr.len.toInt32
    addrMap := s.addrMap.set fd (addr.bytes.take sizeofSockaddr) }

/-- A call on the socket behind a pointer. -/
def callSocket (s : Layer) (sckt : ℕ) (c : SocketCall) : Layer :=
  { s with sockets := s.sockets.modify sckt fun k => { k with calls := k.calls ++ [c] } }

/-- The memory an address argument points to is large enough. -/
def Readable (addr : Address) : Prop :=
  sizeofSockaddr ≤ addr.bytes.length ∧ addr.len.toNat ≤ addr.bytes.length

instance : DecidablePred Readable := fun addr =>
  inferInstanceAs (Decidable (_ ≤ addr.bytes.length ∧ _ ≤ addr.bytes.length))

/-- `bind_ns3`, with the answer of `Bind`. -/
def bindNs3 (s : Layer) (fd : ℕ) (addr : Address) (answer : ℤ) : Option (ℤ × Layer) :=
  if Readable addr then
    (s.get fd).map fun sckt =>
      (answer,
        { (s.setName fd addr).callSocket sckt (.bind (convertAddr addr)) with
          bound := if answer = 0 then (fd, addr) :: s.bound else s.bound })
  else none

/-- `getsockname_ns3`: the length, and the caller's memory after the call. -/
def getsocknameNs3 (s : Layer) (fd : ℕ) (memory : List UInt8) : Option (UInt32 × List UInt8) :=
  if sizeofSockaddr ≤ memory.length then
    (s.get fd).bind fun _ => s.lenMap[fd]?.bind fun len => s.addrMap[fd]?.map fun addr =>
      (len.toUInt32, addr ++ memory.drop sizeofSockaddr)
  else none

/-- `connect_ns3`, with the answer of `Connect`. -/
def connectNs3 (s : Layer) (fd : ℕ) (addr : Address) (answer : ℤ) : Option (ℤ × Layer) :=
  if Readable addr then
    (s.get fd).map fun sckt =>
      (answer, (s.setName fd addr).callSocket sckt (.connect (convertAddr addr)))
  else none

/-- `fcntl_ns3`. -/
def fcntlNs3 (s : Layer) (fd : ℕ) (cmd : ℤ) : Option ℤ :=
  if cmd = fGetfl then s.nonblockMap[fd]?.map fun b => if b then 1 else 0 else none

/-- `fcntls_ns3`. -/
def fcntlsNs3 (s : Layer) (fd : ℕ) (cmd : ℤ) (fl : Int32) : Option (ℤ × Layer) :=
  if cmd = fSetfl ∧ fl &&& oNonblock ≠ 0 ∧ fd < s.nonblockMap.length then
    some (0, { s with nonblockMap := s.nonblockMap.set fd true })
  else none

end Layer

/-- The calls.  The domain and the protocol of a socket are not looked at. -/
inductive Op
  | socketNs3 (domain type protocol : ℤ)
  | socketpairNs3 (domain type protocol : ℤ)
  | bindNs3 (fd : ℕ) (addr : Address) (answer : ℤ)
  | getsocknameNs3 (fd : ℕ) (memory : List UInt8)
  | connectNs3 (fd : ℕ) (addr : Address) (answer : ℤ)
  | fcntlNs3 (fd : ℕ) (cmd : ℤ)
  | fcntlsNs3 (fd : ℕ) (cmd : ℤ) (fl : Int32)
  deriving Repr, DecidableEq

/-- The descriptor a call is about. -/
def Op.descriptor : Op → Option ℕ
  | .socketNs3 .. => none
  | .socketpairNs3 .. => none
  | .bindNs3 fd .. => some fd
  | .getsocknameNs3 fd _ => some fd
  | .connectNs3 fd .. => some fd
  | .fcntlNs3 fd _ => some fd
  | .fcntlsNs3 fd .. => some fd

/-- What a call returns. -/
inductive Result
  | descriptors (fds : List ℕ)
  | value (v : ℤ)
  | name (len : UInt32) (memory : List UInt8)
  deriving Repr, DecidableEq

/-- The descriptors a call returns. -/
def Result.fds : Result → List ℕ
  | .descriptors fds => fds
  | _ => []

namespace Layer

/-- One call. -/
def call (s : Layer) : Op → Option (Result × Layer)
  | .socketNs3 _ type _ => (s.socketNs3 type).map fun r => (.descriptors [r.1], r.2)
  | .socketpairNs3 _ type _ =>
    (s.socketpairNs3 type).map fun r => (.descriptors [r.1.1, r.1.2], r.2)
  | .bindNs3 fd addr answer => (s.bindNs3 fd addr answer).map fun r => (.value r.1, r.2)
  | .getsocknameNs3 fd memory => (s.getsocknameNs3 fd memory).map fun r => (.name r.1 r.2, s)
  | .connectNs3 fd addr answer => (s.connectNs3 fd addr answer).map fun r => (.value r.1, r.2)
  | .fcntlNs3 fd cmd => (s.fcntlNs3 fd cmd).map fun v => (.value v, s)
  | .fcntlsNs3 fd cmd fl => (s.fcntlsNs3 fd cmd fl).map fun r => (.value r.1, r.2)

def step (s : Layer) (op : Op) : Option Layer := (s.call op).map Prod.snd

/-- All that is kept for a descriptor. -/
def state (s : Layer) (fd : ℕ) : Option Socket × Option (List UInt8) × Option Int32 × Option Bool :=
  (s.socketMap[fd]?.bind fun sckt => s.sockets[sckt]?, s.addrMap[fd]?, s.lenMap[fd]?,
    s.nonblockMap[fd]?)

end Layer

end Sockets
end QuicNs3
