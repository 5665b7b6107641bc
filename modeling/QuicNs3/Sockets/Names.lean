/-
# Descriptors and the names of sockets

The four tables always have equal length, a new socket gets a pointer and a descriptor no
other has, and a call on one descriptor leaves all that is kept for the others as it is
(`Sound.keeps`).  So the tables behave like the state of a kernel, with one exception:
`connect_ns3` writes the address of the peer where `bind_ns3` wrote the local address, and
both write it before they know whether the simulator accepts it; and a local address longer
than a `sockaddr` is cut off.

`always_descriptors_kept_iff` says in which runs `getsockname_ns3` nevertheless always returns
the local address: those in which whatever is written after a successful `bind_ns3` is that
address.
-/

import QuicNs3.Sockets.Basic

namespace QuicNs3
namespace Sockets
namespace Layer

open Lib

variable {s t : Layer} {op : Op} {r : Result} {fd fd' : ℕ} {addr : Address} {answer : ℤ}

/-! ## The tables -/

/-- The four tables have equal length. -/
structure Parallel (s : Layer) : Prop where
  addrMap : s.addrMap.length = s.socketMap.length
  lenMap : s.lenMap.length = s.socketMap.length
  nonblockMap : s.nonblockMap.length = s.socketMap.length

/-- **What every call keeps:** parallel tables, a socket of its own for each descriptor, and
descriptors that are the indices of the tables. -/
structure Sound (s : Layer) : Prop where
  parallel : s.Parallel
  sockets : s.socketMap = List.range s.sockets.length
  returned : s.returned = List.range s.sockets.length
  addr : ∀ a ∈ s.addrMap, a.length = sizeofSockaddr
  bound : ∀ fd a, valueAt fd s.bound = some a → fd < s.socketMap.length ∧ Readable a

theorem Sound.empty : Layer.empty.Sound :=
  ⟨⟨rfl, rfl, rfl⟩, rfl, rfl, fun _ ha => absurd ha List.not_mem_nil, fun _ _ h => nomatch h⟩

theorem Sound.length_eq (h : s.Sound) : s.socketMap.length = s.sockets.length := by
  rw [h.sockets, List.length_range]

theorem Sound.get_eq (h : s.Sound) :
    s.get fd = if fd < s.sockets.length then some fd else none := by
  rw [get, h.sockets]
  split_ifs with hlt
  · rw [List.getElem?_range hlt]
  · exact List.getElem?_eq_none (by simpa using hlt)

/-- A descriptor is taken. -/
theorem Sound.get_eq_some (h : s.Sound) {sckt : ℕ} (hget : s.get fd = some sckt) :
    sckt = fd ∧ fd < s.sockets.length := by
  rw [h.get_eq] at hget
  split_ifs at hget with hlt
  exact ⟨(Option.some.inj hget).symm, hlt⟩

theorem Sound.mem_returned (h : s.Sound) : fd ∈ s.returned ↔ fd < s.sockets.length := by
  rw [h.returned, List.mem_range]

/-! ## New sockets -/

/-- A new socket gets the next descriptor, and nothing that is kept for the others
changes. -/
theorem Sound.pushSocket {factory : Factory} (h : s.Sound) :
    (s.pushSocket factory).Sound ∧
      ∀ fd < s.sockets.length, (s.pushSocket factory).state fd = s.state fd := by
  have hlen := h.length_eq
  refine ⟨⟨⟨?_, ?_, ?_⟩, ?_, ?_, ?_, ?_⟩, fun fd hlt => ?_⟩
  · simp [Layer.pushSocket, h.parallel.addrMap]
  · simp [Layer.pushSocket, h.parallel.lenMap]
  · simp [Layer.pushSocket, h.parallel.nonblockMap]
  · simp [Layer.pushSocket, h.sockets, List.range_succ]
  · simp [Layer.pushSocket, h.returned, hlen, List.range_succ]
  · intro a ha
    rcases List.mem_append.1 ha with ha | ha
    · exact h.addr a ha
    · obtain rfl := List.mem_singleton.1 ha
      rfl
  · intro fd a ha
    obtain ⟨hlt, hread⟩ := h.bound fd a ha
    refine ⟨hlt.trans_le ?_, hread⟩
    simp [Layer.pushSocket]
  · have hmap : s.socketMap[fd]? = some fd := by
      rw [h.sockets, List.getElem?_range hlt]
    simp only [state, Layer.pushSocket]
    rw [List.getElem?_append_left (hlen ▸ hlt), hmap, Option.bind_some, Option.bind_some,
      List.getElem?_append_left hlt,
      List.getElem?_append_left (h.parallel.addrMap ▸ hlen ▸ hlt),
      List.getElem?_append_left (h.parallel.lenMap ▸ hlen ▸ hlt),
      List.getElem?_append_left (h.parallel.nonblockMap ▸ hlen ▸ hlt)]

theorem Sound.socketNs3 {type : ℤ} (h : s.Sound) (ht : s.socketNs3 type = some (fd, t)) :
    t.Sound ∧ fd = s.sockets.length ∧ t.sockets.length = s.sockets.length + 1 ∧
      t.returned = s.returned ++ [fd] ∧ t.bound = s.bound ∧
      ∀ fd' < s.sockets.length, t.state fd' = s.state fd' := by
  unfold Layer.socketNs3 at ht
  generalize (if type = sockDgram then Factory.udpSocketFactory else .tcpSocketFactory) = f at ht
  have hpush : (s.pushSocket f).Sound ∧ _ := h.pushSocket
  dsimp only at ht
  split_ifs at ht
  obtain ⟨rfl, rfl⟩ := Prod.mk.inj (Option.some.inj ht)
  have hfd : (s.pushSocket f).socketMap.length - 1 = s.sockets.length := by
    rw [hpush.1.length_eq]
    simp [Layer.pushSocket]
  refine ⟨hpush.1, hfd, List.length_append, ?_, rfl, hpush.2⟩
  rw [hfd, ← h.length_eq]
  rfl

/-! ## Calls on a descriptor -/

/-- What `bind_ns3` and `connect_ns3` do to the tables and to the socket. -/
theorem Sound.setName {c : SocketCall} {bound : List (ℕ × Address)} (h : s.Sound)
    (haddr : Readable addr)
    (hbound : ∀ fd' a, valueAt fd' bound = some a → fd' < s.socketMap.length ∧ Readable a) :
    let t := { (s.setName fd addr).callSocket fd c with bound := bound }
    t.Sound ∧ ∀ fd' ≠ fd, t.state fd' = s.state fd' := by
  refine ⟨⟨⟨?_, ?_, h.parallel.nonblockMap⟩, ?_, ?_, ?_, hbound⟩, fun fd' hne => ?_⟩
  · exact (List.length_set ..).trans h.parallel.addrMap
  · exact (List.length_set ..).trans h.parallel.lenMap
  · exact h.sockets.trans (congrArg List.range (List.length_modify ..).symm)
  · exact h.returned.trans (congrArg List.range (List.length_modify ..).symm)
  · intro a ha
    rcases List.mem_or_eq_of_mem_set ha with ha | rfl
    · exact h.addr a ha
    · rw [List.length_take]
      exact Nat.min_eq_left haddr.1
  · have hsocket : (s.socketMap[fd']?.bind fun sckt =>
        (s.sockets.modify fd fun k => { k with calls := k.calls ++ [c] })[sckt]?) =
        s.socketMap[fd']?.bind fun sckt => s.sockets[sckt]? := by
      cases hget : s.socketMap[fd']? with
      | none => rfl
      | some sckt =>
        obtain ⟨rfl, -⟩ := h.get_eq_some hget
        rw [Option.bind_some, Option.bind_some, List.getElem?_modify_ne _ _ hne.symm]
    simp only [state, callSocket, Layer.setName]
    rw [hsocket, List.getElem?_set_ne hne.symm, List.getElem?_set_ne hne.symm]

/-- A descriptor that is bound is one there is. -/
theorem Sound.bound_cons {a : Address} (h : s.Sound) (hfd : fd < s.sockets.length)
    (haddr : Readable addr)
    (ha : valueAt fd' (if answer = 0 then (fd, addr) :: s.bound else s.bound) = some a) :
    fd' < s.socketMap.length ∧ Readable a := by
  split_ifs at ha
  · rcases eq_or_ne fd' fd with rfl | hne
    · obtain rfl : addr = a := by simpa [valueAt] using ha
      exact ⟨h.length_eq ▸ hfd, haddr⟩
    · refine h.bound fd' a ?_
      simpa [valueAt, hne.symm] using ha
  · exact h.bound fd' a ha

/-- **What a call leaves**, one case for each kind of call. -/
inductive Called (s : Layer) : Op → Result → Layer → Prop
  | socket {domain type protocol : ℤ} {fd : ℕ} {t : Layer} (h : s.socketNs3 type = some (fd, t)) :
    Called s (.socketNs3 domain type protocol) (.descriptors [fd]) t
  | socketpair {domain type protocol : ℤ} {fd fd' : ℕ} {u t : Layer}
    (h : s.socketNs3 type = some (fd, u)) (h' : u.socketNs3 type = some (fd', t)) :
    Called s (.socketpairNs3 domain type protocol) (.descriptors [fd, fd']) t
  | bind {fd : ℕ} {addr : Address} {answer : ℤ} (hread : Readable addr)
    (hlt : fd < s.sockets.length) :
    Called s (.bindNs3 fd addr answer) (.value answer)
      { (s.setName fd addr).callSocket fd (.bind (convertAddr addr)) with
        bound := if answer = 0 then (fd, addr) :: s.bound else s.bound }
  | getsockname {fd : ℕ} {memory memory' : List UInt8} {len : UInt32} :
    Called s (.getsocknameNs3 fd memory) (.name len memory') s
  | connect {fd : ℕ} {addr : Address} {answer : ℤ} (hread : Readable addr)
    (hlt : fd < s.sockets.length) :
    Called s (.connectNs3 fd addr answer) (.value answer)
      ((s.setName fd addr).callSocket fd (.connect (convertAddr addr)))
  | fcntl {fd : ℕ} {cmd v : ℤ} : Called s (.fcntlNs3 fd cmd) (.value v) s
  | fcntls {fd : ℕ} {cmd : ℤ} {fl : Int32} :
    Called s (.fcntlsNs3 fd cmd fl) (.value 0) { s with nonblockMap := s.nonblockMap.set fd true }

theorem Sound.called (h : s.Sound) (ht : s.call op = some (r, t)) : Called s op r t := by
  cases op with
  | socketNs3 domain type protocol =>
    obtain ⟨⟨fd, u⟩, hu, heq⟩ := Option.map_eq_some_iff.1 ht
    obtain ⟨rfl, rfl⟩ := Prod.mk.inj heq
    exact .socket hu
  | socketpairNs3 domain type protocol =>
    obtain ⟨⟨⟨fd₀, fd₁⟩, v⟩, hv, heq⟩ := Option.map_eq_some_iff.1 ht
    obtain ⟨rfl, rfl⟩ := Prod.mk.inj heq
    obtain ⟨⟨fd, u⟩, hu, hv⟩ := Option.bind_eq_some_iff.1 hv
    obtain ⟨⟨fd', w⟩, hw, heq⟩ := Option.map_eq_some_iff.1 hv
    obtain ⟨hfds, rfl⟩ := Prod.mk.inj heq
    obtain ⟨rfl, rfl⟩ := Prod.mk.inj hfds
    exact .socketpair hu hw
  | bindNs3 fd addr answer =>
    obtain ⟨⟨v, u⟩, hu, heq⟩ := Option.map_eq_some_iff.1 ht
    obtain ⟨rfl, rfl⟩ := Prod.mk.inj heq
    obtain ⟨hread, hu⟩ := Option.ite_none_right_eq_some.1 hu
    obtain ⟨sckt, hget, heq⟩ := Option.map_eq_some_iff.1 hu
    obtain ⟨rfl, hlt⟩ := h.get_eq_some hget
    obtain ⟨rfl, rfl⟩ := Prod.mk.inj heq
    exact .bind hread hlt
  | getsocknameNs3 fd memory =>
    obtain ⟨⟨len, memory'⟩, -, heq⟩ := Option.map_eq_some_iff.1 ht
    obtain ⟨rfl, rfl⟩ := Prod.mk.inj heq
    exact .getsockname
  | connectNs3 fd addr answer =>
    obtain ⟨⟨v, u⟩, hu, heq⟩ := Option.map_eq_some_iff.1 ht
    obtain ⟨rfl, rfl⟩ := Prod.mk.inj heq
    obtain ⟨hread, hu⟩ := Option.ite_none_right_eq_some.1 hu
    obtain ⟨sckt, hget, heq⟩ := Option.map_eq_some_iff.1 hu
    obtain ⟨rfl, hlt⟩ := h.get_eq_some hget
    obtain ⟨rfl, rfl⟩ := Prod.mk.inj heq
    exact .connect hread hlt
  | fcntlNs3 fd cmd =>
    obtain ⟨v, -, heq⟩ := Option.map_eq_some_iff.1 ht
    obtain ⟨rfl, rfl⟩ := Prod.mk.inj heq
    exact .fcntl
  | fcntlsNs3 fd cmd fl =>
    obtain ⟨⟨v, u⟩, hu, heq⟩ := Option.map_eq_some_iff.1 ht
    obtain ⟨rfl, rfl⟩ := Prod.mk.inj heq
    obtain ⟨-, hu⟩ := Option.ite_none_right_eq_some.1 hu
    obtain ⟨rfl, rfl⟩ := Prod.mk.inj (Option.some.inj hu)
    exact .fcntls

/-- **One call.**  It keeps the tables in order, returns only descriptors that are new, and
changes nothing that is kept for another descriptor. -/
theorem Sound.call (h : s.Sound) (ht : s.call op = some (r, t)) :
    t.Sound ∧ t.returned = s.returned ++ r.fds ∧
      ∀ fd ∈ s.returned, op.descriptor ≠ some fd → t.state fd = s.state fd := by
  cases h.called ht with
  | socket hu =>
    obtain ⟨hsound, -, -, hreturned, -, hframe⟩ := h.socketNs3 hu
    exact ⟨hsound, hreturned, fun fd hfd _ => hframe fd (h.mem_returned.1 hfd)⟩
  | socketpair hu hw =>
    obtain ⟨hsound, -, hlen, hreturned, -, hframe⟩ := h.socketNs3 hu
    obtain ⟨hsound', -, -, hreturned', -, hframe'⟩ := hsound.socketNs3 hw
    refine ⟨hsound', ?_, fun fd hfd _ => ?_⟩
    · rw [hreturned', hreturned, List.append_assoc]
      rfl
    · rw [h.mem_returned] at hfd
      rw [hframe' fd (hlen ▸ Nat.lt_succ_of_lt hfd), hframe fd hfd]
  | bind hread hlt =>
    obtain ⟨hsound, hframe⟩ := h.setName hread fun _ _ => h.bound_cons hlt hread
    exact ⟨hsound, (List.append_nil _).symm, fun fd' _ hne =>
      hframe fd' fun heq => hne (congrArg some heq.symm)⟩
  | getsockname => exact ⟨h, (List.append_nil _).symm, fun _ _ _ => rfl⟩
  | connect hread hlt =>
    obtain ⟨hsound, hframe⟩ := h.setName hread h.bound
    exact ⟨hsound, (List.append_nil _).symm, fun fd' _ hne =>
      hframe fd' fun heq => hne (congrArg some heq.symm)⟩
  | fcntl => exact ⟨h, (List.append_nil _).symm, fun _ _ _ => rfl⟩
  | @fcntls fd =>
    refine ⟨⟨⟨h.parallel.addrMap, h.parallel.lenMap, ?_⟩, h.sockets, h.returned, h.addr, h.bound⟩,
      (List.append_nil _).symm, fun fd' _ hne => ?_⟩
    · exact (List.length_set ..).trans h.parallel.nonblockMap
    · have hne' : fd ≠ fd' := fun heq => hne (congrArg some heq)
      simp only [state, List.getElem?_set_ne hne']

/-! ## Local names -/

/-- `getsockname_ns3` returns the address `a` for the descriptor, whatever is in the memory
it is given. -/
def Names (s : Layer) (fd : ℕ) (a : Address) : Prop :=
  ∀ memory, sizeofSockaddr ≤ memory.length → a.len.toNat ≤ memory.length →
    ∃ memory', s.getsocknameNs3 fd memory = some (a.len, memory') ∧
      memory'.take a.len.toNat = a.bytes.take a.len.toNat

/-- **`getsockname_ns3` returns the local address** each descriptor was bound to last. -/
def LocalName (s : Layer) : Prop := ∀ fd a, valueAt fd s.bound = some a → s.Names fd a

/-- The address argument `addr` is the address `a`, and a `sockaddr` holds it. -/
def SameName (addr a : Address) : Prop :=
  addr.len = a.len ∧ a.len.toNat ≤ sizeofSockaddr ∧
    addr.bytes.take a.len.toNat = a.bytes.take a.len.toNat

instance : DecidableRel SameName := fun addr a =>
  inferInstanceAs (Decidable (addr.len = a.len ∧ a.len.toNat ≤ sizeofSockaddr ∧ _ = _))

/-- What `getsockname_ns3` returns is what is in the tables. -/
theorem Sound.getsocknameNs3_eq {len : Int32} {e memory : List UInt8} (h : s.Sound)
    (hlen : s.lenMap[fd]? = some len) (haddr : s.addrMap[fd]? = some e)
    (hmemory : sizeofSockaddr ≤ memory.length) :
    s.getsocknameNs3 fd memory = some (len.toUInt32, e ++ memory.drop sizeofSockaddr) := by
  have hlt : fd < s.sockets.length := by
    rw [← h.length_eq, ← h.parallel.lenMap]
    exact (List.getElem?_eq_some_iff.1 hlen).1
  rw [Layer.getsocknameNs3, if_pos hmemory, h.get_eq, if_pos hlt, hlen, haddr]
  rfl

/-- **The name in the tables** is the address `a` exactly if a `sockaddr` holds it: the rest
of a longer address is whatever was in the memory of the caller. -/
theorem Sound.names_iff {len : Int32} {e : List UInt8} {a : Address} (h : s.Sound)
    (hlen : s.lenMap[fd]? = some len) (haddr : s.addrMap[fd]? = some e) (ha : Readable a) :
    s.Names fd a ↔ len.toUInt32 = a.len ∧ a.len.toNat ≤ sizeofSockaddr ∧
      e.take a.len.toNat = a.bytes.take a.len.toNat := by
  have he : e.length = sizeofSockaddr := h.addr e (List.mem_of_getElem? haddr)
  have htake : ∀ memory : List UInt8, a.len.toNat ≤ sizeofSockaddr →
      (e ++ memory.drop sizeofSockaddr).take a.len.toNat = e.take a.len.toNat :=
    fun memory hle => List.take_append_of_le_length (he ▸ hle)
  constructor
  · intro hnames
    -- a memory that differs from the address after the first bytes
    set x := a.bytes[sizeofSockaddr]?.getD 0 + 1 with hx
    set memory := List.replicate (max sizeofSockaddr a.len.toNat) x with hmem
    have hsize : memory.length = max sizeofSockaddr a.len.toNat := List.length_replicate
    obtain ⟨memory', hget, heq⟩ :=
      hnames memory (hsize ▸ le_max_left _ _) (hsize ▸ le_max_right _ _)
    rw [h.getsocknameNs3_eq hlen haddr (hsize ▸ le_max_left _ _)] at hget
    obtain ⟨hlen', rfl⟩ := Prod.mk.inj (Option.some.inj hget)
    have hle : a.len.toNat ≤ sizeofSockaddr := by
      by_contra hlong
      have hlt : sizeofSockaddr < a.len.toNat := Nat.not_le.1 hlong
      have hat := congrArg (fun l => l[sizeofSockaddr]?) heq
      simp only [List.getElem?_take_of_lt hlt] at hat
      rw [List.getElem?_append_right he.le, he, Nat.sub_self, List.getElem?_drop, hmem,
        List.getElem?_replicate, if_pos (by omega),
        List.getElem?_eq_getElem (hlt.trans_le ha.2)] at hat
      rw [Option.some.inj hat, List.getElem?_eq_getElem (hlt.trans_le ha.2), Option.getD_some] at hx
      simp at hx
    exact ⟨hlen', hle, (htake memory hle).symm.trans heq⟩
  · rintro ⟨hlen', hle, heq⟩ memory hmemory -
    refine ⟨_, ?_, (htake memory hle).trans heq⟩
    rw [h.getsocknameNs3_eq hlen haddr hmemory, hlen']

/-- What was written last. -/
theorem Sound.names_setName_iff {c : SocketCall} {bound : List (ℕ × Address)} {a : Address}
    (h : s.Sound)
    (ht : { (s.setName fd addr).callSocket fd c with bound := bound }.Sound)
    (hfd : fd < s.sockets.length) (ha : Readable a) :
    { (s.setName fd addr).callSocket fd c with bound := bound }.Names fd a ↔ SameName addr a := by
  have hlen : (s.lenMap.set fd addr.len.toInt32)[fd]? = some addr.len.toInt32 :=
    List.getElem?_set_self (h.parallel.lenMap ▸ h.length_eq ▸ hfd)
  have haddr : (s.addrMap.set fd (addr.bytes.take sizeofSockaddr))[fd]? =
      some (addr.bytes.take sizeofSockaddr) :=
    List.getElem?_set_self (h.parallel.addrMap ▸ h.length_eq ▸ hfd)
  rw [ht.names_iff hlen haddr ha, UInt32.toUInt32_toInt32]
  refine and_congr_right fun _ => and_congr_right fun hle => ?_
  rw [List.take_take, Nat.min_eq_left hle]

/-- A descriptor whose state has not changed has the name it had. -/
theorem Sound.names_congr {a : Address} (h : s.Sound) (ht : t.Sound) (hfd : fd < s.sockets.length)
    (ha : Readable a) (hstate : t.state fd = s.state fd) : t.Names fd a ↔ s.Names fd a := by
  simp only [state, Prod.mk.injEq] at hstate
  obtain ⟨-, haddr, hlen, -⟩ := hstate
  have hlt : fd < s.lenMap.length := h.parallel.lenMap ▸ h.length_eq ▸ hfd
  have hlt' : fd < s.addrMap.length := h.parallel.addrMap ▸ h.length_eq ▸ hfd
  rw [List.getElem?_eq_getElem hlt] at hlen
  rw [List.getElem?_eq_getElem hlt'] at haddr
  rw [ht.names_iff hlen haddr ha,
    h.names_iff (List.getElem?_eq_getElem hlt) (List.getElem?_eq_getElem hlt') ha]

/-- What is written after a successful `bind_ns3` is the local address, and a `sockaddr`
holds it. -/
def Keeps (s : Layer) : Op → Prop
  | .bindNs3 fd addr answer =>
    (answer = 0 → addr.len.toNat ≤ sizeofSockaddr) ∧
      (answer ≠ 0 → ∀ a ∈ valueAt fd s.bound, SameName addr a)
  | .connectNs3 fd addr _ => ∀ a ∈ valueAt fd s.bound, SameName addr a
  | _ => True

instance : DecidableRel Keeps
  | s, .bindNs3 fd addr answer => inferInstanceAs (Decidable
      ((answer = 0 → addr.len.toNat ≤ sizeofSockaddr) ∧
        (answer ≠ 0 → ∀ a ∈ valueAt fd s.bound, SameName addr a)))
  | s, .connectNs3 fd addr _ =>
    inferInstanceAs (Decidable (∀ a ∈ valueAt fd s.bound, SameName addr a))
  | _, .socketNs3 .. => .isTrue trivial
  | _, .socketpairNs3 .. => .isTrue trivial
  | _, .getsocknameNs3 .. => .isTrue trivial
  | _, .fcntlNs3 .. => .isTrue trivial
  | _, .fcntlsNs3 .. => .isTrue trivial

/-- No descriptor is bound, and no name of a bound one changes. -/
theorem Sound.localName_of_frame (h : s.Sound) (ht : t.Sound) (hs : s.LocalName)
    (hbound : t.bound = s.bound)
    (hframe : ∀ fd < s.sockets.length, t.state fd = s.state fd) : t.LocalName := by
  intro fd a ha
  rw [hbound] at ha
  obtain ⟨hlt, hread⟩ := h.bound fd a ha
  rw [h.length_eq] at hlt
  exact (h.names_congr ht hlt hread (hframe fd hlt)).2 (hs fd a ha)

/-- A name is written: only the descriptor it is written for is in question. -/
theorem Sound.localName_setName {c : SocketCall} {bound : List (ℕ × Address)} (h : s.Sound)
    (hs : s.LocalName) (hfd : fd < s.sockets.length) (haddr : Readable addr)
    (hbound : ∀ fd' a, valueAt fd' bound = some a → fd' < s.socketMap.length ∧ Readable a)
    (hother : ∀ fd' ≠ fd, valueAt fd' bound = valueAt fd' s.bound) :
    { (s.setName fd addr).callSocket fd c with bound := bound }.LocalName ↔
      ∀ a ∈ valueAt fd bound, SameName addr a := by
  obtain ⟨hsound, hframe⟩ := h.setName (c := c) haddr hbound
  constructor
  · intro hlocal a ha
    exact (h.names_setName_iff hsound hfd (hbound fd a ha).2).1 (hlocal fd a ha)
  · intro hsame fd' a ha
    rcases eq_or_ne fd' fd with rfl | hne
    · exact (h.names_setName_iff hsound hfd (hbound fd' a ha).2).2 (hsame a ha)
    · have ha' : valueAt fd' s.bound = some a := (hother fd' hne).symm.trans ha
      obtain ⟨hlt, hread⟩ := h.bound fd' a ha'
      exact (h.names_congr hsound (h.length_eq ▸ hlt) hread (hframe fd' hne)).2 (hs fd' a ha')

/-- **One step** keeps the local names exactly if it writes no other name over one. -/
theorem Sound.localName_step (h : s.Sound) (hs : s.LocalName) (ht : s.step op = some t) :
    t.LocalName ↔ s.Keeps op := by
  obtain ⟨⟨r, u⟩, hcall, rfl⟩ := Option.map_eq_some_iff.1 ht
  cases h.called hcall with
  | socket hu =>
    obtain ⟨hsound, -, -, -, hbound, hframe⟩ := h.socketNs3 hu
    exact iff_of_true (h.localName_of_frame hsound hs hbound hframe) trivial
  | socketpair hu hw =>
    obtain ⟨hsound, -, -, -, hbound, hframe⟩ := h.socketNs3 hu
    obtain ⟨hsound', -, -, -, hbound', hframe'⟩ := hsound.socketNs3 hw
    exact iff_of_true (hsound.localName_of_frame hsound'
      (h.localName_of_frame hsound hs hbound hframe) hbound' hframe') trivial
  | @bind fd addr answer hread hlt =>
    rw [h.localName_setName hs hlt hread (fun _ _ => h.bound_cons hlt hread) fun fd' hne => by
      split_ifs
      · simp [valueAt, hne.symm]
      · rfl]
    unfold Keeps
    by_cases hok : answer = 0
    · have hat : valueAt fd ((fd, addr) :: s.bound) = some addr := by simp [valueAt]
      rw [if_pos hok, hat]
      constructor
      · intro hsame
        exact ⟨fun _ => (hsame addr rfl).2.1, fun hne => absurd hok hne⟩
      · intro hfits a ha
        obtain rfl := Option.some.inj ha
        exact ⟨rfl, hfits.1 hok, rfl⟩
    · rw [if_neg hok]
      exact ⟨fun hsame => ⟨fun hzero => absurd hzero hok, fun _ => hsame⟩, fun hsame => hsame.2 hok⟩
  | getsockname => exact iff_of_true hs trivial
  | connect hread hlt => exact h.localName_setName hs hlt hread h.bound fun _ _ => rfl
  | fcntl => exact iff_of_true hs trivial
  | fcntls => exact iff_of_true hs trivial

/-! ## The layer keeps the state of each descriptor -/

/-- **The layer keeps the state of each descriptor:** the tables are parallel, a call returns
only descriptors that none had before and leaves what is kept for other descriptors
unchanged, and a bound descriptor has its local name. -/
structure Kept (s : Layer) : Prop where
  parallel : s.Parallel
  fresh : ∀ op r t, s.call op = some (r, t) →
    t.returned = s.returned ++ r.fds ∧ t.returned.Nodup
  frame : ∀ op r t, s.call op = some (r, t) → ∀ fd ∈ s.returned, op.descriptor ≠ some fd →
    t.state fd = s.state fd
  localName : s.LocalName

theorem Sound.kept_iff (h : s.Sound) : s.Kept ↔ s.LocalName := by
  refine ⟨Kept.localName, fun hlocal =>
    ⟨h.parallel, fun op r t ht => ?_, fun op r t ht => ?_, hlocal⟩⟩
  · obtain ⟨hsound, hreturned, -⟩ := h.call ht
    exact ⟨hreturned, hsound.returned ▸ List.nodup_range⟩
  · exact (h.call ht).2.2

theorem Sound.step (h : s.Sound) (ht : s.step op = some t) : t.Sound := by
  obtain ⟨⟨r, u⟩, hcall, rfl⟩ := Option.map_eq_some_iff.1 ht
  exact (h.call hcall).1

/-- **The layer keeps the state of each descriptor** in a run exactly if no address is
written for a bound descriptor but its local address, and local addresses fit into a
`sockaddr`. -/
theorem always_descriptors_kept_iff (ops : List Op) (t : Layer)
    (hrun : run Layer.step empty ops = some t) :
    Always Layer.step Kept empty ops ↔ EachStep Layer.step Keeps empty ops := by
  refine always_iff_eachStep (fun s op u hs hu => hs.step hu) (fun s op u hs hkept hu => ?_)
    Sound.empty (Sound.empty.kept_iff.2 fun fd a ha => nomatch ha) hrun
  rw [(hs.step hu).kept_iff]
  exact hs.localName_step hkept.localName hu

/-- The IPv4 address `10.1.1.1:80`. -/
def localAddress : Address := ⟨[2, 0, 0, 80, 10, 1, 1, 1, 0, 0, 0, 0, 0, 0, 0, 0], 16⟩

/-- The IPv4 address `10.2.1.5:443`. -/
def peerAddress : Address := ⟨[2, 0, 1, 187, 10, 2, 1, 5, 0, 0, 0, 0, 0, 0, 0, 0], 16⟩

/-- One socket is bound, and another one is connected. -/
theorem kept_with_two_sockets :
    let ops : List Op :=
      [.socketpairNs3 2 2 0, .bindNs3 0 localAddress 0, .connectNs3 1 peerAddress 0,
        .fcntlsNs3 0 4 2048]
    (run Layer.step empty ops).isSome = true ∧
      (Always Layer.step Kept empty ops ↔ EachStep Layer.step Keeps empty ops) ∧
      EachStep Layer.step Keeps empty ops :=
  ⟨by decide, always_descriptors_kept_iff _ _ rfl, by decide⟩

/-- **A connected socket has the name of its peer:** after `bind_ns3` and `connect_ns3` the
name is the address of the peer. -/
theorem not_always_descriptors_kept :
    ¬Always Layer.step Kept empty
      [.socketNs3 2 2 0, .bindNs3 0 localAddress 0, .connectNs3 0 peerAddress 0] := by
  intro h
  have hkept := h _ _ (List.prefix_refl _) rfl
  obtain ⟨memory, hget, hname⟩ := hkept.localName 0 localAddress (by decide) sockaddr
    (by decide) (by decide)
  obtain rfl := (Prod.mk.inj (Option.some.inj hget)).2
  exact absurd hname (by decide)

end Layer
end Sockets
end QuicNs3
