/-
# One session per connection id

The containers of the dispatcher exclude each other where it matters: a connection
id with a session is in none of the others, and one with a buffered client hello is
neither in the time wait list nor with the rejector.  A callback of the rejector
belongs to an id that has been temporarily buffered ever since its packet arrived,
so that id has no session when the callback runs, although the callback itself does
not look.

`Inv` is this invariant.  `always_exclusive` draws the conclusion for every run: a
session is never inserted over another, and no id has a session and is in the time
wait list or in the buffered packet store.
-/

import QuicNs3.Dispatch.Basic
import QuicNs3.Lib.Run

namespace QuicNs3
namespace Dispatch

open Lib

variable {π : Type} {d d' t : Dispatcher π} {b : BufferedPacketStore π} {w : TimeWaitList}
  {flags : Flags} {id k : ℕ} {now : ℤ}

/-- The invariant of the dispatcher. -/
structure Inv (d : Dispatcher π) : Prop where
  not_collided : d.collided = false
  nodup : d.sessions.Nodup
  free : ∀ id ∈ d.sessions, id ∉ keys d.timeWait ∧ id ∉ keys d.store.undecryptablePackets ∧
    id ∉ d.temporarilyBuffered
  chlo_nodup : d.store.connectionsWithChlo.Nodup
  chlo_buffered : ∀ id ∈ d.store.connectionsWithChlo, id ∈ keys d.store.undecryptablePackets
  chlo_free : ∀ id ∈ d.store.connectionsWithChlo, id ∉ keys d.timeWait ∧ id ∉ d.temporarilyBuffered
  rejecting : ∀ r ∈ d.rejectors, r.connectionId ∈ d.temporarilyBuffered
  rejectors_nodup : (d.rejectors.map Rejector.connectionId).Nodup

/-- A connection id that is not known: `OnUnauthenticatedPublicHeader` goes on with
it. -/
structure Unknown (d : Dispatcher π) (id : ℕ) : Prop where
  not_session : id ∉ d.sessions
  not_chlo : id ∉ d.store.connectionsWithChlo
  not_temporary : id ∉ d.temporarilyBuffered

/-! ## The time wait list -/

theorem mem_keys_without {V : Type} {l : List (ℕ × V)} :
    k ∈ keys (without id l) ↔ k ∈ keys l ∧ k ≠ id := by
  constructor
  · intro h
    obtain ⟨e, he, rfl⟩ := List.mem_map.1 h
    obtain ⟨hl, hne⟩ := mem_without.1 he
    exact ⟨List.mem_map_of_mem hl, hne⟩
  · rintro ⟨h, hne⟩
    obtain ⟨e, he, rfl⟩ := List.mem_map.1 h
    exact List.mem_map_of_mem (mem_without.2 ⟨he, hne⟩)

/-- What is in the time wait list was there before, or has been added. -/
theorem mem_keys_addConnectionIdToTimeWait {version : ℕ} {rejected : Bool}
    (h : k ∈ keys (w.addConnectionIdToTimeWait flags id version rejected now)) :
    k = id ∨ k ∈ keys w := by
  unfold TimeWaitList.addConnectionIdToTimeWait keys at h
  rw [List.map_append, List.mem_append] at h
  rcases h with h | h
  · right
    have htrim : ∀ l : TimeWaitList,
        (l.trimTimeWaitListIfNeeded flags).Sublist l := by
      intro l
      unfold TimeWaitList.trimTimeWaitListIfNeeded
      split_ifs
      · exact List.Sublist.refl l
      · exact List.drop_sublist _ l
    exact (mem_keys_without.1 (((htrim _).map Prod.fst).subset h)).1
  · exact .inl (by simpa using h)

@[simp] theorem keys_processPacket (w : TimeWaitList) (id : ℕ) :
    keys (w.processPacket id) = keys w := by
  unfold TimeWaitList.processPacket keys
  rw [List.map_map]
  refine List.map_congr_left fun e _ => ?_
  dsimp only [Function.comp]
  split_ifs <;> rfl

/-- A change of the time wait list that adds at most `id`, which has no session and no
buffered client hello. -/
theorem Inv.timeWait (h : Inv d) (hid : id ∉ d.sessions)
    (hchlo : id ∉ d.store.connectionsWithChlo) (hw : ∀ k ∈ keys w, k = id ∨ k ∈ keys d.timeWait) :
    Inv { d with timeWait := w } where
  not_collided := h.not_collided
  nodup := h.nodup
  free := by
    intro k hk
    obtain ⟨htw, hrest⟩ := h.free k hk
    refine ⟨fun hmem => ?_, hrest⟩
    rcases hw k hmem with rfl | hmem
    · exact hid hk
    · exact htw hmem
  chlo_nodup := h.chlo_nodup
  chlo_buffered := h.chlo_buffered
  chlo_free := by
    intro k hk
    obtain ⟨htw, htemp⟩ := h.chlo_free k hk
    refine ⟨fun hmem => ?_, htemp⟩
    rcases hw k hmem with rfl | hmem
    · exact hchlo hk
    · exact htw hmem
  rejecting := h.rejecting
  rejectors_nodup := h.rejectors_nodup

theorem addToTimeWait_inv (h : Inv d) (hid : id ∉ d.sessions)
    (hchlo : id ∉ d.store.connectionsWithChlo) (rejected : Bool) :
    Inv (d.addToTimeWait id rejected now) :=
  h.timeWait hid hchlo fun _ hk => mem_keys_addConnectionIdToTimeWait hk

theorem Unknown.addToTimeWait (h : Unknown d id) (rejected : Bool) :
    Unknown (d.addToTimeWait id rejected now) id :=
  ⟨h.not_session, h.not_chlo, h.not_temporary⟩

/-! ## The buffered packet store -/

theorem keys_map_replace {V : Type} (l : List (ℕ × V)) (id : ℕ) (v : V) :
    keys (l.map fun e => if e.1 = id then (id, v) else e) = keys l := by
  unfold keys
  rw [List.map_map]
  refine List.map_congr_left fun e _ => ?_
  dsimp only [Function.comp]
  split_ifs with he
  · exact he.symm
  · rfl

/-- **A packet is buffered**: its connection is in the store if there is room, and
among those with a client hello if it is one. -/
theorem enqueuePacket_spec (flags : Flags) (b : BufferedPacketStore π) (id : ℕ) (packet : π)
    (isChlo : Bool) (alpn : String) (now : ℤ) :
    let b' := (b.enqueuePacket flags id packet isChlo alpn now).2
    (keys b'.undecryptablePackets =
      if id ∈ keys b.undecryptablePackets ∨ b.shouldBufferPacket flags isChlo = true then
        keys b.undecryptablePackets
      else keys b.undecryptablePackets ++ [id]) ∧
      (b'.connectionsWithChlo = b.connectionsWithChlo ∨
        isChlo = true ∧ id ∉ b.connectionsWithChlo ∧ id ∈ keys b'.undecryptablePackets ∧
          b'.connectionsWithChlo = b.connectionsWithChlo ++ [id]) := by
  unfold BufferedPacketStore.enqueuePacket
  dsimp only
  set queue := (valueAt id b.undecryptablePackets).getD ⟨[], 0, ""⟩ with hqueue
  set b₁ : BufferedPacketStore π := if b.hasBufferedPackets id then b
    else { b with undecryptablePackets := b.undecryptablePackets ++ [(id, queue)] } with hb₁
  -- The connection has a queue before the packet is put into it.
  have hqueued : keys b₁.undecryptablePackets =
        (if id ∈ keys b.undecryptablePackets then keys b.undecryptablePackets
          else keys b.undecryptablePackets ++ [id]) ∧
      id ∈ keys b₁.undecryptablePackets ∧ b₁.connectionsWithChlo = b.connectionsWithChlo := by
    rw [hb₁]
    by_cases hhas : id ∈ keys b.undecryptablePackets
    · rw [if_pos (show b.hasBufferedPackets id = true from decide_eq_true hhas), if_pos hhas]
      exact ⟨rfl, hhas, rfl⟩
    · rw [if_neg (show ¬ b.hasBufferedPackets id = true from fun h => hhas (of_decide_eq_true h)),
        if_neg hhas]
      exact ⟨by simp [keys], by simp [keys], rfl⟩
  obtain ⟨hkeys, hid, hchlo⟩ := hqueued
  by_cases hfull : (!b.hasBufferedPackets id && b.shouldBufferPacket flags isChlo) = true
  · rw [if_pos hfull, if_pos (Or.inr (Bool.and_eq_true_iff.1 hfull).2)]
    exact ⟨rfl, .inl rfl⟩
  rw [if_neg hfull]
  -- There is room for a new connection.
  have hroom : keys b₁.undecryptablePackets =
      if id ∈ keys b.undecryptablePackets ∨ b.shouldBufferPacket flags isChlo = true then
        keys b.undecryptablePackets
      else keys b.undecryptablePackets ++ [id] := by
    rw [hkeys]
    refine if_congr ⟨Or.inl, fun h => ?_⟩ rfl rfl
    by_contra hnot
    refine hfull (Bool.and_eq_true_iff.2 ⟨?_, h.resolve_left hnot⟩)
    simp [BufferedPacketStore.hasBufferedPackets, hnot]
  by_cases hmany : (!isChlo && decide (kDefaultMaxUndecryptablePackets ≤
      if b₁.hasChloForConnection id then queue.bufferedPackets.length - 1
      else queue.bufferedPackets.length)) = true
  · rw [if_pos hmany]
    exact ⟨hroom, .inl hchlo⟩
  rw [if_neg hmany]
  dsimp only
  rw [keys_map_replace]
  refine ⟨hroom, ?_⟩
  split_ifs with hc
  · simp only [Bool.and_eq_true, Bool.not_eq_true', BufferedPacketStore.hasChloForConnection,
      decide_eq_false_iff_not, hchlo] at hc
    exact .inr ⟨hc.1, hc.2, hid, by rw [hchlo]⟩
  · exact .inl hchlo

/-- The connections with a queue, then. -/
theorem mem_keys_enqueuePacket (flags : Flags) (b : BufferedPacketStore π) (id : ℕ) (packet : π)
    (isChlo : Bool) (alpn : String) (now : ℤ) :
    let b' := (b.enqueuePacket flags id packet isChlo alpn now).2
    (∀ k ∈ keys b.undecryptablePackets, k ∈ keys b'.undecryptablePackets) ∧
      ∀ k ∈ keys b'.undecryptablePackets, k = id ∨ k ∈ keys b.undecryptablePackets := by
  have hkeys := (enqueuePacket_spec flags b id packet isChlo alpn now).1
  dsimp only at hkeys ⊢
  rw [hkeys]
  split_ifs
  · exact ⟨fun _ h => h, fun _ h => .inr h⟩
  · refine ⟨fun k hk => List.mem_append_left _ hk, fun k hk => ?_⟩
    exact (List.mem_append.1 hk).symm.imp_left List.mem_singleton.1

/-- Buffering a packet of a connection without a session; a client hello only if the
connection is not in the time wait list and not with the rejector. -/
theorem enqueuePacket_inv (h : Inv d) (hid : id ∉ d.sessions) (packet : π) (isChlo : Bool)
    (alpn : String)
    (hchlo : isChlo = true → id ∉ keys d.timeWait ∧ id ∉ d.temporarilyBuffered) :
    Inv { d with store := (d.store.enqueuePacket d.flags id packet isChlo alpn now).2 } := by
  obtain ⟨hsub, hnew⟩ := mem_keys_enqueuePacket d.flags d.store id packet isChlo alpn now
  obtain ⟨-, hcases⟩ := enqueuePacket_spec d.flags d.store id packet isChlo alpn now
  have hfree : ∀ k ∈ d.sessions, k ∉ keys d.timeWait ∧
      k ∉ keys (d.store.enqueuePacket d.flags id packet isChlo alpn now).2.undecryptablePackets ∧
      k ∉ d.temporarilyBuffered := by
    intro k hk
    obtain ⟨htw, hbuf, htemp⟩ := h.free k hk
    refine ⟨htw, fun hmem => ?_, htemp⟩
    rcases hnew k hmem with rfl | hmem
    · exact hid hk
    · exact hbuf hmem
  rcases hcases with heq | ⟨his, hnot, hmem, heq⟩
  · exact ⟨h.not_collided, h.nodup, hfree, heq.symm ▸ h.chlo_nodup,
      fun k hk => hsub k (h.chlo_buffered k (heq ▸ hk)), fun k hk => h.chlo_free k (heq ▸ hk),
      h.rejecting, h.rejectors_nodup⟩
  · refine ⟨h.not_collided, h.nodup, hfree, ?_, fun k hk => ?_, fun k hk => ?_, h.rejecting,
      h.rejectors_nodup⟩
    · dsimp only
      rw [heq, List.nodup_append]
      refine ⟨h.chlo_nodup, by simp, fun a ha c hc => ?_⟩
      rintro rfl
      exact hnot (List.mem_singleton.1 hc ▸ ha)
    · dsimp only at hk
      rw [heq] at hk
      rcases List.mem_append.1 hk with hk | hk
      · exact hsub k (h.chlo_buffered k hk)
      · exact List.mem_singleton.1 hk ▸ hmem
    · dsimp only at hk
      rw [heq] at hk
      rcases List.mem_append.1 hk with hk | hk
      · exact h.chlo_free k hk
      · exact List.mem_singleton.1 hk ▸ hchlo his

theorem bufferEarlyPacket_inv (h : Inv d) (hid : id ∉ d.sessions) (packet : π) :
    Inv (d.bufferEarlyPacket id packet now) :=
  enqueuePacket_inv h hid packet false "" fun h => absurd h Bool.false_ne_true

/-- Taking the packets of a connection without a buffered client hello. -/
theorem deliverPackets_inv (h : Inv d) (hchlo : id ∉ d.store.connectionsWithChlo) :
    Inv { d with store := (d.store.deliverPackets id).2 } where
  not_collided := h.not_collided
  nodup := h.nodup
  free := by
    intro k hk
    obtain ⟨htw, hbuf, htemp⟩ := h.free k hk
    exact ⟨htw, fun hmem => hbuf (mem_keys_without.1 hmem).1, htemp⟩
  chlo_nodup := h.chlo_nodup
  chlo_buffered := by
    intro k hk
    refine mem_keys_without.2 ⟨h.chlo_buffered k hk, ?_⟩
    rintro rfl
    exact hchlo hk
  chlo_free := h.chlo_free
  rejecting := h.rejecting
  rejectors_nodup := h.rejectors_nodup

/-- Discarding what is buffered of a connection, which then has no client hello. -/
theorem discardPackets_inv (h : Inv d) (id : ℕ) :
    Inv { d with store := d.store.discardPackets id } where
  not_collided := h.not_collided
  nodup := h.nodup
  free := by
    intro k hk
    obtain ⟨htw, hbuf, htemp⟩ := h.free k hk
    exact ⟨htw, fun hmem => hbuf (mem_keys_without.1 hmem).1, htemp⟩
  chlo_nodup := h.chlo_nodup.sublist List.filter_sublist
  chlo_buffered := by
    intro k hk
    obtain ⟨hk, hne⟩ := List.mem_filter.1 hk
    exact mem_keys_without.2 ⟨h.chlo_buffered k hk, of_decide_eq_true hne⟩
  chlo_free := fun k hk => h.chlo_free k (List.mem_filter.1 hk).1
  rejecting := h.rejecting
  rejectors_nodup := h.rejectors_nodup

/-! ## Sessions -/

/-- **A session is inserted** for an id that is in none of the containers. -/
theorem insertSession_inv (h : Inv d) (hid : Unknown d id) (htw : id ∉ keys d.timeWait)
    (hbuf : id ∉ keys d.store.undecryptablePackets) : Inv (d.insertSession id) := by
  unfold Dispatcher.insertSession
  rw [if_neg hid.not_session]
  refine ⟨h.not_collided, List.nodup_cons.2 ⟨hid.not_session, h.nodup⟩, fun k hk => ?_,
    h.chlo_nodup, h.chlo_buffered, h.chlo_free, h.rejecting, h.rejectors_nodup⟩
  rcases List.mem_cons.1 hk with rfl | hk
  · exact ⟨htw, hbuf, hid.not_temporary⟩
  · exact h.free k hk

/-- **A session closes**: it leaves the map when it enters the time wait list. -/
theorem onConnectionClosed_inv (h : Inv d) (id version : ℕ) (rejected : Bool) (now : ℤ) :
    Inv (d.onConnectionClosed id version rejected now) := by
  unfold Dispatcher.onConnectionClosed
  split_ifs with hid
  · have hchlo : id ∉ d.store.connectionsWithChlo := fun hmem =>
      (h.free id hid).2.1 (h.chlo_buffered id hmem)
    -- Without the session the id may be added to the time wait list.
    have hcut : Inv { d with sessions := d.sessions.filter fun k => decide (k ≠ id) } :=
      ⟨h.not_collided, h.nodup.sublist List.filter_sublist,
        fun k hk => h.free k (List.mem_filter.1 hk).1, h.chlo_nodup, h.chlo_buffered, h.chlo_free,
        h.rejecting, h.rejectors_nodup⟩
    refine hcut.timeWait (fun hmem => ?_) hchlo fun k hk => mem_keys_addConnectionIdToTimeWait hk
    exact of_decide_eq_true (List.mem_filter.1 hmem).2 rfl
  · exact h

theorem sessionProcesses_inv (h : Inv d) (id : ℕ) (o : Dispatcher.Outcome) (now : ℤ) :
    Inv (d.sessionProcesses id o now) := by
  unfold Dispatcher.sessionProcesses
  split_ifs
  · exact onConnectionClosed_inv h id _ _ now
  · exact h

/-- What the invariant does not read. -/
theorem Inv.congr (h : Inv d) (hs : d'.sessions = d.sessions) (hb : d'.store = d.store)
    (ht : d'.temporarilyBuffered = d.temporarilyBuffered) (hw : d'.timeWait = d.timeWait)
    (hr : d'.rejectors = d.rejectors) (hc : d'.collided = d.collided) : Inv d' where
  not_collided := hc ▸ h.not_collided
  nodup := hs ▸ h.nodup
  free := by rw [hs, hb, ht, hw]; exact h.free
  chlo_nodup := hb ▸ h.chlo_nodup
  chlo_buffered := hb ▸ h.chlo_buffered
  chlo_free := by rw [hb, ht, hw]; exact h.chlo_free
  rejecting := by rw [hr, ht]; exact h.rejecting
  rejectors_nodup := hr ▸ h.rejectors_nodup

theorem Inv.framerVersion (h : Inv d) (version : ℕ) : Inv { d with framerVersion := version } :=
  h.congr rfl rfl rfl rfl rfl rfl

theorem Inv.newSessionsAllowed (h : Inv d) (n : ℤ) : Inv { d with newSessionsAllowed := n } :=
  h.congr rfl rfl rfl rfl rfl rfl

/-- **The session of a client hello.** -/
theorem processChlo_inv (h : Inv d) (hid : Unknown d id) (htw : id ∉ keys d.timeWait) (packet : π)
    (o : Dispatcher.Outcome) : Inv (d.processChlo id packet o now) := by
  unfold Dispatcher.processChlo
  split_ifs
  · refine (addToTimeWait_inv h hid.not_session hid.not_chlo false).timeWait
      hid.not_session hid.not_chlo fun k hk => ?_
    rw [keys_processPacket] at hk
    exact .inr hk
  · exact enqueuePacket_inv h hid.not_session packet true _ fun _ => ⟨htw, hid.not_temporary⟩
  · -- The source inserts the session before it empties the store.
    have hd := deliverPackets_inv h hid.not_chlo
    have hu : Unknown { d with store := (d.store.deliverPackets id).2 } id :=
      ⟨hid.not_session, hid.not_chlo, hid.not_temporary⟩
    have hs := insertSession_inv hd hu htw fun hmem => (mem_keys_without.1 hmem).2 rfl
    have hcomm :
        { d.insertSession id with store := ((d.insertSession id).store.deliverPackets id).2 } =
          { d with store := (d.store.deliverPackets id).2 }.insertSession id := by
      unfold Dispatcher.insertSession
      rw [if_neg hid.not_session, if_neg hid.not_session]
    dsimp only
    rw [hcomm]
    exact (sessionProcesses_inv hs id o now).congr rfl rfl rfl rfl rfl rfl

/-! ## The fate of a packet -/

/-- The fate of a packet with an unknown connection id, which is to be processed only
if it is not in the time wait list. -/
theorem processUnauthenticatedHeaderFate_inv (h : Inv d) (hid : Unknown d id) (fate : PacketFate)
    (htw : fate = .process → id ∉ keys d.timeWait) (packet : π) (o : Dispatcher.Outcome) :
    Inv (d.processUnauthenticatedHeaderFate fate id packet o now) := by
  cases fate with
  | process => exact processChlo_inv h hid (htw rfl) packet o
  | timeWait =>
    have hadd : ∀ u : Dispatcher π, Inv u → Unknown u id →
        Inv { u with
          timeWait := u.timeWait.processPacket id
          store := u.store.discardPackets id } := by
      intro u hu hid
      refine (discardPackets_inv hu id).timeWait hid.not_session (fun hmem => ?_)
        fun k hk => ?_
      · exact hid.not_chlo (List.mem_filter.1 hmem).1
      · rw [keys_processPacket] at hk
        exact .inr hk
    unfold Dispatcher.processUnauthenticatedHeaderFate
    dsimp only
    split_ifs
    · exact hadd _ (addToTimeWait_inv h hid.not_session hid.not_chlo false)
        (hid.addToTimeWait false)
    · exact hadd d h hid
  | buffer => exact bufferEarlyPacket_inv h hid.not_session packet
  | drop => exact h

theorem processStatelessRejectorState_inv (h : Inv d) (hid : Unknown d id)
    (htw : id ∉ keys d.timeWait) (state : RejectorState) (packet : π) (o : Dispatcher.Outcome) :
    Inv (d.processStatelessRejectorState state id packet o now) := by
  have hreject : ∀ rejected, Inv ((d.addToTimeWait id rejected
      now).processUnauthenticatedHeaderFate .timeWait id packet o now) := fun rejected =>
    processUnauthenticatedHeaderFate_inv
      (addToTimeWait_inv h hid.not_session hid.not_chlo rejected) (hid.addToTimeWait rejected) _
      PacketFate.noConfusion packet o
  cases state with
  | unknown => exact h
  | unsupported => exact processChlo_inv h hid htw packet o
  | failed => exact hreject false
  | accepted => exact processChlo_inv h hid htw packet o
  | rejected => exact hreject true

/-- A client hello goes to the rejector: its connection is temporarily buffered. -/
theorem Inv.reject (h : Inv d) (hid : Unknown d id) (packet : π) (version : ℕ) (alpn : String) :
    Inv { d with
      currentAlpn := alpn
      temporarilyBuffered :=
        if id ∈ d.temporarilyBuffered then d.temporarilyBuffered else id :: d.temporarilyBuffered
      rejectors := d.rejectors ++ [⟨id, packet, version⟩] } := by
  rw [if_neg hid.not_temporary]
  refine ⟨h.not_collided, h.nodup, fun k hk => ?_, h.chlo_nodup, h.chlo_buffered, fun k hk => ?_,
    fun r hr => ?_, ?_⟩
  · obtain ⟨htw, hbuf, htemp⟩ := h.free k hk
    refine ⟨htw, hbuf, fun hmem => ?_⟩
    rcases List.mem_cons.1 hmem with rfl | hmem
    · exact hid.not_session hk
    · exact htemp hmem
  · obtain ⟨htw, htemp⟩ := h.chlo_free k hk
    refine ⟨htw, fun hmem => ?_⟩
    rcases List.mem_cons.1 hmem with rfl | hmem
    · exact hid.not_chlo hk
    · exact htemp hmem
  · rcases List.mem_append.1 hr with hr | hr
    · exact List.mem_cons_of_mem id (h.rejecting r hr)
    · obtain rfl := List.mem_singleton.1 hr
      exact List.mem_cons_self ..
  · rw [List.map_append, List.nodup_append]
    refine ⟨h.rejectors_nodup, by simp, fun a ha c hc => ?_⟩
    rintro rfl
    obtain ⟨r, hr, rfl⟩ := List.mem_map.1 ha
    obtain rfl : r.connectionId = id := by simpa using hc
    exact hid.not_temporary (h.rejecting r hr)

theorem maybeRejectStatelessly_inv (h : Inv d) (hid : Unknown d id) (htw : id ∉ keys d.timeWait)
    (version : ℕ) (packet : π) (chlo : Chlo) (o : Dispatcher.Outcome) :
    Inv (d.maybeRejectStatelessly id version packet chlo o now) := by
  -- The application protocol of the hello is no part of the invariant.
  have hset : ∀ alpn, Inv { d with currentAlpn := alpn } := fun alpn =>
    h.congr rfl rfl rfl rfl rfl rfl
  have hu : ∀ alpn, Unknown { d with currentAlpn := alpn } id := fun alpn =>
    ⟨hid.not_session, hid.not_chlo, hid.not_temporary⟩
  have hbuffer : Inv (d.bufferEarlyPacket id packet now) :=
    bufferEarlyPacket_inv h hid.not_session packet
  have hprocess : ∀ alpn, Inv ({ d with currentAlpn := alpn }.processChlo id packet o now) :=
    fun alpn => processChlo_inv (hset alpn) (hu alpn) htw packet o
  unfold Dispatcher.maybeRejectStatelessly
  by_cases hcheap : (!d.flags.allowChloBuffering || !d.flags.useCheapStatelessRejects ||
      !d.flags.enableStatelessRejectSupport) = true
  · rw [if_pos hcheap]
    cases chlo with
    | notChlo =>
      dsimp only
      split_ifs
      · exact hbuffer
      · exact hprocess _
    | prohibited alpn => exact hprocess _
    | chlo alpn state => exact hprocess _
  · rw [if_neg hcheap]
    have hreject : ∀ alpn state, Inv ({ d with currentAlpn := alpn }.processStatelessRejectorState
        state id packet o now) := fun alpn state =>
      processStatelessRejectorState_inv (hset alpn) (hu alpn) htw state packet o
    cases chlo with
    | notChlo => exact hbuffer
    | prohibited alpn =>
      exact processUnauthenticatedHeaderFate_inv
        (addToTimeWait_inv (hset alpn) hid.not_session hid.not_chlo false)
        ((hu alpn).addToTimeWait false) _ PacketFate.noConfusion packet o
    | chlo alpn state =>
      cases state with
      | unknown => exact h.reject hid packet version alpn
      | unsupported => exact hreject alpn _
      | failed => exact hreject alpn _
      | accepted => exact hreject alpn _
      | rejected => exact hreject alpn _

theorem timeWait_processPacket_inv (h : Inv d) (hid : id ∉ d.sessions)
    (hchlo : id ∉ d.store.connectionsWithChlo) :
    Inv { d with timeWait := d.timeWait.processPacket id } := by
  refine h.timeWait hid hchlo fun k hk => ?_
  rw [keys_processPacket] at hk
  exact .inr hk

theorem onUnauthenticatedHeader_inv (h : Inv d) (header : PacketHeader)
    (hid : Unknown d header.connectionId) (n : ℕ) (packet : π) (chlo : Chlo)
    (o : Dispatcher.Outcome) : Inv (d.onUnauthenticatedHeader header n packet chlo o now) := by
  unfold Dispatcher.onUnauthenticatedHeader
  dsimp only
  split_ifs with htw
  · exact timeWait_processPacket_inv h hid.not_session hid.not_chlo
  · have htw' : header.connectionId ∉ keys d.timeWait := fun hmem => htw (decide_eq_true hmem)
    split
    · exact maybeRejectStatelessly_inv h hid htw' _ packet chlo o
    · exact processUnauthenticatedHeaderFate_inv h hid _ (fun _ => htw') packet o

/-- **A packet arrives.** -/
theorem processPacket_inv (h : Inv d) (header : PacketHeader) (packet : π) (chlo : Chlo)
    (o : Dispatcher.Outcome) : Inv (d.processPacket header packet chlo o now) := by
  unfold Dispatcher.processPacket
  dsimp only
  split_ifs with _ _ hs hc ht
  · exact h
  · exact h
  · exact sessionProcesses_inv h _ o now
  · exact bufferEarlyPacket_inv h hs packet
  · exact bufferEarlyPacket_inv h hs packet
  · exact h
  · cases d.unknownVersion header with
    | none => exact h
    | some version =>
      cases header.packetNumber with
      | none => exact h.framerVersion version
      | some n =>
        refine onUnauthenticatedHeader_inv (h.framerVersion version) header ⟨hs, ?_, ht⟩ n packet
          chlo o
        exact fun hmem => hc (decide_eq_true hmem)

/-! ## Later -/

/-- **The callback of a rejector runs.**  Its connection has been temporarily buffered
since its packet arrived. -/
theorem onStatelessRejectorProcessDone_inv {index : ℕ} {r : Rejector π} (h : Inv d)
    (hr : d.rejectors[index]? = some r) (state : RejectorState) (o : Dispatcher.Outcome) :
    Inv ({ d with rejectors := d.rejectors.eraseIdx index }.onStatelessRejectorProcessDone r state
      o now) := by
  have htemp := h.rejecting r (List.mem_of_getElem? hr)
  set u : Dispatcher π := { d with
    rejectors := d.rejectors.eraseIdx index
    temporarilyBuffered := d.temporarilyBuffered.filter fun k => decide (k ≠ r.connectionId) }
    with hu
  have hinv : Inv u := by
    refine ⟨h.not_collided, h.nodup, fun k hk => ?_, h.chlo_nodup, h.chlo_buffered,
      fun k hk => ?_, fun r' hr' => ?_, ?_⟩
    · obtain ⟨htw, hbuf, htemp⟩ := h.free k hk
      exact ⟨htw, hbuf, fun hmem => htemp (List.mem_filter.1 hmem).1⟩
    · obtain ⟨htw, htemp⟩ := h.chlo_free k hk
      exact ⟨htw, fun hmem => htemp (List.mem_filter.1 hmem).1⟩
    · -- No other callback belongs to the same connection.
      have hmem : r' ∈ d.rejectors := (List.eraseIdx_sublist ..).subset hr'
      refine List.mem_filter.2 ⟨h.rejecting r' hmem, decide_eq_true fun heq => ?_⟩
      obtain ⟨i, hne, hi⟩ := List.mem_eraseIdx_iff_getElem?.1 hr'
      have hlt : i < (d.rejectors.map Rejector.connectionId).length := by
        rw [List.length_map]
        exact (List.getElem?_eq_some_iff.1 hi).1
      refine hne ((List.getElem?_inj hlt h.rejectors_nodup).1 ?_)
      rw [List.getElem?_map, List.getElem?_map, hi, hr, Option.map_some, Option.map_some, heq]
    · exact h.rejectors_nodup.sublist ((List.eraseIdx_sublist ..).map _)
  have hid : Unknown u r.connectionId := by
    refine ⟨fun hmem => (h.free _ hmem).2.2 htemp, fun hmem => (h.chlo_free _ hmem).2 htemp,
      fun hmem => ?_⟩
    exact of_decide_eq_true (List.mem_filter.1 hmem).2 rfl
  unfold Dispatcher.onStatelessRejectorProcessDone
  dsimp only
  by_cases htw : d.timeWait.isConnectionIdInTimeWait r.connectionId = true
  · rw [if_pos htw]
    exact timeWait_processPacket_inv hinv hid.not_session hid.not_chlo
  · rw [if_neg htw]
    generalize (if d.flags.setVersionOnAsyncGetProofReturns then r.firstVersion
      else d.framerVersion) = version
    refine processStatelessRejectorState_inv (hinv.framerVersion version)
      ⟨hid.not_session, hid.not_chlo, hid.not_temporary⟩ (fun hmem => ?_) state r.packet o
    exact htw (decide_eq_true hmem)

/-- **Buffered client hellos get their sessions.** -/
theorem processChlosFrom_inv (h : Inv d) (fuel : ℕ) (os : List Dispatcher.Outcome) :
    Inv (Dispatcher.processChlosFrom now fuel d os) := by
  induction fuel generalizing d os with
  | zero => exact h
  | succ fuel ih =>
    unfold Dispatcher.processChlosFrom BufferedPacketStore.deliverPacketsForNextConnection
    cases hc : d.store.connectionsWithChlo with
    | nil => exact h
    | cons id l =>
      dsimp only
      have hnd := h.chlo_nodup
      rw [hc, List.nodup_cons] at hnd
      have hmem : id ∈ d.store.connectionsWithChlo := hc ▸ List.mem_cons_self ..
      have hsub : ∀ k ∈ l, k ∈ d.store.connectionsWithChlo := fun k hk =>
        hc ▸ List.mem_cons_of_mem id hk
      obtain ⟨htw, htemp⟩ := h.chlo_free id hmem
      have hpop : Inv { d with store := { d.store with connectionsWithChlo := l } } :=
        ⟨h.not_collided, h.nodup, h.free, hnd.2, fun k hk => h.chlo_buffered k (hsub k hk),
          fun k hk => h.chlo_free k (hsub k hk), h.rejecting, h.rejectors_nodup⟩
      have hd := deliverPackets_inv hpop hnd.1
      split_ifs
      · exact hd
      · refine ih ((sessionProcesses_inv (insertSession_inv hd ⟨?_, hnd.1, htemp⟩ htw ?_) id _
          now).newSessionsAllowed _) _
        · exact fun hs => (h.free id hs).2.1 (h.chlo_buffered id hmem)
        · exact fun hmem => (mem_keys_without.1 hmem).2 rfl

/-- **Buffered packets expire.**  Their connections go to the time wait list, and have
no client hello any more. -/
theorem expireFrom_inv (l : List (ℕ × BufferedPacketList π))
    (h : Inv { d with store := { d.store with undecryptablePackets := l } }) :
    Inv (d.expireFrom now l) := by
  induction l generalizing d with
  | nil => exact h
  | cons e l ih =>
    unfold Dispatcher.expireFrom
    split_ifs
    · exact h
    · refine ih ?_
      have hmem : e.1 ∈ keys (e :: l) := List.mem_cons_self ..
      -- The queue goes, and with it the client hello in it.
      have hcut : Inv { d with store := ⟨l, d.store.connectionsWithChlo.filter fun k =>
          decide (k ≠ e.1)⟩ } := by
        refine ⟨h.not_collided, h.nodup, fun k hk => ?_, h.chlo_nodup.sublist List.filter_sublist,
          fun k hk => ?_, fun k hk => h.chlo_free k (List.mem_filter.1 hk).1, h.rejecting,
          h.rejectors_nodup⟩
        · obtain ⟨htw, hbuf, htemp⟩ := h.free k hk
          exact ⟨htw, fun hl => hbuf (List.mem_cons_of_mem e.1 hl), htemp⟩
        · obtain ⟨hk, hne⟩ := List.mem_filter.1 hk
          exact List.mem_of_ne_of_mem (of_decide_eq_true hne) (h.chlo_buffered k hk)
      have hs : e.1 ∉ d.sessions := fun hs => (h.free e.1 hs).2.1 hmem
      refine hcut.timeWait hs (fun hc => ?_) fun k hk => mem_keys_addConnectionIdToTimeWait hk
      exact of_decide_eq_true (List.mem_filter.1 hc).2 rfl

/-! ## Whole runs -/

theorem inv_new (flags : Flags) (versions : List ℕ) :
    Inv (Dispatcher.new flags versions : Dispatcher π) :=
  ⟨rfl, List.nodup_nil, by simp [Dispatcher.new], List.nodup_nil, by simp [Dispatcher.new],
    by simp [Dispatcher.new], by simp [Dispatcher.new], List.nodup_nil⟩

theorem inv_step (h : Inv d) (op : Op π) (hs : d.step op = some d') : Inv d' := by
  cases op with
  | processPacket header packet chlo o now =>
    obtain rfl := Option.some.inj hs
    exact processPacket_inv h header packet chlo o
  | rejectorDone index state o now =>
    obtain ⟨r, hr, rfl⟩ := Option.map_eq_some_iff.1 hs
    exact onStatelessRejectorProcessDone_inv h hr state o
  | processBufferedChlos n os now =>
    obtain rfl := Option.some.inj hs
    exact processChlosFrom_inv (h.newSessionsAllowed n) _ os
  | expirationTimeout now =>
    obtain rfl := Option.some.inj hs
    exact expireFrom_inv _ h
  | cleanUpOldConnectionIds now =>
    obtain rfl := Option.some.inj hs
    have hsub : ∀ k ∈ keys (d.timeWait.cleanUpOldConnectionIds now), k ∈ keys d.timeWait :=
      fun k hk => ((List.dropWhile_sublist _).map Prod.fst).subset hk
    exact ⟨h.not_collided, h.nodup,
      fun k hk => ⟨fun hmem => (h.free k hk).1 (hsub k hmem), (h.free k hk).2⟩, h.chlo_nodup,
      h.chlo_buffered,
      fun k hk => ⟨fun hmem => (h.chlo_free k hk).1 (hsub k hmem), (h.chlo_free k hk).2⟩,
      h.rejecting, h.rejectors_nodup⟩
  | closeSession id version rejected now =>
    obtain rfl := Option.some.inj hs
    exact onConnectionClosed_inv h id version rejected now
  | stopAcceptingNewConnections =>
    obtain rfl := Option.some.inj hs
    exact h.congr rfl rfl rfl rfl rfl rfl

/-- **A connection id has at most one session, and a session excludes the rest**: in
every run of the dispatcher no session is ever inserted over another, and an id with a
session is neither in the time wait list nor in the buffered packet store, with or
without a client hello. -/
theorem always_exclusive (flags : Flags) (versions : List ℕ) (ops : List (Op π)) :
    Always Dispatcher.step
      (fun d => d.collided = false ∧ d.sessions.Nodup ∧
        ∀ id ∈ d.sessions, d.timeWait.isConnectionIdInTimeWait id = false ∧
          d.store.hasBufferedPackets id = false ∧ d.store.hasChloForConnection id = false)
      (Dispatcher.new flags versions) ops := by
  have hinv : Always Dispatcher.step Inv (Dispatcher.new flags versions : Dispatcher π) ops :=
    always_of_step (fun d op d' h hs => inv_step h op hs) (inv_new flags versions)
  refine hinv.mono fun d h => ⟨h.not_collided, h.nodup, fun id hid => ?_⟩
  obtain ⟨htw, hbuf, -⟩ := h.free id hid
  exact ⟨decide_eq_false htw, decide_eq_false hbuf,
    decide_eq_false fun hmem => hbuf (h.chlo_buffered id hmem)⟩

end Dispatch
end QuicNs3
