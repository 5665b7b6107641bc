/-
# Nothing buffered for a dead connection

A connection id that goes to the time wait list should take its early packets with
it.  Where the dispatcher adds an id there, the packets buffered for it are usually
gone already: a session has had them delivered, the store has just dropped them as
expired, or `ProcessUnauthenticatedHeaderFate` discards them next.  Two paths leave
some behind.

* `ProcessChlo` adds the id itself, and discards nothing, if new connections are not
  accepted any more.
* The packets of an id whose client hello is with the rejector can expire.  The id is
  then in the time wait list and still temporarily buffered, and that is looked at
  first, so the next packet is buffered again.

`always_clear_iff` says which runs keep the two containers apart.
-/

import QuicNs3.Dispatch.Exclusive

namespace QuicNs3
namespace Dispatch

open Lib

variable {π : Type} {d d' : Dispatcher π} {b : BufferedPacketStore π} {w : TimeWaitList}
  {flags : Flags} {id k : ℕ} {now : ℤ}

/-- No connection id in the time wait list has buffered packets. -/
def Clear (d : Dispatcher π) : Prop :=
  ∀ id, d.timeWait.isConnectionIdInTimeWait id → d.store.hasBufferedPackets id = false

theorem clear_iff :
    Clear d ↔ ∀ id ∈ keys d.timeWait, id ∉ keys d.store.undecryptablePackets := by
  simp [Clear, TimeWaitList.isConnectionIdInTimeWait, BufferedPacketStore.hasBufferedPackets]

/-- The invariant that goes with it: a connection has one queue. -/
structure Apart (d : Dispatcher π) : Prop where
  nodup : (keys d.store.undecryptablePackets).Nodup
  apart : ∀ id ∈ keys d.timeWait, id ∉ keys d.store.undecryptablePackets

/-! ## The containers -/

theorem mem_keys_addToTimeWait (rejected : Bool) :
    id ∈ keys (d.addToTimeWait id rejected now).timeWait := by
  simp [Dispatcher.addToTimeWait, TimeWaitList.addConnectionIdToTimeWait, keys]

/-- At most `id` is added to the time wait list, and it has no queue then. -/
theorem Apart.leave (h : Apart d) {store : BufferedPacketStore π}
    (hstore : (keys store.undecryptablePackets).Sublist (keys d.store.undecryptablePackets))
    (hid : id ∉ keys store.undecryptablePackets)
    (hw : ∀ k ∈ keys w, k = id ∨ k ∈ keys d.timeWait) :
    Apart { d with timeWait := w, store := store } where
  nodup := h.nodup.sublist hstore
  apart := by
    intro k hk hmem
    rcases hw k hk with rfl | hk
    · exact hid hmem
    · exact h.apart k hk (hstore.subset hmem)

/-- What `Apart` does not read. -/
theorem Apart.congr (h : Apart d) (hb : d'.store = d.store) (hw : d'.timeWait = d.timeWait) :
    Apart d' where
  nodup := hb ▸ h.nodup
  apart := by rw [hb, hw]; exact h.apart

theorem keys_without_sublist {V : Type} (id : ℕ) (l : List (ℕ × V)) :
    (keys (without id l)).Sublist (keys l) := by
  unfold keys without
  exact (List.filter_sublist).map _

/-- A packet is buffered for an id that is not in the time wait list. -/
theorem Apart.enqueue (h : Apart d) (packet : π) (isChlo : Bool) (alpn : String)
    (hid : id ∈ keys d.timeWait → d.store.shouldBufferPacket d.flags isChlo = true) :
    Apart { d with store := (d.store.enqueuePacket d.flags id packet isChlo alpn now).2 } := by
  have hkeys := (enqueuePacket_spec d.flags d.store id packet isChlo alpn now).1
  split_ifs at hkeys with hold
  · exact ⟨hkeys ▸ h.nodup, fun k hk => hkeys ▸ h.apart k hk⟩
  · obtain ⟨hnew, hroom⟩ := not_or.1 hold
    refine ⟨?_, fun k hk hmem => ?_⟩
    · dsimp only
      rw [hkeys]
      exact List.nodup_append.2 ⟨h.nodup, by simp, fun a ha c hc => by
        rintro rfl
        exact hnew (List.mem_singleton.1 hc ▸ ha)⟩
    · dsimp only at hmem
      rw [hkeys] at hmem
      rcases List.mem_append.1 hmem with hmem | hmem
      · exact h.apart k hk hmem
      · exact hroom (hid (List.mem_singleton.1 hmem ▸ hk))

/-- A session that closes has no queue. -/
theorem sessionProcesses_apart (h : Apart d) (hid : id ∉ keys d.store.undecryptablePackets)
    (o : Dispatcher.Outcome) (now : ℤ) : Apart (d.sessionProcesses id o now) := by
  unfold Dispatcher.sessionProcesses Dispatcher.onConnectionClosed
  split_ifs
  · have hleft : Apart { d with timeWait := _, store := d.store } :=
      h.leave (w := d.timeWait.addConnectionIdToTimeWait d.flags id o.version
          o.rejectedStatelessly now)
        (List.Sublist.refl _) hid fun _ hk => mem_keys_addConnectionIdToTimeWait hk
    exact hleft.congr rfl rfl
  · exact h
  · exact h

theorem insertSession_apart (h : Apart d) (id : ℕ) : Apart (d.insertSession id) := by
  unfold Dispatcher.insertSession
  split_ifs
  · exact h.congr rfl rfl
  · exact h.congr rfl rfl

/-- **The session of a client hello**, of an id that is not in the time wait list and has
no queue if new connections are not accepted. -/
theorem processChlo_apart (h : Apart d) (htw : id ∉ keys d.timeWait) (packet : π)
    (o : Dispatcher.Outcome)
    (hstop : d.acceptNewConnections = false → id ∉ keys d.store.undecryptablePackets) :
    Apart (d.processChlo id packet o now) := by
  unfold Dispatcher.processChlo
  split_ifs with haccept
  · refine h.leave (List.Sublist.refl _) (hstop (by simpa using haccept)) fun k hk => ?_
    rw [keys_processPacket] at hk
    exact mem_keys_addConnectionIdToTimeWait hk
  · exact h.enqueue packet true _ fun hmem => absurd hmem htw
  · have hempty : id ∉ keys (without id (d.insertSession id).store.undecryptablePackets) :=
      fun hmem => (mem_keys_without.1 hmem).2 rfl
    have hdelivered : Apart { d.insertSession id with
        store := ((d.insertSession id).store.deliverPackets id).2 } :=
      (insertSession_apart h id).leave (keys_without_sublist id _) hempty fun _ hk => .inr hk
    exact (sessionProcesses_apart hdelivered hempty o now).congr rfl rfl

/-- A connection that goes to the time wait list takes its packets with it. -/
theorem fateTimeWait_apart (h : Apart d) (hstore : d'.store = d.store)
    (hw : ∀ k ∈ keys d'.timeWait, k = id ∨ k ∈ keys d.timeWait) (packet : π)
    (o : Dispatcher.Outcome) :
    Apart (d'.processUnauthenticatedHeaderFate .timeWait id packet o now) := by
  have hdiscard : ∀ w : TimeWaitList, (∀ k ∈ keys w, k = id ∨ k ∈ keys d.timeWait) →
      Apart { d with timeWait := w.processPacket id, store := d.store.discardPackets id } := by
    intro w hw
    refine h.leave (keys_without_sublist id _) (fun hmem => (mem_keys_without.1 hmem).2 rfl)
      fun k hk => ?_
    rw [keys_processPacket] at hk
    exact hw k hk
  unfold Dispatcher.processUnauthenticatedHeaderFate
  dsimp only
  rw [← hstore] at hdiscard
  split_ifs
  · refine (hdiscard (d'.addToTimeWait id false now).timeWait fun k hk => ?_).congr rfl rfl
    rcases mem_keys_addConnectionIdToTimeWait hk with rfl | hk
    · exact .inl rfl
    · exact hw k hk
  · exact (hdiscard d'.timeWait hw).congr rfl rfl

/-- A rejector that has decided for a session. -/
def RejectorState.asksForSession : RejectorState → Bool
  | .unsupported | .accepted => true
  | .unknown | .failed | .rejected => false

theorem processStatelessRejectorState_apart (h : Apart d) (htw : id ∉ keys d.timeWait)
    (state : RejectorState) (packet : π) (o : Dispatcher.Outcome)
    (hstop : state.asksForSession = true → d.acceptNewConnections = false →
      id ∉ keys d.store.undecryptablePackets) :
    Apart (d.processStatelessRejectorState state id packet o now) := by
  have hreject : ∀ rejected, Apart ((d.addToTimeWait id rejected
      now).processUnauthenticatedHeaderFate .timeWait id packet o now) := fun rejected =>
    fateTimeWait_apart h (show (d.addToTimeWait id rejected now).store = d.store from rfl)
      (fun _ hk => mem_keys_addConnectionIdToTimeWait hk) packet o
  cases state with
  | unknown => exact h
  | unsupported => exact processChlo_apart h htw packet o (hstop rfl)
  | failed => exact hreject false
  | accepted => exact processChlo_apart h htw packet o (hstop rfl)
  | rejected => exact hreject true

/-- A packet with an unknown connection id for which `MaybeRejectStatelessly` calls
`ProcessChlo`. -/
def Chlo.asksForSession (flags : Flags) (chlo : Chlo) : Bool :=
  if !flags.allowChloBuffering || !flags.useCheapStatelessRejects ||
      !flags.enableStatelessRejectSupport then
    match chlo with
    | .notChlo => !flags.allowChloBuffering
    | .prohibited _ | .chlo _ _ => true
  else
    match chlo with
    | .notChlo | .prohibited _ => false
    | .chlo _ state => state.asksForSession

theorem maybeRejectStatelessly_apart (h : Apart d) (htw : id ∉ keys d.timeWait) (version : ℕ)
    (packet : π) (chlo : Chlo) (o : Dispatcher.Outcome)
    (hstop : chlo.asksForSession d.flags = true → d.acceptNewConnections = false →
      id ∉ keys d.store.undecryptablePackets) :
    Apart (d.maybeRejectStatelessly id version packet chlo o now) := by
  have hbuffer : Apart (d.bufferEarlyPacket id packet now) :=
    h.enqueue packet false "" fun hmem => absurd hmem htw
  have hset : ∀ alpn, Apart { d with currentAlpn := alpn } := fun alpn => h.congr rfl rfl
  have hprocess : (d.acceptNewConnections = false → id ∉ keys d.store.undecryptablePackets) →
      ∀ alpn, Apart ({ d with currentAlpn := alpn }.processChlo id packet o now) :=
    fun hstop alpn => processChlo_apart (hset alpn) htw packet o hstop
  unfold Dispatcher.maybeRejectStatelessly
  unfold Chlo.asksForSession at hstop
  by_cases hcheap : (!d.flags.allowChloBuffering || !d.flags.useCheapStatelessRejects ||
      !d.flags.enableStatelessRejectSupport) = true
  · rw [if_pos hcheap] at hstop ⊢
    cases chlo with
    | notChlo =>
      dsimp only at hstop ⊢
      split_ifs with hallow
      · exact hbuffer
      · exact hprocess (hstop (by simpa using hallow)) _
    | prohibited alpn => exact hprocess (hstop rfl) _
    | chlo alpn state => exact hprocess (hstop rfl) _
  · rw [if_neg hcheap] at hstop ⊢
    cases chlo with
    | notChlo => exact hbuffer
    | prohibited alpn =>
      exact fateTimeWait_apart (hset alpn)
        (show ({ d with currentAlpn := alpn }.addToTimeWait id false now).store = d.store from rfl)
        (fun _ hk => mem_keys_addConnectionIdToTimeWait hk) packet o
    | chlo alpn state =>
      have hstate : Apart ({ d with currentAlpn := alpn }.processStatelessRejectorState state id
          packet o now) := processStatelessRejectorState_apart (hset alpn) htw state packet o hstop
      cases state with
      | unknown => exact h.congr rfl rfl
      | unsupported => exact hstate
      | failed => exact hstate
      | accepted => exact hstate
      | rejected => exact hstate

/-- A packet for which `ProcessPacket` gets to `ProcessChlo`. -/
structure ReachesChlo (d : Dispatcher π) (header : PacketHeader) (chlo : Chlo) : Prop where
  port : header.clientPort ≠ 0
  full : header.fullConnectionId = true
  unknown : Unknown d header.connectionId
  not_reset : header.resetFlag = false
  version : (d.unknownVersion header).isSome = true
  not_dead : header.connectionId ∉ keys d.timeWait
  valid : header.packetNumber.map (Dispatcher.validityChecks header.version) = some .process
  asks : chlo.asksForSession d.flags = true

/-- A packet of a connection whose client hello is with the rejector. -/
structure AwaitsRejector (d : Dispatcher π) (header : PacketHeader) : Prop where
  port : header.clientPort ≠ 0
  full : header.fullConnectionId = true
  waiting : header.connectionId ∈ d.temporarilyBuffered

/-- The steps that leave nothing buffered for a dead connection.  A packet that awaits the
rejector is of a connection not in the time wait list, or is refused by the store; and
one that should have a session, where no new connections are accepted, is of a
connection with nothing buffered. -/
def LeavesNothing (d : Dispatcher π) : Op π → Prop
  | .processPacket header _ chlo _ _ =>
    (AwaitsRejector d header → header.connectionId ∈ keys d.timeWait →
      d.store.shouldBufferPacket d.flags false = true) ∧
    (ReachesChlo d header chlo → d.acceptNewConnections = false →
      header.connectionId ∉ keys d.store.undecryptablePackets)
  | .rejectorDone index state _ _ =>
    ∀ r ∈ d.rejectors[index]?, state.asksForSession = true →
      r.connectionId ∉ keys d.timeWait → d.acceptNewConnections = false →
        r.connectionId ∉ keys d.store.undecryptablePackets
  | .processBufferedChlos _ _ _ | .expirationTimeout _ | .cleanUpOldConnectionIds _
  | .closeSession _ _ _ _ | .stopAcceptingNewConnections => True

instance (d : Dispatcher π) (header : PacketHeader) : Decidable (AwaitsRejector d header) :=
  decidable_of_iff (header.clientPort ≠ 0 ∧ header.fullConnectionId = true ∧
      header.connectionId ∈ d.temporarilyBuffered)
    ⟨fun ⟨h₁, h₂, h₃⟩ => ⟨h₁, h₂, h₃⟩, fun ⟨h₁, h₂, h₃⟩ => ⟨h₁, h₂, h₃⟩⟩

instance (d : Dispatcher π) (id : ℕ) : Decidable (Unknown d id) :=
  decidable_of_iff (id ∉ d.sessions ∧ id ∉ d.store.connectionsWithChlo ∧
      id ∉ d.temporarilyBuffered)
    ⟨fun ⟨h₁, h₂, h₃⟩ => ⟨h₁, h₂, h₃⟩, fun ⟨h₁, h₂, h₃⟩ => ⟨h₁, h₂, h₃⟩⟩

instance (d : Dispatcher π) (header : PacketHeader) (chlo : Chlo) :
    Decidable (ReachesChlo d header chlo) :=
  decidable_of_iff ((header.clientPort ≠ 0 ∧ header.fullConnectionId = true ∧
      Unknown d header.connectionId ∧ header.resetFlag = false) ∧
      (d.unknownVersion header).isSome = true ∧ header.connectionId ∉ keys d.timeWait ∧
      header.packetNumber.map (Dispatcher.validityChecks header.version) = some .process ∧
      chlo.asksForSession d.flags = true)
    ⟨fun ⟨⟨h₁, h₂, h₃, h₄⟩, h₅, h₆, h₇, h₈⟩ => ⟨h₁, h₂, h₃, h₄, h₅, h₆, h₇, h₈⟩,
      fun ⟨h₁, h₂, h₃, h₄, h₅, h₆, h₇, h₈⟩ => ⟨⟨h₁, h₂, h₃, h₄⟩, h₅, h₆, h₇, h₈⟩⟩

instance (d : Dispatcher π) : (op : Op π) → Decidable (LeavesNothing d op)
  | .processPacket _ _ _ _ _ => inferInstanceAs (Decidable ((_ → _ → _) ∧ (_ → _ → _)))
  | .rejectorDone _ _ _ _ => inferInstanceAs (Decidable (∀ r ∈ _, _ → _ → _ → _))
  | .processBufferedChlos _ _ _ | .expirationTimeout _ | .cleanUpOldConnectionIds _
  | .closeSession _ _ _ _ | .stopAcceptingNewConnections => .isTrue trivial

theorem timeWait_processPacket_apart (h : Apart d) (id : ℕ) :
    Apart { d with timeWait := d.timeWait.processPacket id } where
  nodup := h.nodup
  apart := by
    intro k hk
    rw [keys_processPacket] at hk
    exact h.apart k hk

/-- **A packet arrives.** -/
theorem processPacket_apart (hinv : Inv d) (h : Apart d) (header : PacketHeader) (packet : π)
    (chlo : Chlo) (o : Dispatcher.Outcome)
    (hwait : AwaitsRejector d header → header.connectionId ∈ keys d.timeWait →
      d.store.shouldBufferPacket d.flags false = true)
    (hstop : ReachesChlo d header chlo → d.acceptNewConnections = false →
      header.connectionId ∉ keys d.store.undecryptablePackets) :
    Apart (d.processPacket header packet chlo o now) := by
  unfold Dispatcher.processPacket
  dsimp only
  split_ifs with hport hfull hs hc ht hreset
  · exact h
  · exact h
  · exact sessionProcesses_apart h (hinv.free _ hs).2.1 o now
  · -- a connection with a client hello is alive
    refine h.enqueue packet false "" fun hmem => ?_
    exact absurd hmem (hinv.chlo_free _ (of_decide_eq_true hc)).1
  · refine h.enqueue packet false "" (hwait ⟨hport, by simpa using hfull, ht⟩)
  · exact h
  · cases hversion : d.unknownVersion header with
    | none => exact h
    | some version =>
      have hframer : Apart { d with framerVersion := version } := h.congr rfl rfl
      cases hn : header.packetNumber with
      | none => exact hframer
      | some n =>
        dsimp only
        unfold Dispatcher.onUnauthenticatedHeader
        dsimp only
        by_cases htw : d.timeWait.isConnectionIdInTimeWait header.connectionId = true
        · rw [if_pos htw]
          exact timeWait_processPacket_apart hframer _
        · rw [if_neg htw]
          have htw' : header.connectionId ∉ keys d.timeWait := fun hmem =>
            htw (decide_eq_true hmem)
          have hunknown : Unknown d header.connectionId :=
            ⟨hs, fun hmem => hc (decide_eq_true hmem), ht⟩
          cases hvalid : Dispatcher.validityChecks header.version n with
          | process =>
            refine maybeRejectStatelessly_apart hframer htw' _ packet chlo o fun hasks => hstop ?_
            exact ⟨hport, by simpa using hfull, hunknown, by simpa using hreset,
              by rw [hversion]; rfl, htw', by rw [hn, Option.map_some, hvalid], hasks⟩
          | timeWait =>
            exact fateTimeWait_apart hframer
              (show ({ d with framerVersion := version } : Dispatcher π).store = d.store from rfl)
              (fun _ hk => .inr hk) packet o
          | buffer => exact hframer.enqueue packet false "" fun hmem => absurd hmem htw'
          | drop => exact hframer

/-! ## Later -/

/-- **The callback of a rejector runs.** -/
theorem onStatelessRejectorProcessDone_apart (h : Apart d) (index : ℕ) (r : Rejector π)
    (state : RejectorState) (o : Dispatcher.Outcome)
    (hstop : state.asksForSession = true → r.connectionId ∉ keys d.timeWait →
      d.acceptNewConnections = false → r.connectionId ∉ keys d.store.undecryptablePackets) :
    Apart ({ d with rejectors := d.rejectors.eraseIdx index }.onStatelessRejectorProcessDone r state
      o now) := by
  unfold Dispatcher.onStatelessRejectorProcessDone
  dsimp only
  by_cases htw : d.timeWait.isConnectionIdInTimeWait r.connectionId = true
  · rw [if_pos htw]
    exact (timeWait_processPacket_apart h r.connectionId).congr rfl rfl
  · rw [if_neg htw]
    have htw' : r.connectionId ∉ keys d.timeWait := fun hmem => htw (decide_eq_true hmem)
    refine processStatelessRejectorState_apart ?_ ?_ state r.packet o ?_
    · exact h.congr rfl rfl
    · exact htw'
    · exact fun hasks => hstop hasks htw'

/-- **Buffered client hellos get their sessions**, with their packets. -/
theorem processChlosFrom_apart (h : Apart d) (fuel : ℕ) (os : List Dispatcher.Outcome) :
    Apart (Dispatcher.processChlosFrom now fuel d os) := by
  induction fuel generalizing d os with
  | zero => exact h
  | succ fuel ih =>
    unfold Dispatcher.processChlosFrom BufferedPacketStore.deliverPacketsForNextConnection
    cases d.store.connectionsWithChlo with
    | nil => exact h
    | cons id l =>
      dsimp only
      have hempty : id ∉ keys (without id d.store.undecryptablePackets) :=
        fun hmem => (mem_keys_without.1 hmem).2 rfl
      have hdelivered : Apart { d with
          store := (BufferedPacketStore.deliverPackets
            { d.store with connectionsWithChlo := l } id).2 } :=
        (h.leave (keys_without_sublist id _) hempty fun _ hk => .inr hk).congr rfl rfl
      split_ifs
      · exact hdelivered
      · refine ih ?_ _
        refine (sessionProcesses_apart (insertSession_apart hdelivered id) ?_ _ now).congr rfl rfl
        unfold Dispatcher.insertSession
        split_ifs
        · exact hempty
        · exact hempty

/-- **Buffered packets expire**: the queue of a connection goes when the connection goes to
the time wait list. -/
theorem expireFrom_apart (l : List (ℕ × BufferedPacketList π))
    (h : Apart { d with store := { d.store with undecryptablePackets := l } }) :
    Apart (d.expireFrom now l) := by
  induction l generalizing d with
  | nil => exact h
  | cons e l ih =>
    unfold Dispatcher.expireFrom
    split_ifs
    · exact h
    · refine ih ?_
      have hhead : e.1 ∉ keys l := (List.nodup_cons.1 h.nodup).1
      exact (h.leave (List.sublist_cons_self ..) hhead
        fun _ hk => mem_keys_addConnectionIdToTimeWait hk).congr rfl rfl

theorem apart_step (hinv : Inv d) (h : Apart d) (op : Op π) (hop : LeavesNothing d op)
    (hs : d.step op = some d') : Apart d' := by
  cases op with
  | processPacket header packet chlo o now =>
    obtain rfl := Option.some.inj hs
    exact processPacket_apart hinv h header packet chlo o hop.1 hop.2
  | rejectorDone index state o now =>
    obtain ⟨r, hr, rfl⟩ := Option.map_eq_some_iff.1 hs
    exact onStatelessRejectorProcessDone_apart h index r state o (hop r hr)
  | processBufferedChlos n os now =>
    obtain rfl := Option.some.inj hs
    refine processChlosFrom_apart ?_ _ os
    exact h.congr rfl rfl
  | expirationTimeout now =>
    obtain rfl := Option.some.inj hs
    exact expireFrom_apart _ h
  | cleanUpOldConnectionIds now =>
    obtain rfl := Option.some.inj hs
    refine ⟨h.nodup, fun k hk => h.apart k ?_⟩
    exact ((List.dropWhile_sublist _).map Prod.fst).subset hk
  | closeSession id version rejected now =>
    obtain rfl := Option.some.inj hs
    by_cases hid : id ∈ d.sessions
    · exact sessionProcesses_apart h (hinv.free id hid).2.1 ⟨true, version, rejected⟩ now
    · have hsame : d.onConnectionClosed id version rejected now = d := if_neg hid
      rw [hsame]
      exact h
  | stopAcceptingNewConnections =>
    obtain rfl := Option.some.inj hs
    exact h.congr rfl rfl

/-! ## What is left behind -/

/-- A connection that is refused keeps its queue. -/
theorem not_clear_processChlo (haccept : d.acceptNewConnections = false)
    (hid : id ∈ keys d.store.undecryptablePackets) (packet : π) (o : Dispatcher.Outcome) :
    ¬ Clear (d.processChlo id packet o now) := by
  intro h
  unfold Dispatcher.processChlo at h
  rw [if_pos (by simp [haccept])] at h
  refine clear_iff.1 h id ?_ hid
  dsimp only
  rw [keys_processPacket]
  exact mem_keys_addToTimeWait false

/-- The way to `ProcessChlo`. -/
theorem processPacket_of_reaches {header : PacketHeader} {chlo : Chlo}
    (h : ReachesChlo d header chlo) (packet : π) (o : Dispatcher.Outcome) :
    ∃ version alpn, d.processPacket header packet chlo o now =
      { d with framerVersion := version, currentAlpn := alpn }.processChlo header.connectionId
        packet o now := by
  obtain ⟨version, hversion⟩ := Option.isSome_iff_exists.1 h.version
  obtain ⟨n, hn, hvalid⟩ := Option.map_eq_some_iff.1 h.valid
  have hchlo : ¬ d.store.hasChloForConnection header.connectionId = true := fun hmem =>
    h.unknown.not_chlo (of_decide_eq_true hmem)
  have hdead : ¬ d.timeWait.isConnectionIdInTimeWait header.connectionId = true := fun hmem =>
    h.not_dead (of_decide_eq_true hmem)
  have hasks := h.asks
  unfold Dispatcher.processPacket
  simp only [h.port, h.full, h.unknown.not_session, hchlo, h.unknown.not_temporary, h.not_reset,
    hversion, hn, Dispatcher.onUnauthenticatedHeader, hdead, hvalid, if_false, Bool.not_true,
    Bool.false_eq_true]
  refine ⟨version, ?_⟩
  unfold Dispatcher.maybeRejectStatelessly
  unfold Chlo.asksForSession at hasks
  dsimp only
  by_cases hcheap : (!d.flags.allowChloBuffering || !d.flags.useCheapStatelessRejects ||
      !d.flags.enableStatelessRejectSupport) = true
  · rw [if_pos hcheap] at hasks ⊢
    cases chlo with
    | notChlo =>
      dsimp only at hasks ⊢
      rw [if_neg (by simpa using hasks)]
      exact ⟨_, rfl⟩
    | prohibited alpn => exact ⟨_, rfl⟩
    | chlo alpn state => exact ⟨_, rfl⟩
  · rw [if_neg hcheap] at hasks ⊢
    cases chlo with
    | notChlo => exact absurd hasks Bool.false_ne_true
    | prohibited alpn => exact absurd hasks Bool.false_ne_true
    | chlo alpn state =>
      cases state with
      | unsupported => exact ⟨_, rfl⟩
      | accepted => exact ⟨_, rfl⟩
      | unknown => exact absurd hasks Bool.false_ne_true
      | failed => exact absurd hasks Bool.false_ne_true
      | rejected => exact absurd hasks Bool.false_ne_true

/-- A packet that awaits the rejector is buffered, whether its connection is dead or not. -/
theorem not_clear_of_awaits {header : PacketHeader} (hinv : Inv d) (hclear : Clear d)
    (h : AwaitsRejector d header) (hdead : header.connectionId ∈ keys d.timeWait)
    (hroom : ¬ d.store.shouldBufferPacket d.flags false = true) (packet : π) (chlo : Chlo)
    (o : Dispatcher.Outcome) : ¬ Clear (d.processPacket header packet chlo o now) := by
  have hs : header.connectionId ∉ d.sessions := fun hmem => (hinv.free _ hmem).2.2 h.waiting
  have hc : ¬ d.store.hasChloForConnection header.connectionId = true := fun hmem =>
    (hinv.chlo_free _ (of_decide_eq_true hmem)).2 h.waiting
  have hbuffer : d.processPacket header packet chlo o now =
      d.bufferEarlyPacket header.connectionId packet now := by
    unfold Dispatcher.processPacket
    simp only [h.port, h.full, hs, hc, h.waiting, if_false, if_true, Bool.not_true,
      Bool.false_eq_true]
  have hnew : header.connectionId ∉ keys d.store.undecryptablePackets :=
    clear_iff.1 hclear _ hdead
  have hkeys := (enqueuePacket_spec d.flags d.store header.connectionId packet false "" now).1
  rw [if_neg (not_or.2 ⟨hnew, hroom⟩)] at hkeys
  rw [hbuffer]
  intro hafter
  refine clear_iff.1 hafter header.connectionId hdead ?_
  unfold Dispatcher.bufferEarlyPacket
  rw [hkeys]
  exact List.mem_append_right _ (List.mem_singleton_self _)

/-- **A step that does not leave nothing leaves something.** -/
theorem not_clear_step (hinv : Inv d) (hclear : Clear d) (op : Op π)
    (hop : ¬ LeavesNothing d op) (hs : d.step op = some d') : ¬ Clear d' := by
  cases op with
  | processPacket header packet chlo o now =>
    obtain rfl := Option.some.inj hs
    by_cases hwait : AwaitsRejector d header → header.connectionId ∈ keys d.timeWait →
        d.store.shouldBufferPacket d.flags false = true
    · have hstop : ¬ (ReachesChlo d header chlo → d.acceptNewConnections = false →
          header.connectionId ∉ keys d.store.undecryptablePackets) := fun h => hop ⟨hwait, h⟩
      push Not at hstop
      obtain ⟨hreaches, haccept, hmem⟩ := hstop
      obtain ⟨version, alpn, heq⟩ := processPacket_of_reaches hreaches packet o
      rw [heq]
      refine not_clear_processChlo ?_ ?_ packet o
      · exact haccept
      · exact hmem
    · push Not at hwait
      obtain ⟨hawaits, hdead, hroom⟩ := hwait
      exact not_clear_of_awaits hinv hclear hawaits hdead hroom packet chlo o
  | rejectorDone index state o now =>
    obtain ⟨r, hr, rfl⟩ := Option.map_eq_some_iff.1 hs
    have hstop : ¬ ∀ r ∈ d.rejectors[index]?, state.asksForSession = true →
        r.connectionId ∉ keys d.timeWait → d.acceptNewConnections = false →
          r.connectionId ∉ keys d.store.undecryptablePackets := hop
    push Not at hstop
    obtain ⟨r', hr', hasks, hdead, haccept, hmem⟩ := hstop
    obtain rfl : r' = r := Option.some.inj (hr'.symm.trans hr)
    have hdead' : ¬ d.timeWait.isConnectionIdInTimeWait r'.connectionId = true := fun h =>
      hdead (of_decide_eq_true h)
    unfold Dispatcher.onStatelessRejectorProcessDone
    dsimp only
    rw [if_neg hdead']
    unfold Dispatcher.processStatelessRejectorState
    cases state with
    | unsupported | accepted =>
      refine not_clear_processChlo ?_ ?_ r'.packet o
      · exact haccept
      · exact hmem
    | unknown | failed | rejected => exact absurd hasks Bool.false_ne_true
  | _ => exact absurd trivial hop

/-! ## Whole runs -/

theorem apart_new (flags : Flags) (versions : List ℕ) :
    Apart (Dispatcher.new flags versions : Dispatcher π) :=
  ⟨List.nodup_nil, fun _ h => absurd h List.not_mem_nil⟩

/-- **Which runs leave nothing buffered for a dead connection**: those in which every step
meets `LeavesNothing`. -/
theorem always_clear_iff {versions : List ℕ} {ops : List (Op π)}
    (hr : run Dispatcher.step (Dispatcher.new flags versions) ops = some d) :
    Always Dispatcher.step Clear (Dispatcher.new flags versions) ops ↔
      EachStep Dispatcher.step LeavesNothing (Dispatcher.new flags versions) ops := by
  have hinv : ∀ {pre : List (Op π)} {t : Dispatcher π},
      run Dispatcher.step (Dispatcher.new flags versions) pre = some t → Inv t := fun ht =>
    run_invariant (P := Inv) (fun _ op _ h hs => inv_step h op hs) (inv_new flags versions) ht
  constructor
  · intro hclear pre op t hpre ht
    by_contra hop
    obtain ⟨u, hu⟩ := exists_run_of_prefix hpre hr
    obtain ⟨t', ht', hs⟩ := run_concat_eq_some.1 hu
    obtain rfl : t' = t := Option.some.inj (ht'.symm.trans ht)
    have hbefore := hclear pre t' ((List.prefix_append pre [op]).trans hpre) ht
    exact not_clear_step (hinv ht) hbefore op hop hs (hclear _ u hpre hu)
  · intro hop
    have hboth : Always Dispatcher.step (fun t => Inv t ∧ Apart t)
        (Dispatcher.new flags versions) ops :=
      always_of_eachStep
        (fun t op u ht hC hs => ⟨inv_step ht.1 op hs, apart_step ht.1 ht.2 op hC hs⟩)
        ⟨inv_new flags versions, apart_new flags versions⟩ hop
    exact hboth.mono fun t ht => clear_iff.2 ht.2.apart

/-- A packet of connection `7`. -/
def packetOf (packetNumber : ℕ) : PacketHeader :=
  ⟨7, true, 4433, false, some 35, some packetNumber⟩

/-- An early packet, its client hello, the session, and its end. -/
theorem always_clear_session :
    Always Dispatcher.step Clear (Dispatcher.new .default [35] : Dispatcher ℕ)
      [.processPacket (packetOf 2) 2 .notChlo ⟨false, 35, false⟩ 0,
        .processPacket (packetOf 1) 1 (.chlo "" .accepted) ⟨false, 35, false⟩ 1,
        .processBufferedChlos 16 [⟨false, 35, false⟩] 2, .closeSession 7 35 false 3,
        .processPacket (packetOf 3) 3 .notChlo ⟨false, 35, false⟩ 4] := by
  exact (always_clear_iff rfl).2 (by decide)

/-- **Two runs that leave packets behind.**  In the first the client hello of an early
packet arrives when no new connections are accepted.  In the second early packets expire
while the rejector has the client hello, and one more arrives. -/
theorem exists_buffered_dead :
    (∃ d, run Dispatcher.step (Dispatcher.new .default [35] : Dispatcher ℕ)
        [.processPacket (packetOf 2) 2 .notChlo ⟨false, 35, false⟩ 0,
          .stopAcceptingNewConnections,
          .processPacket (packetOf 1) 1 (.chlo "" .accepted) ⟨false, 35, false⟩ 1] = some d ∧
      d.timeWait.isConnectionIdInTimeWait 7 = true ∧ d.store.hasBufferedPackets 7 = true) ∧
    ∃ d, run Dispatcher.step (Dispatcher.new .default [35] : Dispatcher ℕ)
        [.processPacket (packetOf 1) 1 (.chlo "" .unknown) ⟨false, 35, false⟩ 0,
          .processPacket (packetOf 2) 2 .notChlo ⟨false, 35, false⟩ 1,
          .expirationTimeout 5000001,
          .processPacket (packetOf 3) 3 .notChlo ⟨false, 35, false⟩ 5000002] = some d ∧
      d.timeWait.isConnectionIdInTimeWait 7 = true ∧ d.store.hasBufferedPackets 7 = true := by
  exact ⟨⟨_, rfl, by decide, by decide⟩, ⟨_, rfl, by decide, by decide⟩⟩

end Dispatch
end QuicNs3
