/-
# The books of an open connection

`Books` are the objects with their ids (`Handles`) and the ledger of what they count for
(`Ledger`).  They are kept by closing, reading and writing (`keeps_books`), by frames that
are as expected (`taking_books`), and by making streams that are not refused
(`WhileOpen.look`).

A final offset that has been received is `Known`, and stays so.
-/

import QuicNs3.Streams.Ledger

namespace QuicNs3
namespace Streams

open Lib

variable {F : ℕ → ℕ} {G G' : ℕ → Prop} {c : Config} {N M M' : Finset ℕ} {s t u : Session}
  {p q id n : ℕ}

/-! ## The rules -/

/-- **The books of an open connection**: the objects and the ledger. -/
def Books (c : Config) (F : ℕ → ℕ) (G : ℕ → Prop) (N M : Finset ℕ) (s : Session) : Prop :=
  Handles c N M s ∧ Ledger F G s

/-- The peer sends no further than the final offset, and ends there. -/
def Expected (F : ℕ → ℕ) (k : Bool × ℕ) (n : ℕ) (fin : Bool) : Prop :=
  k.1 = true ∨ n ≤ F k.2 ∧ (fin = true → n = F k.2)

theorem Expected.of_eq {k : Bool × ℕ} {fin : Bool} (h : n = F k.2) : Expected F k n fin :=
  .inr ⟨h.le, fun _ => h⟩

/-- All that the peer sends on the stream has been received. -/
def Complete (F : ℕ → ℕ) (st : Stream) : Prop :=
  st.isStatic = true ∨ st.flowController.highestReceivedByteOffset = F st.id

instance {st : Stream} : Decidable (Complete F st) := instDecidableOr

theorem ReceiveController.highest_addBytesConsumed (C : ReceiveController) (e : Environment) :
    (C.addBytesConsumed e n).1.highestReceivedByteOffset = C.highestReceivedByteOffset := by
  unfold addBytesConsumed maybeSendWindowUpdate maybeIncreaseMaxWindowSize increaseWindowSize
    updateReceiveWindowOffset
  dsimp only
  split_ifs <;> rfl

theorem ReceiveController.highest_ensureWindowAtLeast (C : ReceiveController) :
    (C.ensureWindowAtLeast n).highestReceivedByteOffset = C.highestReceivedByteOffset := by
  unfold ensureWindowAtLeast increaseWindowSize updateReceiveWindowOffset
  split_ifs <;> rfl

/-- **Consuming receives nothing.** -/
theorem highest_addBytesConsumed :
    (∀ q, ((s.addBytesConsumed p n).streams q).flowController.highestReceivedByteOffset =
      (s.streams q).flowController.highestReceivedByteOffset) ∧
    (s.addBytesConsumed p n).flowController.highestReceivedByteOffset =
      s.flowController.highestReceivedByteOffset := by
  have hstream := (s.streams p).flowController.highest_addBytesConsumed (n := n) s.environment
  have hmod : ∀ q, ((s.modify p fun st => { st with flowController :=
      ((s.streams p).flowController.addBytesConsumed s.environment n).1 }).streams
        q).flowController.highestReceivedByteOffset =
      (s.streams q).flowController.highestReceivedByteOffset := by
    intro q
    rcases eq_or_ne q p with rfl | hne
    · rw [Session.streams_modify_self]
      exact hstream
    · rw [Session.streams_modify_of_ne hne]
  unfold Session.addBytesConsumed
  dsimp only
  by_cases hr : (s.streams p).readSideClosed = true
  · simp only [if_pos hr]
    split_ifs
    · exact ⟨fun _ => rfl, rfl⟩
    · exact ⟨fun _ => rfl, s.flowController.highest_addBytesConsumed s.environment⟩
  · simp only [if_neg hr]
    generalize ((s.streams p).flowController.addBytesConsumed s.environment n).2 = x
    cases x with
    | none =>
      split_ifs
      · exact ⟨hmod, rfl⟩
      · exact ⟨hmod, s.flowController.highest_addBytesConsumed s.environment⟩
    | some window =>
      have hensure := s.flowController.highest_ensureWindowAtLeast (n := window)
      split_ifs
      · exact ⟨hmod, hensure⟩
      · exact ⟨hmod, (ReceiveController.highest_addBytesConsumed _ _).trans hensure⟩

namespace Ledger

/-- One stream is changed, and counts as before. -/
theorem modify {f : Stream → Stream} (h : Ledger F G s) (hR : Received (s.modify p f))
    (hf : (s.streams p).Holds (f (s.streams p)))
    (hread : (s.streams p).isStatic = false → (f (s.streams p)).readSideClosed = true →
      (s.streams p).readSideClosed = true ∨
        (s.streams p).flowController.highestReceivedByteOffset = F (s.streams p).id) :
    Ledger F G (s.modify p f) := by
  refine h.change hR (fun q => ?_) (fun q hs _ hr => ?_) rfl rfl rfl rfl
  · rcases eq_or_ne q p with rfl | hne
    · rwa [Session.streams_modify_self]
    · rw [Session.streams_modify_of_ne hne]
      exact Stream.Holds.refl _
  · rcases eq_or_ne q p with rfl | hne
    · rw [Session.streams_modify_self] at hr
      exact hread hs hr
    · rw [Session.streams_modify_of_ne hne] at hr
      exact .inl hr

/-- What is read from a stream changes nothing that is counted. -/
theorem consume {b : SequencerBuffer} (h : Ledger F G s)
    (hR : Received ((s.modify p fun st => st.withBuffer b).addBytesConsumed p n)) :
    Ledger F G ((s.modify p fun st => st.withBuffer b).addBytesConsumed p n) := by
  obtain ⟨hhigh, hsession⟩ :=
    highest_addBytesConsumed (s := s.modify p fun st => st.withBuffer b) (p := p) (n := n)
  obtain ⟨g, C, failed, heq, hg⟩ :=
    addBytesConsumed_received (s := s.modify p fun st => st.withBuffer b) (p := p) (n := n)
  have hbuffer : ∀ q, (s.streams q).Holds ((s.modify p fun st => st.withBuffer b).streams q) ∧
      ((s.modify p fun st => st.withBuffer b).streams q).readSideClosed =
        (s.streams q).readSideClosed := by
    intro q
    rcases eq_or_ne q p with rfl | hne
    · rw [Session.streams_modify_self]
      exact ⟨⟨rfl, rfl, rfl, rfl, rfl, fun h => h⟩, rfl⟩
    · rw [Session.streams_modify_of_ne hne]
      exact ⟨Stream.Holds.refl _, rfl⟩
  rw [heq] at hR hhigh hsession ⊢
  refine h.change hR (fun q => ⟨(hg q).id.trans (hbuffer q).1.id,
    (hg q).isStatic.trans (hbuffer q).1.isStatic, (hhigh q).trans (hbuffer q).1.highest,
    (hg q).closeOffset.trans (hbuffer q).1.closeOffset,
    (hg q).rstReceived.trans (hbuffer q).1.rstReceived,
    fun hf => (hg q).finReceived.trans ((hbuffer q).1.finReceived hf)⟩) (fun q _ _ hr => ?_)
    rfl rfl rfl hsession
  exact .inl (((hbuffer q).2.symm.trans (hg q).readSideClosed_eq.symm).trans hr)

end Ledger

/-- An id in use names the stream that has it. -/
theorem Handles.find_eq (hH : Handles c N M s) (hF : Formed s)
    (hq : s.findDynamic (s.streams p).id = some q) : q = p := by
  have hmem := mem_of_findDynamic hq
  have hs := hF.isStatic _ hmem
  have hid := hF.id_eq _ hmem
  have hp := hH.staticId q
  rw [hs, hid, hH.staticId p] at hp
  exact hH.unique q p hs hp hid

/-- **Closing, reading and writing keep the books**, if a stream is reset locally only
before its final offset is known, or when it is complete. -/
theorem keeps_books : Keeps (Complete F) (Books c F G N M) where
  mark := fun hF h hf => ⟨unwritten_handles.mark h.1 hf,
    h.2.modify ((keeps_tally _).mark hF h.2.received.tally hf).received (.of_marks hf)
      fun _ hr => .inl (hf.readSideClosed ▸ hr)⟩
  closeWrite := fun hF h => ⟨unwritten_handles.closeWrite h.1,
    h.2.modify ((keeps_tally _).closeWrite hF h.2.received.tally).received
      ⟨rfl, rfl, rfl, rfl, rfl, fun h => h⟩ fun _ hr => .inl hr⟩
  closeRead := fun hF h he => ⟨h.1.modify rfl rfl,
    h.2.modify ((keeps_tally _).closeRead hF h.2.received.tally he).received
      ⟨rfl, rfl, rfl, rfl, rfl, fun h => h⟩
      fun hs _ => .inr ((h.2.stream _ hs).of_ended (h.2.received.stream _) he)⟩
  close := by
    intro s p hF h hr _
    refine ⟨indifferent_handles.close h.1, h.2.closeStreamInner h.1 hF fun q hq _ => ?_⟩
    obtain rfl := h.1.find_eq hF hq
    have hd := isDynamic_of_findDynamic hq
    exact (h.2.stream q (hF.isStatic_of_isDynamic hd)).reading hd hr
  reset := by
    intro s p hF h hA
    refine ⟨indifferent_handles.close h.1, h.2.closeStreamInner h.1 hF fun q hq hfin => ?_⟩
    obtain rfl := h.1.find_eq hF hq
    have hstatic := hF.isStatic_of_isDynamic (isDynamic_of_findDynamic hq)
    exact (hA hfin).resolve_left fun hs => absurd (hstatic.symm.trans hs) (by decide)
  read := fun hF h hn => ⟨unwritten_handles.read h.1 hn,
    h.2.consume ((keeps_tally _).read hF h.2.received.tally hn).received⟩
  flush := fun hF h => ⟨unwritten_handles.flush h.1,
    h.2.consume ((keeps_tally _).flush hF h.2.received.tally).received⟩
  release := fun hF h => ⟨h.1.modify rfl rfl,
    h.2.modify ((keeps_tally _).release hF h.2.received.tally).received
      ⟨rfl, rfl, rfl, rfl, rfl, fun h => h⟩ fun _ hr => .inl hr⟩
  outgoing := fun hF h => ⟨h.1.modify rfl rfl,
    h.2.modify ((keeps_tally _).outgoing hF h.2.received.tally).received
      ⟨rfl, rfl, rfl, rfl, rfl, fun h => h⟩ fun _ hr => .inl hr⟩
  finSent := fun hF h => ⟨h.1.modify rfl rfl,
    h.2.modify ((keeps_tally _).finSent hF h.2.received.tally).received
      ⟨rfl, rfl, rfl, rfl, rfl, fun h => h⟩ fun _ hr => .inl hr⟩
  sending := fun h => ⟨unwritten_handles.sending h.1,
    h.2.change ((keeps_tally _).sending h.2.received.tally).received
      (fun _ => Stream.Holds.refl _) (fun _ _ _ hr => .inl hr) rfl rfl rfl rfl⟩
  drain := by
    intro s id h hid
    refine ⟨indifferent_handles.drain h.1 hid,
      h.2.change ((keeps_tally _).drain h.2.received.tally hid).received
        (fun _ => Stream.Holds.refl _) (fun _ _ _ hr => .inl hr) ?_ ?_ rfl rfl⟩
    · unfold Tables.streamDraining
      split_ifs <;> rfl
    · unfold Tables.streamDraining
      split_ifs <;> rfl
  abort := fun h => ⟨indifferent_handles.abort h.1,
    h.2.change ((keeps_tally _).abort h.2.received.tally).received
      (fun _ => Stream.Holds.refl _) (fun _ _ _ hr => .inl hr) rfl rfl rfl rfl⟩

/-- **Frames keep the books**, if they are as expected. -/
theorem taking_books : Taking (Expected F) (Complete F) (Books c F G N M) where
  toKeeps := keeps_books
  received := fun h => h.2.received
  mono := fun h => h.imp_right fun h => ⟨h.1, fun hf => absurd hf (by decide)⟩
  closeOffset := by
    intro s p n hF h hE
    refine ⟨h.1.modify rfl rfl, h.2.update h.1
      ((taking_tally s).closeOffset hF h.2.received.tally trivial).received rfl rfl rfl
      (fun hs => ?_) (fun hf => hf) rfl rfl rfl ?_⟩
    · have hagrees := h.2.stream p hs
      rcases hE with hE | hE
      · exact absurd (hs.symm.trans hE) (by decide)
      · exact ⟨hagrees.le, hagrees.reading, fun _ => hE.2 rfl, hagrees.rst⟩
    · split_ifs <;> rfl
  raise := by
    intro s p n hF h hr hlt hin hn hroom hE
    refine ⟨indifferent_handles.increaseHighestReceivedOffset h.1,
      h.2.raise h.1 hF (fun hs => h.2.received.isDynamic_of_reading hs hr) hlt hin hn hroom
        fun hs => ?_⟩
    rcases hE with hE | hE
    · exact absurd (hs.symm.trans hE) (by decide)
    · exact hE.1
  store := fun hF h hr hb htotal => ⟨h.1.modify rfl rfl,
    h.2.modify ((taking_tally _).store hF h.2.received.tally hr hb htotal).received
      ⟨rfl, rfl, rfl, rfl, rfl, fun h => h⟩ fun _ hr => .inl hr⟩

/-! ## Final offsets that are known -/

theorem Known.of_dynamic (h : Ledger F G s) (hF : Formed s)
    (hmem : (id, p) ∈ s.tables.dynamicStreams)
    (hfinal : (s.streams p).hasFinalReceivedByteOffset = true) : Known F s id where
  hasStream := Handles.of_dynamic hF hmem
  marked := by
    intro q hq
    have hp : s.findDynamic id = some p := (valueAt_eq_some_iff hF.nodup).2 hmem
    have hq : s.findDynamic id = some q := (valueAt_eq_some_iff hF.nodup).2 hq
    obtain rfl := Option.some.inj (hp.symm.trans hq)
    exact hfinal
  settled := fun _ hval => absurd ((h.valueAt_eq_none hmem).symm.trans hval) (by simp)

theorem Known.of_settled (hhas : HasStream s id) (hid : id ∉ s.tables.dynamicIds)
    (hsettled : Settled s id) : Known F s id where
  hasStream := hhas
  marked := fun _ hq => absurd (List.mem_map.2 ⟨_, hq, rfl⟩) hid
  settled := fun _ hval => absurd (hsettled.symm.trans hval) (by simp)

theorem Known.of_eq_zero (h : Ledger F G s) (hhas : HasStream s id)
    (hid : id ∉ s.tables.dynamicIds) (hzero : F id = 0) : Known F s id where
  hasStream := hhas
  marked := fun _ hq => absurd (List.mem_map.2 ⟨_, hq, rfl⟩) hid
  settled := fun offset hval => by
    have := (h.recorded id offset hval).2.1
    omega

/-! ## The other steps keep the books -/

namespace Books

theorem learn (h : Books c F G N M s) (hG : ∀ x, G' x → G x ∨ Known F s x) :
    Books c F G' N M s := ⟨h.1, h.2.learn hG⟩

/-- Nothing changes but what the books do not look at. -/
theorem congr (h : Books c F G N M' s) (hL : LivedIn c N (fun _ => False) M t)
    (hstreams : t.streams = s.streams) (hnum : t.numStreams = s.numStreams)
    (hcreated : t.tables.created = s.tables.created)
    (hnext : t.tables.nextOutgoingStreamId = s.tables.nextOutgoingStreamId)
    (hdyn : t.tables.dynamicStreams = s.tables.dynamicStreams)
    (hlc : t.tables.locallyClosedStreams = s.tables.locallyClosedStreams)
    (hflow : t.flowController = s.flowController) : Books c F G N M t := by
  refine ⟨h.1.similar hL (fun q => by rw [hstreams]) (fun q => by rw [hstreams]) hnum hcreated
    hnext, h.2.change ?_ (fun q => ?_) (fun q _ _ hr => ?_) hdyn hlc hnum (by rw [hflow])⟩
  · refine (h.2.received.tally.congr (fun q => ?_) hdyn hnext hnum hflow).received
    rw [hstreams]
    exact Stream.SameReceived.refl _
  · rw [hstreams]
    exact Stream.Holds.refl _
  · rw [hstreams] at hr
    exact .inl hr

/-- A frame names an id that has an object, or that no stream of the peer can have. -/
theorem name (h : Books c F G N M s) (hL : LivedIn c (insert id N) (fun _ => False) M s)
    (hid : c.IsPeerId id → HasStream s id) : Books c F G (insert id N) M s :=
  ⟨h.1.name hL hid, h.2⟩

/-- A frame names an id that no stream of the peer can have. -/
theorem stay (h : Books c F G N M s)
    (hid : isStaticId id = true ∨ s.tables.isIncomingStream id = false ∨ id = 0) :
    Books c F G (insert id N) M s := by
  have hL := h.1.lived
  refine h.name ⟨hL.lived.stay hid, hL.named, hL.config⟩ fun hpeer => ?_
  rcases hid with hs | hi | rfl
  · exact absurd hpeer (not_isPeerId_of_isStaticId hs).1
  · exact absurd (hi.symm.trans (hL.lived.isIncomingStream_iff.2 hpeer.2)) (by decide)
  · exact absurd hpeer.1 (Nat.not_lt_zero _)

/-- The final offset of a closed stream is received. -/
theorem settle {recorded : ℕ} (h : Books c F G N M s) (hF : Formed s)
    (hval : valueAt id s.tables.locallyClosedStreams = some recorded)
    (hle : s.flowController.highestReceivedByteOffset + (F id - recorded) ≤
      s.flowController.receiveWindowOffset)
    (hroom : Below s.flowController.receiveWindowOffset) :
    Books c F G N M (s.settle id (F id) recorded) := by
  have hL := h.1.lived
  refine ⟨h.1.similar ⟨hL.lived.shrink (fun _ hx => hx) rfl rfl rfl rfl, hL.named, hL.config⟩
    (fun _ => rfl) (fun _ => rfl) rfl rfl rfl, h.2.settle h.1 hF hval hle hroom⟩

theorem createOutgoingDynamicStream (h : Books c F G N M s) (hF : Formed s) :
    Books c F G N M s.createOutgoingDynamicStream := by
  refine ⟨h.1.createOutgoingDynamicStream hF, ?_⟩
  have hR : Received s.createOutgoingDynamicStream :=
    h.2.received.tally.createOutgoingDynamicStream.received
  unfold Session.createOutgoingDynamicStream at hR ⊢
  split_ifs at hR ⊢
  · have hid : s.tables.nextOutgoingStreamId ∉ s.tables.dynamicIds := fun hx =>
      absurd (h.2.received.numbered _ hx rfl) (lt_irrefl _)
    refine h.2.make h.1 hF hR rfl rfl ?_ rfl rfl fun p hp heq => ?_
    · show without _ s.tables.dynamicStreams ++ [(_, s.numStreams)] = _
      rw [without_eq_self hid]
    · exact absurd (h.1.lt_next p hp (by rw [heq])) (by rw [heq]; exact lt_irrefl _)
  · exact h.2

end Books

/-- **Where an admitted stream is not found**, and the connection stays open, it was closed. -/
theorem Session.closed_of_none (hget : s.getOrCreateDynamicStream id = (none, u))
    (hc : s.connected = true) (hs : isStaticId id = false) (h0 : id ≠ 0)
    (hadmitted : Admitted s id) (hu : u.connected = true) :
    u = s ∧ s.findDynamic id = none ∧ s.tables.isClosedStream id = true := by
  have hadm := s.admission id
  rw [hget] at hadm
  have hdown : ∀ t : Session, t.closeConnection.connected = true → False := fun t ht =>
    absurd (connected_closeConnection.symm.trans ht) (by decide)
  cases hadm with
  | failed hid => exact absurd hid (by simp [hs, h0])
  | closed hf hcl => exact ⟨rfl, hf, hcl⟩
  | foreign hf hi => exact (hdown _ hu).elim
  | tooFar hn hlt => exact (hdown _ hu).elim
  | refused hn hfit hmax =>
    exact absurd hmax (Nat.not_le.2 (hadmitted hs hn.find hn.not_closed hn.incoming).1)
  | ignored hn hfit hg =>
    rcases hg with hg | hg
    · exact absurd (hg.symm.trans hc) (by decide)
    · exact absurd hg (hadmitted hs hn.find hn.not_closed hn.incoming).2
  | wrongParity hn hfit => exact (hdown _ hu).elim

namespace WhileOpen

/-- **Looking an admitted stream up.** -/
theorem look (h : WhileOpen (Books c F G N M) s) (hc : s.connected = true)
    (hs : isStaticId id = false) (h0 : id ≠ 0) (hadmitted : Admitted s id) :
    WhileOpen (Books c F G (insert id N) M) (s.getOrCreateDynamicStream id).2 := by
  have hB := h.2 hc
  have hT : WhileOpen (Tally s) (s.getOrCreateDynamicStream id).2 :=
    getOrCreateDynamicStream ⟨h.1, fun _ => hB.2.received.tally⟩ hc
  refine ⟨h.1.getOrCreateDynamicStream, fun hu => ?_⟩
  have hH := hB.1.getOrCreateDynamicStream h.1 hc hs h0 hadmitted hu
  have hR := (hT.2 hu).received
  cases hget : s.getOrCreateDynamicStream id with
  | mk o v =>
    rw [hget] at hH hR hu
    refine ⟨hH, ?_⟩
    cases o with
    | none =>
      obtain ⟨rfl, -, -⟩ := Session.closed_of_none hget hc hs h0 hadmitted hu
      exact hB.2
    | some p =>
      rcases Session.getOrCreateDynamicStream_some hget with ⟨rfl, -⟩ | ⟨rfl, hn, w, rfl⟩
      · exact hB.2
      · refine hB.2.make hB.1 h.1 hR rfl rfl ?_ ?_ rfl fun q hq heq => ?_
        · show without id (s.tables.admitPeer id).dynamicStreams ++ [(id, s.numStreams)] = _
          rw [Tables.dynamicStreams_admitPeer, without_eq_self (valueAt_eq_none_iff.1 hn.find)]
        · exact Tables.locallyClosedStreams_admitPeer
        · refine (hB.1.lived.lived.of_fresh hn).2 ?_
          rw [← heq]
          exact hB.1.created q hq (heq ▸ of_decide_eq_true hn.incoming)

end WhileOpen

end Streams
end QuicNs3
