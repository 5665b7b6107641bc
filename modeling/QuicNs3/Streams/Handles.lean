/-
# Which stream an id names

A stream object is known by its handle, and keeps its handle when it is closed.  `Handles`
says that the ids in use name these objects: two objects that are not static have different
ids, and every id that the peer has named, or that the session has used for a stream of its
own, is the id of one.

This needs that no stream is refused or ignored (`Admitted`): the id of such a stream is
used up, but there is no object for it.
-/

import QuicNs3.Streams.Life

namespace QuicNs3
namespace Streams

open Lib

variable {c : Config} {N N' M M' : Finset ℕ} {s t : Session} {p id x : ℕ} {w : Bool}

/-- There is an object for the id. -/
def HasStream (s : Session) (id : ℕ) : Prop :=
  ∃ p, (s.streams p).isStatic = false ∧ (s.streams p).id = id

/-- **The objects and their ids**, where `N` are the ids that frames have named. -/
structure Handles (c : Config) (N M : Finset ℕ) (s : Session) : Prop where
  lived : LivedIn c N (fun _ => False) M s
  lt : ∀ p, (s.streams p).isStatic = false → p < s.numStreams
  static : ∀ p < 2, (s.streams p).isStatic = true
  staticId : ∀ p, isStaticId (s.streams p).id = (s.streams p).isStatic
  unique : ∀ p q, (s.streams p).isStatic = false → (s.streams q).isStatic = false →
    (s.streams p).id = (s.streams q).id → p = q
  created : ∀ p, (s.streams p).isStatic = false →
    (s.streams p).id % 2 ≠ s.tables.nextOutgoingStreamId % 2 → (s.streams p).id ∈ s.tables.created
  lt_next : ∀ p, (s.streams p).isStatic = false →
    (s.streams p).id % 2 = s.tables.nextOutgoingStreamId % 2 →
    (s.streams p).id < s.tables.nextOutgoingStreamId
  next : isStaticId s.tables.nextOutgoingStreamId = false
  peer : ∀ x ∈ N, c.IsPeerId x → HasStream s x
  own : ∀ x, isStaticId x = false → x ≠ 0 → x % 2 = s.tables.nextOutgoingStreamId % 2 →
    x < s.tables.nextOutgoingStreamId → HasStream s x

/-! ## What does not make streams -/

/-- The streams keep their ids, and none is made. -/
theorem Handles.similar (h : Handles c N M' s) (hL : LivedIn c N (fun _ => False) M t)
    (hid : ∀ q, (t.streams q).id = (s.streams q).id)
    (hstatic : ∀ q, (t.streams q).isStatic = (s.streams q).isStatic)
    (hnum : t.numStreams = s.numStreams) (hcreated : t.tables.created = s.tables.created)
    (hnext : t.tables.nextOutgoingStreamId = s.tables.nextOutgoingStreamId) :
    Handles c N M t := by
  have hhas : ∀ x, HasStream s x → HasStream t x := by
    rintro x ⟨p, hp, rfl⟩
    exact ⟨p, (hstatic p).trans hp, hid p⟩
  refine ⟨hL, fun p hp => ?_, fun p hp => ?_, fun p => ?_, fun p q hp hq heq => ?_,
    fun p hp hx => ?_, fun p hp hx => ?_, hnext ▸ h.next, fun x hx hp => hhas x (h.peer x hx hp),
    fun x hs h0 hp hlt => ?_⟩
  · exact hnum ▸ h.lt p (hstatic p ▸ hp)
  · exact (hstatic p).trans (h.static p hp)
  · rw [hid, hstatic]
    exact h.staticId p
  · exact h.unique p q (hstatic p ▸ hp) (hstatic q ▸ hq) (by rw [← hid, ← hid, heq])
  · rw [hid, hnext] at hx
    rw [hid, hcreated]
    exact h.created p (hstatic p ▸ hp) hx
  · rw [hid, hnext] at hx ⊢
    exact h.lt_next p (hstatic p ▸ hp) hx
  · rw [hnext] at hp hlt
    exact hhas x (h.own x hs h0 hp hlt)

theorem indifferent_handles : Indifferent (Handles c N M) where
  change := fun h hg => h.similar (indifferent_livedIn.change h.lived hg) (fun q => (hg q).id)
    (fun q => (hg q).isStatic) rfl rfl rfl
  close := by
    intro s id b h
    have hL : LivedIn c N (fun _ => False) M (s.closeStreamInner id b) :=
      indifferent_livedIn.close h.lived
    cases hp : s.findDynamic id with
    | none =>
      unfold Session.closeStreamInner
      rw [hp]
      exact h
    | some p =>
      obtain ⟨g, C, failed, o, heq, hg, -⟩ := closeStreamInner_received (b := b) hp
      rw [heq] at hL ⊢
      exact h.similar hL (fun q => (hg q).id) (fun q => (hg q).isStatic) rfl
        Tables.created_closeStream Tables.nextOutgoingStreamId_closeStream
  disconnect := fun h => h.similar (indifferent_livedIn.disconnect h.lived) (fun _ => rfl)
    (fun _ => rfl) rfl rfl rfl
  drain := by
    intro s id h hid
    refine h.similar (indifferent_livedIn.drain h.lived hid) (fun _ => rfl) (fun _ => rfl) rfl ?_ ?_
    · unfold Tables.streamDraining
      split_ifs <;> rfl
    · unfold Tables.streamDraining
      split_ifs <;> rfl

/-- One stream is changed in anything but its id. -/
theorem Handles.modify {f : Stream → Stream} (h : Handles c N M s)
    (hid : (f (s.streams p)).id = (s.streams p).id)
    (hstatic : (f (s.streams p)).isStatic = (s.streams p).isStatic) :
    Handles c N M (s.modify p f) := by
  refine h.similar ⟨h.lived.lived, h.lived.named, h.lived.config⟩ (fun q => ?_) (fun q => ?_) rfl
    rfl rfl
  · rcases eq_or_ne q p with rfl | hne
    · rwa [Session.streams_modify_self]
    · rw [Session.streams_modify_of_ne hne]
  · rcases eq_or_ne q p with rfl | hne
    · rwa [Session.streams_modify_self]
    · rw [Session.streams_modify_of_ne hne]

theorem unwritten_handles : Unwritten (fun _ => True) (Handles c N M) where
  toRules := indifferent_handles.rules
  outgoing := fun h _ => h.modify rfl rfl
  finSent := fun h _ => h.modify rfl rfl
  sending := fun h => h.similar (unwritten_livedIn.sending h.lived) (fun _ => rfl) (fun _ => rfl)
    rfl rfl rfl
  drain := fun h hid => indifferent_handles.drain h hid

/-! ## Making streams -/

/-- **A stream is made** under an id that no object has. -/
theorem Handles.make (h : Handles c N M s) (hL : LivedIn c N' (fun _ => False) M t)
    (hstreams : t.streams =
      Function.update s.streams s.numStreams (s.config.newStream id false w))
    (hnum : t.numStreams = s.numStreams + 1)
    (hparity : t.tables.nextOutgoingStreamId % 2 = s.tables.nextOutgoingStreamId % 2)
    (hle : s.tables.nextOutgoingStreamId ≤ t.tables.nextOutgoingStreamId)
    (hnext : isStaticId t.tables.nextOutgoingStreamId = false)
    (hcreated : ∀ x ∈ s.tables.created, x ∈ t.tables.created) (hs : isStaticId id = false)
    (htwo : 2 ≤ s.numStreams)
    (hfresh : ∀ p, (s.streams p).isStatic = false → (s.streams p).id ≠ id)
    (hid : id % 2 ≠ t.tables.nextOutgoingStreamId % 2 → id ∈ t.tables.created)
    (hid' : id % 2 = t.tables.nextOutgoingStreamId % 2 → id < t.tables.nextOutgoingStreamId)
    (hN : ∀ x ∈ N', x ∈ N ∨ x = id)
    (hown : ∀ x < t.tables.nextOutgoingStreamId, x % 2 = t.tables.nextOutgoingStreamId % 2 →
      x < s.tables.nextOutgoingStreamId ∨ x = id) : Handles c N' M t := by
  have hnew : t.streams s.numStreams = s.config.newStream id false w := by
    rw [hstreams, Function.update_self]
  have hold : ∀ q, q ≠ s.numStreams → t.streams q = s.streams q :=
    fun q hq => by rw [hstreams, Function.update_of_ne hq]
  have hhas : ∀ x, HasStream s x → HasStream t x := by
    rintro x ⟨p, hp, rfl⟩
    refine ⟨p, ?_, ?_⟩
    · rw [hold p (h.lt p hp).ne]
      exact hp
    · rw [hold p (h.lt p hp).ne]
  have hself : HasStream t id := ⟨s.numStreams, by rw [hnew]; rfl, by rw [hnew]; rfl⟩
  refine ⟨hL, fun p hp => ?_, fun p hp => ?_, fun p => ?_, fun p q hp hq heq => ?_,
    fun p hp hx => ?_, fun p hp hx => ?_, hnext, fun x hx hp => ?_, fun x hs h0 hp hlt => ?_⟩
  · rcases eq_or_ne p s.numStreams with rfl | hne
    · omega
    · rw [hold p hne] at hp
      have := h.lt p hp
      omega
  · rw [hold p (hp.trans_le htwo).ne]
    exact h.static p hp
  · rcases eq_or_ne p s.numStreams with rfl | hne
    · rw [hnew]
      exact hs
    · rw [hold p hne]
      exact h.staticId p
  · rcases eq_or_ne p s.numStreams with rfl | hpn
    · rcases eq_or_ne q s.numStreams with rfl | hqn
      · rfl
      · rw [hold q hqn] at hq heq
        rw [hnew] at heq
        exact absurd heq.symm (hfresh q hq)
    · rcases eq_or_ne q s.numStreams with rfl | hqn
      · rw [hold p hpn] at hp heq
        rw [hnew] at heq
        exact absurd heq (hfresh p hp)
      · rw [hold p hpn] at hp heq
        rw [hold q hqn] at hq heq
        exact h.unique p q hp hq heq
  · rcases eq_or_ne p s.numStreams with rfl | hne
    · rw [hnew] at hx ⊢
      exact hid hx
    · rw [hold p hne] at hp hx ⊢
      exact hcreated _ (h.created p hp (hparity ▸ hx))
  · rcases eq_or_ne p s.numStreams with rfl | hne
    · rw [hnew] at hx ⊢
      exact hid' hx
    · rw [hold p hne] at hp hx ⊢
      exact (h.lt_next p hp (hparity ▸ hx)).trans_le hle
  · rcases hN x hx with hx | rfl
    · exact hhas x (h.peer x hx hp)
    · exact hself
  · rcases hown x hlt hp with hlt | rfl
    · exact hhas x (h.own x hs h0 (hparity ▸ hp) hlt)
    · exact hself

theorem isPeerId_of_parity (hs : isStaticId x = false) (h0 : x ≠ 0)
    (hp : x % 2 = c.initialLargestPeerStreamId % 2) : c.IsPeerId x := by
  refine ⟨?_, hp⟩
  simp only [isStaticId, Bool.or_eq_false_iff, decide_eq_false_iff_not] at hs
  revert hp
  unfold Config.initialLargestPeerStreamId
  cases c.perspective
  · dsimp only
    omega
  · dsimp only
    omega

/-- **No stream is refused or ignored** for being one too many, or for coming after the
peer was told that the connection goes away. -/
def Admitted (s : Session) (id : ℕ) : Prop :=
  isStaticId id = false → s.findDynamic id = none → s.tables.isClosedStream id = false →
    s.tables.isIncomingStream id = true →
    s.tables.getNumOpenIncomingStreams < s.config.maxOpenIncomingStreams ∧
      ¬ (s.config.perspective = .client ∧ s.goawayReceived = true)

instance : Decidable (Admitted s id) :=
  inferInstanceAs (Decidable (isStaticId id = false → _))

namespace Handles

/-- A closed id was used, so it has an object. -/
theorem of_closed (h : Handles c N M s) (hcl : s.tables.isClosedStream id = true) (h0 : id ≠ 0) :
    HasStream s id := by
  obtain ⟨hs, -, hown, hpeer⟩ := isClosedStream_iff.1 hcl
  have hL := h.lived.lived
  cases hin : s.tables.isIncomingStream id with
  | false => exact h.own id hs h0 (by simpa [Tables.isIncomingStream] using hin) (hown hin)
  | true =>
    obtain ⟨hle, havail⟩ := hpeer hin
    have hparity := hL.isIncomingStream_iff.1 hin
    have hid : c.IsPeerId id := isPeerId_of_parity hs h0 hparity
    refine h.peer id ?_ hid
    by_contra hN
    rcases hle.lt_or_eq with hlt | rfl
    · exact havail ((hL.available id).2 ⟨hid, hlt, hN⟩)
    · exact hN (hL.largest_named hid.1)

/-- An id in the map of dynamic streams has an object. -/
theorem of_dynamic (hF : Formed s) (hmem : (id, p) ∈ s.tables.dynamicStreams) : HasStream s id :=
  ⟨p, hF.isStatic _ hmem, hF.id_eq _ hmem⟩

/-- A frame names an id that has an object, or that no stream of the peer can have. -/
theorem name (h : Handles c N M s) (hL : LivedIn c (insert x N) (fun _ => False) M s)
    (hx : c.IsPeerId x → HasStream s x) : Handles c (insert x N) M s :=
  { h with
    lived := hL
    peer := fun y hy hp => by
      rcases Finset.mem_insert.1 hy with rfl | hy
      · exact hx hp
      · exact h.peer y hy hp }

/-- **Looking a stream up** that is admitted. -/
theorem getOrCreateDynamicStream (h : Handles c N M s) (hF : Formed s) (hc : s.connected = true)
    (hs : isStaticId id = false) (h0 : id ≠ 0) (hadmitted : Admitted s id)
    (hu : (s.getOrCreateDynamicStream id).2.connected = true) :
    Handles c (insert id N) M (s.getOrCreateDynamicStream id).2 := by
  have hL : LivedIn c (insert id N) (fun _ => False) M (s.getOrCreateDynamicStream id).2 :=
    h.lived.getOrCreateDynamicStream hc
  have hmem := @mem_of_getOrCreateDynamicStream s
  have hdown : ∀ t : Session, t.closeConnection.connected = true → False := fun t ht =>
    absurd (Session.connected_closeConnection.symm.trans ht) (by decide)
  have hadm := s.admission id
  generalize s.getOrCreateDynamicStream id = r at hadm hL hu ⊢
  cases hadm with
  | failed hid => exact absurd hid (by simp [hs, h0])
  | known p hp =>
    obtain ⟨e, he, rfl⟩ := Option.map_eq_some_iff.1 hp
    obtain rfl : e.1 = id := by simpa using List.find?_some he
    exact h.name hL fun _ => of_dynamic hF (List.mem_of_find?_eq_some he)
  | closed hf hcl => exact h.name hL fun _ => h.of_closed hcl h0
  | foreign hf hi => exact (hdown _ hu).elim
  | tooFar hn hlt => exact (hdown _ hu).elim
  | refused hn hfit hmax =>
    exact absurd hmax (Nat.not_le.2 (hadmitted hs hn.find hn.not_closed hn.incoming).1)
  | ignored hn hfit hg =>
    rcases hg with hg | hg
    · exact absurd (hg.symm.trans hc) (by decide)
    · exact absurd hg (hadmitted hs hn.find hn.not_closed hn.incoming).2
  | wrongParity hn hfit => exact (hdown _ hu).elim
  | made hn hfit hc' w =>
    have hnext : (s.tables.admitPeer id).nextOutgoingStreamId = s.tables.nextOutgoingStreamId :=
      Tables.nextOutgoingStreamId_admitPeer
    have hparity : id % 2 ≠ s.tables.nextOutgoingStreamId % 2 := of_decide_eq_true hn.incoming
    have hstatic : isStaticId (s.tables.admitPeer id).nextOutgoingStreamId = false :=
      hnext ▸ h.next
    refine h.make hL rfl rfl (congrArg (· % 2) hnext) hnext.ge hstatic (fun x hx => ?_) hs hF.two_le
      (fun p hp hpid => ?_) (fun _ => List.mem_cons_self ..) (fun hp => ?_)
      (fun x hx => (Finset.mem_insert.1 hx).symm) fun x hlt _ => .inl (hlt.trans_eq hnext)
    · refine List.mem_cons_of_mem _ ?_
      show x ∈ (s.tables.admitPeer id).created
      unfold Tables.admitPeer
      split_ifs <;> exact hx
    · refine (h.lived.lived.of_fresh hn).2 ?_
      rw [← hpid]
      exact h.created p hp (hpid ▸ hparity)
    · exact absurd (hp.trans (congrArg (· % 2) hnext)) hparity

theorem createOutgoingDynamicStream (h : Handles c N M s) (hF : Formed s) :
    Handles c N M s.createOutgoingDynamicStream := by
  have hL := h.lived.createOutgoingDynamicStream
  unfold Session.createOutgoingDynamicStream at hL ⊢
  split_ifs at hL ⊢
  · have hnext := h.next
    have hadvance : isStaticId (s.tables.nextOutgoingStreamId + 2) = false := by
      simp only [isStaticId, Bool.or_eq_false_iff, decide_eq_false_iff_not] at hnext ⊢
      omega
    refine h.make hL rfl rfl (Nat.add_mod_right _ 2) (Nat.le_add_right _ 2) hadvance
      (fun x hx => hx) hnext hF.two_le (fun p hp hid => ?_) (fun hp => ?_) (fun _ => ?_)
      (fun x hx => .inl hx) fun x hlt hp => ?_
    · have := h.lt_next p hp (by rw [hid])
      omega
    · exact absurd (Nat.add_mod_right _ 2).symm hp
    · exact Nat.lt_add_of_pos_right (by decide)
    · change x < s.tables.nextOutgoingStreamId + 2 at hlt
      change x % 2 = (s.tables.nextOutgoingStreamId + 2) % 2 at hp
      omega
  · exact h

end Handles

end Streams
end QuicNs3
