/-
# The limits of flow control

What the peer may send is limited by the windows of the streams and of the session.  For
frames with data the code checks this after it has raised the highest offset received, and
closes the connection.  For a reset of an open stream it does not: `OnStreamReset` raises
the offset without a check.  If the reset carries an error, the stream is closed and the
bytes are consumed, which the `DCHECK` of `MaybeSendWindowUpdate` does not let pass; if it
carries `QUIC_STREAM_NO_ERROR`, the connection goes on (`exists_reset_beyond_window`).

`always_within_limits` is what is left: in a run whose resets are in the windows, and whose
offsets do not wrap, no offset is beyond its window while the connection is open, and what
was consumed is never taken back.
-/

import QuicNs3.Lib.Run
import QuicNs3.Streams.Taking

namespace QuicNs3
namespace Streams

open Lib

variable {s s₀ t u : Session} {p id n : ℕ} {w : Bool} {m : StreamFrame} {r : Reaction}

/-! ## Raising and settling -/

/-- **Raising the highest offset** of a stream adds to the session as much as to the sum. -/
theorem Tally.raise (h : Tally s₀ s) (hF : Formed s)
    (hd : (s.streams p).isStatic = false → s.isDynamic p = true)
    (hlt : (s.streams p).flowController.highestReceivedByteOffset < n) (hin : InWindows s p n)
    (hn : Below n) (hroom : Below s.flowController.receiveWindowOffset) :
    Tally s₀ (s.increaseHighestReceivedOffset p n) := by
  have hst := h.received.stream p
  have hconsumed := hst.sound.consumed_le
  obtain ⟨c, C, heq, ⟨hc₁, hc₂, hc₃⟩, hC₁, hC₂, hC₃⟩ :=
    increaseHighestReceivedOffset_spec hst.sound h.received.session hlt hin hn hroom
  have hmax : n < kMaxOffset := by
    unfold Below kSessionReceiveWindowLimit at hn
    unfold kMaxOffset
    omega
  rw [heq]
  refine h.update hF rfl rfl rfl rfl ⟨hc₁, ?_, fun hr => ?_, hst.cleared⟩
    ⟨hc₂ ▸ hlt.le, hc₃.ge, le_rfl⟩ rfl (fun hr => hr) hC₁ hC₃.ge ?_
  · exact hst.arranged.mono (hc₂ ▸ hlt.le) (hc₂ ▸ hmax)
  · exact (hst.reading hr).trans hc₃.symm
  · show C.bytesConsumed + (if s.isDynamic p then
        c.highestReceivedByteOffset - c.bytesConsumed else 0) +
          s.flowController.highestReceivedByteOffset =
      s.flowController.bytesConsumed + s.pending p + C.highestReceivedByteOffset
    unfold Session.pending Stream.unconsumed
    rw [hC₂, hC₃, hc₂, hc₃]
    by_cases hdyn : s.isDynamic p = true
    · rw [if_pos hdyn, if_pos hdyn, if_neg (by rw [hF.isStatic_of_isDynamic hdyn]; decide)]
      omega
    · have hstatic : (s.streams p).isStatic = true := by
        by_contra hs
        exact hdyn (hd (Bool.eq_false_iff.2 hs))
      rw [if_neg hdyn, if_neg hdyn, if_pos hstatic]
      omega

theorem ReceiveController.Sound.settle {c : ReceiveController} {e : Environment} (h : c.Sound)
    (hle : c.highestReceivedByteOffset + n ≤ c.receiveWindowOffset)
    (hroom : Below c.receiveWindowOffset) :
    let c' := ((c.updateHighestReceivedOffset
      (c.highestReceivedByteOffset + n)).addBytesConsumed e n).1
    c'.Sound ∧ c'.bytesConsumed = c.bytesConsumed + n ∧
      c'.highestReceivedByteOffset = c.highestReceivedByteOffset + n := by
  unfold Below at hroom
  have hconsumed := h.consumed_le
  rcases Nat.eq_zero_or_pos n with rfl | hpos
  · have hsame : c.updateHighestReceivedOffset (c.highestReceivedByteOffset + 0) = c :=
      if_pos le_rfl
    rw [hsame]
    exact h.addBytesConsumed (by omega)
  · obtain ⟨h₁, h₂, h₃⟩ := h.raise (n := c.highestReceivedByteOffset + n) (by omega) hle (by omega)
    obtain ⟨h₄, h₅, h₆⟩ := h₁.addBytesConsumed (n := n) (e := e) (by omega)
    exact ⟨h₄, h₅.trans (by rw [h₂]), h₆.trans h₃⟩

/-- **The final offset of a closed stream** is received and consumed at once. -/
theorem Tally.settle {recorded : ℕ} (h : Tally s₀ s)
    (hle : s.flowController.highestReceivedByteOffset + (n - recorded) ≤
      s.flowController.receiveWindowOffset)
    (hroom : Below s.flowController.receiveWindowOffset) : Tally s₀ (s.settle id n recorded) := by
  obtain ⟨h₁, h₂, h₃⟩ := h.received.session.settle (e := s.environment) hle hroom
  refine ⟨⟨h.received.stream, h₁, h.received.numbered, h.received.closed, ?_⟩,
    ⟨h.since.numStreams, ?_, h.since.stream⟩⟩
  · have htotal := h.received.total
    show (s.settle id n recorded).flowController.bytesConsumed +
      ∑ p ∈ Finset.range s.numStreams, s.pending p = _
    refine Eq.trans ?_ h₃.symm
    rw [show (s.settle id n recorded).flowController.bytesConsumed = _ from h₂]
    omega
  · exact h.since.session.trans ((Nat.le_add_right _ _).trans h₂.ge)

/-- **Raising, buffering and closing offsets keep the tally.** -/
theorem taking_tally (s₀ : Session) : Taking (fun _ _ _ => True) (fun _ => True) (Tally s₀) where
  toKeeps := keeps_tally s₀
  received := fun h => h.received
  mono := fun _ => trivial
  closeOffset := fun _ h _ => h.modify ⟨rfl, rfl, rfl, rfl⟩
  raise := by
    intro s p n hF h hr hlt hin hn hroom _
    exact h.raise hF (fun hs => h.received.isDynamic_of_reading hs hr) hlt hin hn hroom
  store := by
    intro s p b hF h hr hb htotal
    have hst := h.received.stream p
    refine h.modify_buffer hF ⟨hst.sound, hb, fun _ => ?_, fun hr' => ?_⟩ rfl htotal.ge rfl
      fun hr => hr
    · exact htotal.trans (hst.reading hr)
    · exact absurd (hr.symm.trans hr') (by decide)

/-! ## Making streams -/

theorem Config.below_initial (c : Config) : Below c.initialStreamFlowControlWindowToSend := by
  have := c.stream_le
  unfold kStreamReceiveWindowLimit at this
  unfold Below kSessionReceiveWindowLimit
  omega

/-- A new stream has received nothing. -/
theorem Stream.Intact.newStream (c : Config) (id : ℕ) (isStatic w : Bool) :
    (c.newStream id isStatic w).Intact where
  sound := ReceiveController.Sound.new c.stream_le (by decide)
  arranged := SequencerBuffer.arranged_of_cleared rfl le_rfl
    (by show 0 < kMaxOffset; decide)
  reading := fun _ => rfl
  cleared := fun _ => rfl

/-- **A stream is made** under an id that is not in use. -/
theorem Tally.activateStream (h : Tally s₀ s) (hid : id ∉ s.tables.dynamicIds)
    (hnext : id % 2 = s.tables.nextOutgoingStreamId % 2 → id < s.tables.nextOutgoingStreamId) :
    Tally s₀ (s.activateStream id w) := by
  have hold : ∀ q, q ≠ s.numStreams → (s.activateStream id w).streams q = s.streams q :=
    fun q hq => Function.update_of_ne hq ..
  have hnew : (s.activateStream id w).streams s.numStreams = s.config.newStream id false w :=
    Function.update_self ..
  have hdynamic : (s.activateStream id w).tables.dynamicStreams =
      s.tables.dynamicStreams ++ [(id, s.numStreams)] := by
    show without id s.tables.dynamicStreams ++ [(id, s.numStreams)] = _
    rw [without_eq_self hid]
  have hisDynamic : ∀ q, q ≠ s.numStreams →
      (s.activateStream id w).isDynamic q = s.isDynamic q := by
    intro q hq
    unfold Session.isDynamic
    rw [hdynamic]
    simp [hq]
  have hzero : (s.activateStream id w).pending s.numStreams = 0 := by
    unfold Session.pending
    rw [hnew]
    split_ifs <;> rfl
  refine ⟨⟨fun q => ?_, h.received.session, fun x hx hp => ?_, fun q hs hd => ?_, ?_⟩,
    ⟨h.since.numStreams.trans (Nat.le_succ _), h.since.session, fun q hq => ?_⟩⟩
  · rcases eq_or_ne q s.numStreams with rfl | hne
    · rw [hnew]
      exact Stream.Intact.newStream ..
    · rw [hold q hne]
      exact h.received.stream q
  · rcases Tables.mem_dynamicIds_activateStream.1 hx with hx | rfl
    · exact h.received.numbered x hx hp
    · exact hnext hp
  · rcases eq_or_ne q s.numStreams with rfl | hne
    · refine absurd hd ?_
      unfold Session.isDynamic
      rw [hdynamic]
      simp
    · rw [hold q hne] at hs ⊢
      exact h.received.closed q hs (hisDynamic q hne ▸ hd)
  · have hsum := sum_range_extend (n := s.numStreams) (f := s.pending)
      (g := (s.activateStream id w).pending) fun q hq => by
        unfold Session.pending
        rw [hold q hq.ne, hisDynamic q hq.ne]
    show s.flowController.bytesConsumed +
      ∑ q ∈ Finset.range (s.numStreams + 1), (s.activateStream id w).pending q =
      s.flowController.highestReceivedByteOffset
    rw [hsum, hzero]
    exact h.received.total
  · rw [hold q (hq.trans_le h.since.numStreams).ne]
    exact h.since.stream q hq

/-- Nothing changes but tables that receiving does not look at. -/
theorem Tally.withTables {t : Tables} (h : Tally s₀ s)
    (hdyn : t.dynamicStreams = s.tables.dynamicStreams)
    (hnext : t.nextOutgoingStreamId = s.tables.nextOutgoingStreamId) :
    Tally s₀ { s with tables := t } :=
  h.congr (fun _ => Stream.SameReceived.refl _) hdyn hnext rfl rfl

theorem Tally.createOutgoingDynamicStream (h : Tally s₀ s) :
    Tally s₀ s.createOutgoingDynamicStream := by
  unfold Session.createOutgoingDynamicStream
  split_ifs
  · have hid : s.tables.nextOutgoingStreamId ∉ s.tables.dynamicIds := fun hx =>
      absurd (h.received.numbered _ hx rfl) (lt_irrefl _)
    have hnext : Tally s₀ { s with tables :=
        { s.tables with nextOutgoingStreamId := s.tables.nextOutgoingStreamId + 2 } } := by
      refine ⟨⟨h.received.stream, h.received.session, fun x hx hp => ?_, h.received.closed,
        h.received.total⟩, ⟨h.since.numStreams, h.since.session, h.since.stream⟩⟩
      have := h.received.numbered x hx (by simpa using hp)
      show x < s.tables.nextOutgoingStreamId + 2
      omega
    exact hnext.activateStream hid fun _ => Nat.lt_add_of_pos_right (by decide)
  · exact h

/-- **Looking a stream up.** -/
theorem WhileOpen.getOrCreateDynamicStream (h : WhileOpen (Tally s₀) s) (hc : s.connected = true) :
    WhileOpen (Tally s₀) (s.getOrCreateDynamicStream id).2 := by
  have hF : Formed (s.getOrCreateDynamicStream id).2 := h.1.getOrCreateDynamicStream
  have hT := h.2 hc
  have hadmit : Tally s₀ (s.admitId id) :=
    hT.withTables Tables.dynamicStreams_admitPeer Tables.nextOutgoingStreamId_admitPeer
  have hcreated : Tally s₀ ((s.admitId id).noteCreated id) := hadmit.withTables rfl rfl
  have hadm := s.admission id
  generalize s.getOrCreateDynamicStream id = x at hadm hF ⊢
  cases hadm with
  | failed hid => exact (keeps_tally s₀).unwritten.abort h
  | known p hp => exact h
  | closed hf hcl => exact h
  | foreign hf hi => exact .closeConnection h.1
  | tooFar hn hlt => exact .closeConnection (h.1.withTables rfl)
  | refused hn hfit hmax => exact ⟨hF, fun _ => hadmit⟩
  | ignored hn hfit hg => exact ⟨hF, fun _ => hcreated⟩
  | wrongParity hn hfit => exact .closeConnection (h.1.admitId.withTables rfl)
  | made hn hfit hc' w =>
    refine ⟨hF, fun _ => hcreated.activateStream ?_ fun hp => ?_⟩
    · show id ∉ (s.tables.admitPeer id).dynamicStreams.map Prod.fst
      rw [Tables.dynamicStreams_admitPeer]
      exact valueAt_eq_none_iff.1 hn.find
    · change id % 2 = (s.tables.admitPeer id).nextOutgoingStreamId % 2 at hp
      rw [Tables.nextOutgoingStreamId_admitPeer] at hp
      exact absurd hp (of_decide_eq_true hn.incoming)

/-! ## What the frames have to keep to -/

namespace Session

/-- The stream under an id, static or not. -/
def lookup (s : Session) (id : ℕ) : Option ℕ :=
  if id = 1 then some 0 else if id = 3 then some 1 else s.findDynamic id

/-- No window has come close to the largest offset. -/
def Roomy (s : Session) : Prop :=
  Below s.flowController.receiveWindowOffset ∧
    ∀ p < s.numStreams, Below (s.streams p).flowController.receiveWindowOffset

instance : Decidable s.Roomy := instDecidableAnd

/-- A reset is in the windows of the stream, which may be a new one. -/
def ResetFits (s : Session) (id n : ℕ) : Prop :=
  (∀ p ∈ s.findDynamic id, InWindows s p n) ∧
    (s.findDynamic id = none → s.tables.isClosedStream id = false →
      s.tables.isIncomingStream id = true →
      n ≤ s.config.initialStreamFlowControlWindowToSend ∧
        s.flowController.highestReceivedByteOffset + n ≤ s.flowController.receiveWindowOffset)

instance : Decidable (s.ResetFits id n) := instDecidableAnd

/-- **What a frame has to keep to**: the end of the data is an offset, a FIN with data does
not contradict an earlier one, a reset is in the windows, and the final offset of a closed
stream is not below what was received. -/
def keepsTo (s : Session) : Op → Prop
  | .streamFrame m _ =>
    m.offset.toNat + m.dataLength.toNat < 2 ^ 64 ∧
    (m.fin = true → m.dataLength ≠ 0 → ∀ p ∈ s.lookup m.streamId,
      (s.streams p).sequencer.closeOffset = kMaxOffset ∨
        m.stop = (s.streams p).sequencer.closeOffset) ∧
    (m.fin = true → Settles s m.streamId m.stop)
  | .rstStream m =>
    s.ResetFits m.streamId m.byteOffset.toNat ∧ Settles s m.streamId m.byteOffset.toNat
  | .headerList id _ headers _ =>
    ∀ x ∈ headers, ∀ offset ∈ x.offset, Settles s id offset.toNat
  | _ => True

/-- There is at most one offset to look at; as a finite type it would be all `2 ^ 64`. -/
instance (x : Option UInt64) : Decidable (∀ offset ∈ x, Settles s id offset.toNat) :=
  Option.decidableForallMem x

instance : (op : Op) → Decidable (s.keepsTo op)
  | .streamFrame _ _ => inferInstanceAs (Decidable (_ ∧ _))
  | .rstStream _ => inferInstanceAs (Decidable (_ ∧ _))
  | .headerList _ _ headers _ => inferInstanceAs (Decidable (∀ x ∈ headers, _))
  | .windowUpdate _ _ _ | .goaway | .closeConnection | .canWrite _ _ | .createOutgoing
  | .write _ _ _ _ | .writeHeaders _ _ _ _ | .writeTrailers _ _ _ | .consumeHeaderList _ _
  | .markTrailersConsumed _ | .markConsumed _ _ | .finRead _ | .stopReading _ _ | .reset _ =>
    .isTrue trivial

theorem keepsTo_arrive {op op' : Op} {e : Environment} :
    (s.arrive op e).keepsTo op' = s.keepsTo op' := by
  cases op' <;> rfl

/-- The stream that a frame is for was known, or is made for it. -/
theorem getOrCreateDynamicStream_some (h : s.getOrCreateDynamicStream id = (some p, u)) :
    (u = s ∧ s.findDynamic id = some p) ∨ p = s.numStreams ∧ Fresh s id ∧
      ∃ w, u = ((s.admitId id).noteCreated id).activateStream id w := by
  have hadm := s.admission id
  rw [h] at hadm
  cases hadm with
  | known p hp => exact .inl ⟨rfl, hp⟩
  | made hn hfit hc w => exact .inr ⟨rfl, hn, w, rfl⟩

theorem getOrCreateStream_some (h : s.getOrCreateStream id = (some p, u)) :
    (u = s ∧ s.lookup id = some p) ∨ p = s.numStreams ∧ Fresh s id ∧
      ∃ w, u = ((s.admitId id).noteCreated id).activateStream id w := by
  unfold getOrCreateStream at h
  unfold lookup
  split_ifs at h ⊢ with h₁ h₃
  · exact .inl ⟨(congrArg Prod.snd h).symm, congrArg Prod.fst h⟩
  · exact .inl ⟨(congrArg Prod.snd h).symm, congrArg Prod.fst h⟩
  · exact getOrCreateDynamicStream_some h

/-- Where there is no stream, the connection is closed or what was received stays. -/
theorem getOrCreateDynamicStream_none (h : s.getOrCreateDynamicStream id = (none, u))
    (hc : u.connected = true) : u.flowController = s.flowController ∧
      u.tables.locallyClosedStreams = s.tables.locallyClosedStreams := by
  have hadm := s.admission id
  rw [h] at hadm
  have hclosed : ∀ t : Session, t.closeConnection.connected = true → False := fun t ht =>
    absurd (connected_closeConnection.symm.trans ht) (by decide)
  cases hadm with
  | failed hid => exact ⟨rfl, rfl⟩
  | closed hf hcl => exact ⟨rfl, rfl⟩
  | foreign hf hi => exact (hclosed _ hc).elim
  | tooFar hn hlt => exact (hclosed _ hc).elim
  | refused hn hfit hmax => exact ⟨rfl, Tables.locallyClosedStreams_admitPeer⟩
  | ignored hn hfit hg => exact ⟨rfl, Tables.locallyClosedStreams_admitPeer⟩
  | wrongParity hn hfit => exact (hclosed _ hc).elim

theorem getOrCreateStream_none (h : s.getOrCreateStream id = (none, u)) :
    s.getOrCreateDynamicStream id = (none, u) := by
  unfold getOrCreateStream at h
  split_ifs at h with h₁ h₃
  · exact absurd (congrArg Prod.fst h) (by simp)
  · exact absurd (congrArg Prod.fst h) (by simp)
  · exact h

/-- **The stream that a frame is for**: it was known, or it is new. -/
theorem found_of_some {B : Stream → Prop}
    (hget : s.getOrCreateDynamicStream id = (some p, u))
    (hknown : ∀ p ∈ s.findDynamic id, B (s.streams p))
    (hnew : Fresh s id → ∀ w, B (s.config.newStream id false w)) :
    u.connected = s.connected ∧ u.flowController = s.flowController ∧ B (u.streams p) := by
  rcases getOrCreateDynamicStream_some hget with ⟨rfl, hfind⟩ | ⟨rfl, hn, w, rfl⟩
  · exact ⟨rfl, rfl, hknown p hfind⟩
  · refine ⟨rfl, rfl, ?_⟩
    rw [show (((s.admitId id).noteCreated id).activateStream id w).streams s.numStreams =
      s.config.newStream id false w from Function.update_self ..]
    exact hnew hn w

end Session

/-- A reset that fits is in the windows of the stream that it is for. -/
theorem Session.ResetFits.of_some (h : s.ResetFits id n) (hF : Formed s) (hroom : s.Roomy)
    (hget : s.getOrCreateDynamicStream id = (some p, u)) :
    u.connected = s.connected ∧ InWindows u p n ∧
      Below (u.streams p).flowController.receiveWindowOffset ∧
      Below u.flowController.receiveWindowOffset := by
  obtain ⟨hc, hflow, hin, hwindow⟩ := found_of_some
    (B := fun st => (n ≤ st.flowController.receiveWindowOffset ∧
        (st.isStatic = false → s.flowController.highestReceivedByteOffset +
          (n - st.flowController.highestReceivedByteOffset) ≤
            s.flowController.receiveWindowOffset)) ∧
      Below st.flowController.receiveWindowOffset) hget
    (fun p hp => ⟨h.1 p hp, hroom.2 p (hF.lt _ (mem_of_findDynamic hp))⟩)
    fun hn w => by
      obtain ⟨hle, hle'⟩ := h.2 hn.find hn.not_closed hn.incoming
      exact ⟨⟨hle, fun _ => hle'⟩, s.config.below_initial⟩
  unfold InWindows
  rw [hflow]
  exact ⟨hc, hin, hwindow, hroom.1⟩

/-- The conditions hold after a look-up that finds no stream. -/
theorem Settles.of_none (h : Settles s id n) (hu : s.getOrCreateDynamicStream id = (none, u))
    (hc : u.connected = true) : Settles u id n := by
  obtain ⟨hflow, hlc⟩ := Session.getOrCreateDynamicStream_none hu hc
  unfold Settles
  rw [hflow, hlc]
  exact h

/-! ## Frames -/

/-- **A reset of the peer** raises the offset of its stream, in the windows. -/
theorem Tally.peerReset (h : Tally s₀ s) (hF : Formed s) (hd : s.isDynamic p = true)
    (hin : InWindows s p n) (hwindow : Below (s.streams p).flowController.receiveWindowOffset)
    (hroom : Below s.flowController.receiveWindowOffset) :
    Tally s₀ ((s.modify p fun st =>
      { st with rstReceived := true }).maybeIncreaseHighestReceivedOffset p n) := by
  let u : Session := s.modify p fun st => { st with rstReceived := true }
  have hself : u.streams p = { s.streams p with rstReceived := true } :=
    Session.streams_modify_self
  have hu : Tally s₀ u := h.modify ⟨rfl, rfl, rfl, rfl⟩
  have hFu : Formed u := indifferent_formed.modify hF ⟨rfl, rfl, rfl, fun h => h, fun h => h, rfl⟩
  unfold Session.maybeIncreaseHighestReceivedOffset
  split_ifs with hle
  · exact hu
  · refine hu.raise hFu (fun _ => hd) (Nat.lt_of_not_le hle) ?_
      ((Nat.add_le_add_right hin.1 _).trans_lt hwindow) hroom
    unfold InWindows
    rw [hself]
    exact hin

theorem Formed.peerReset (h : Formed s) :
    Formed ((s.modify p fun st =>
      { st with rstReceived := true }).maybeIncreaseHighestReceivedOffset p n) := by
  have hu : Formed (s.modify p fun st => { st with rstReceived := true }) :=
    indifferent_formed.modify h ⟨rfl, rfl, rfl, fun h => h, fun h => h, rfl⟩
  unfold Session.maybeIncreaseHighestReceivedOffset
  split_ifs
  · exact hu
  · exact indifferent_formed.increaseHighestReceivedOffset hu

namespace WhileOpen

/-- The final offset of a closed stream. -/
theorem final (h : WhileOpen (Tally s₀) s) (hn : n < 2 ^ 64)
    (hS : s.connected = true → Settled s id ∨ Settles s id n) :
    WhileOpen (Tally s₀) (s.onFinalByteOffsetReceived id n) := by
  refine onFinalByteOffsetReceived h.1 hn hS (fun _ => h.2) fun recorded _ _ hroom hc hin => ?_
  have hT := h.2 hc
  exact hT.settle (hin hT.received.session.highest_le) hroom

/-- **A header block** for an open stream. -/
theorem headerBlock {fin : Bool} {headers : List Header} (h : WhileOpen (Tally s₀) s)
    (hc : s.connected = true) (hp : p < s.numStreams) :
    WhileOpen (Tally s₀) (s.streamOnStreamHeaderList p fin headers r) := by
  have T := taking_tally s₀
  have U := T.toKeeps.unwritten
  have hreset : WhileOpen (Tally s₀) (if headers.isEmpty then s.reset p else s) ∧
      (if headers.isEmpty then s.reset p else s).connected = true ∧
      p < (if headers.isEmpty then s.reset p else s).numStreams := by
    split_ifs
    · exact ⟨U.resetStream h fun _ => trivial, Session.connected_reset.trans hc,
        ((indifferent_unsent s).reset (Unsent.refl s)).numStreams ▸ hp⟩
    · exact ⟨h, hc, hp⟩
  unfold Session.streamOnStreamHeaderList
  dsimp only
  generalize (if headers.isEmpty then s.reset p else s) = t at hreset ⊢
  obtain ⟨ht, hct, hpt⟩ := hreset
  split_ifs
  · exact ht
  · refine T.onInitialHeadersComplete (T.noteFin (U.mark ht ?_)) hct hpt
      (fun _ _ _ _ _ _ => trivial) fun _ _ => trivial
    exact ⟨rfl, rfl, rfl, rfl, rfl, rfl, rfl, rfl, rfl, rfl, fun h => h⟩
  · refine T.onTrailingHeadersComplete ht.1 hct hpt fun _ _ _ =>
      ⟨T.noteFin (U.mark ht ?_), fun _ _ _ _ => trivial, trivial⟩
    exact ⟨rfl, rfl, rfl, rfl, rfl, rfl, rfl, rfl, rfl, rfl, fun h => h⟩

/-- **A data frame.** -/
theorem streamFrame (h : WhileOpen (Tally s₀) s) (hc : s.connected = true) (hroom : s.Roomy)
    (hx : s.keepsTo (.streamFrame m r)) : WhileOpen (Tally s₀) (s.onStreamFrame m r) := by
  obtain ⟨hsum, hoff, hfinal⟩ := hx
  have T := taking_tally s₀
  unfold Session.onStreamFrame
  by_cases hforeign : (s.isServer && !s.tables.isIncomingStream m.streamId) = true
  · rw [if_pos hforeign]
    exact .closeConnection h.1
  rw [if_neg hforeign]
  obtain ⟨hQ, hopen⟩ := Framed.getOrCreateStream (Q := WhileOpen (Tally s₀)) (s := s)
    (fun _ : isStaticId m.streamId = true => h) (h.getOrCreateDynamicStream hc)
  cases hget : s.getOrCreateStream m.streamId with
  | mk o u =>
    rw [hget] at hQ hopen
    cases o with
    | none =>
      have hnone := Session.getOrCreateStream_none hget
      dsimp only
      split_ifs with hfin
      · exact hQ.final wrapAdd_lt fun hu => .inr ((hfinal hfin).of_none hnone hu)
      · exact hQ
    | some p =>
      have hp : p < u.numStreams := hQ.1.lt_of_isOpen (hopen p rfl)
      dsimp only
      rcases Session.getOrCreateStream_some hget with ⟨rfl, hlook⟩ | ⟨rfl, -, w, rfl⟩
      · exact T.frame (T.noteFin hQ) hc hp (fun _ => ⟨hsum, hroom.2 p hp, hroom.1⟩)
          (fun hfin h0 => hoff hfin h0 p hlook) (fun _ _ _ _ _ => trivial) trivial
      · have hnew : (((s.admitId m.streamId).noteCreated m.streamId).activateStream m.streamId
            w).streams s.numStreams = s.config.newStream m.streamId false w :=
          Function.update_self ..
        refine T.frame (T.noteFin hQ) hc hp (fun _ => ⟨hsum, ?_, hroom.1⟩) (fun _ _ => .inl ?_)
          (fun _ _ _ _ _ => trivial) trivial
        · rw [hnew]
          exact s.config.below_initial
        · rw [hnew]
          rfl

/-- **A reset of the peer.** -/
theorem rstStream {f : RstStreamFrame} (h : WhileOpen (Tally s₀) s) (hc : s.connected = true)
    (hroom : s.Roomy) (hx : s.keepsTo (.rstStream f)) : WhileOpen (Tally s₀) (s.onRstStream f) := by
  obtain ⟨hfits, hfinal⟩ := hx
  have T := taking_tally s₀
  unfold Session.onRstStream
  by_cases hstatic : isStaticId f.streamId = true
  · rw [if_pos hstatic]
    exact .closeConnection h.1
  rw [if_neg hstatic]
  have hQ : WhileOpen (Tally s₀) (s.getOrCreateDynamicStream f.streamId).2 :=
    h.getOrCreateDynamicStream hc
  cases hget : s.getOrCreateDynamicStream f.streamId with
  | mk o u =>
    rw [hget] at hQ
    cases o with
    | none =>
      dsimp only
      split_ifs
      · exact hQ.final f.byteOffset.toNat_lt fun hu => .inr (hfinal.of_none hget hu)
      · exact hQ
    | some p =>
      have hmem := mem_of_getOrCreateDynamicStream (congrArg Prod.fst hget)
      rw [hget] at hmem
      obtain ⟨hu, hin, hwindow, hroom'⟩ := hfits.of_some h.1 hroom hget
      exact T.onStreamReset ⟨hQ.1.peerReset, fun _ => (hQ.2 (hu.trans hc)).peerReset hQ.1
        (decide_eq_true (List.mem_map.2 ⟨_, hmem, rfl⟩)) hin hwindow hroom'⟩

/-- **One frame of the peer.** -/
theorem frame_step {op : Op} (h : WhileOpen (Tally s₀) s) (hc : s.connected = true)
    (hroom : s.Roomy) (hx : s.keepsTo op) (hop : op.isFrame = true) (ht : s.apply op = some t) :
    WhileOpen (Tally s₀) t := by
  have U := (keeps_tally s₀).unwritten
  cases Op.frame_of_isFrame hop with
  | streamFrame m r => exact Option.some.inj ht ▸ h.streamFrame hc hroom hx
  | rstStream m => exact Option.some.inj ht ▸ h.rstStream hc hroom hx
  | windowUpdate id offset as =>
    obtain rfl := Option.some.inj ht
    unfold Session.onWindowUpdateFrame
    split_ifs
    · exact U.sending (b := s.sentTooMuch) h
    · obtain ⟨hQ, -⟩ := Framed.getOrCreateStream (Q := WhileOpen (Tally s₀)) (s := s)
        (fun _ : isStaticId id = true => h) (h.getOrCreateDynamicStream hc)
      generalize s.getOrCreateStream id = x at hQ ⊢
      obtain ⟨_ | p, u⟩ := x
      · exact hQ
      · exact U.streamOnWindowUpdateFrame (fun h => h.1) hQ
  | headerList id fin headers r =>
    obtain rfl := Option.some.inj ht
    have hQ : WhileOpen (Tally s₀) (s.getOrCreateDynamicStream id).2 :=
      h.getOrCreateDynamicStream hc
    unfold Session.onStreamHeaderList
    cases hget : s.getOrCreateDynamicStream id with
    | mk o u =>
      rw [hget] at hQ
      cases o with
      | none =>
        refine hQ.onTrailersOfClosed (O := fun _ => True)
          (fun {_ offset} h _ hS => h.final offset.toNat_lt hS) (fun _ _ _ _ => trivial)
          fun hu => .inr fun y hy offset ho => (hx y hy offset ho).of_none hget hu
      | some p =>
        have hopen := isOpen_of_getOrCreateDynamicStream (congrArg Prod.fst hget)
        rw [hget] at hopen
        refine hQ.headerBlock ?_ (hQ.1.lt_of_isOpen hopen)
        rcases Session.getOrCreateDynamicStream_some hget with ⟨rfl, -⟩ | ⟨-, -, w, rfl⟩
        · exact hc
        · exact hc
  | goaway =>
    obtain rfl := Option.some.inj ht
    exact ⟨h.1.goaway, fun hc =>
      (h.2 hc).congr (fun _ => Stream.SameReceived.refl _) rfl rfl rfl rfl⟩

theorem createOutgoingDynamicStream (h : WhileOpen (Tally s₀) s) :
    WhileOpen (Tally s₀) s.createOutgoingDynamicStream := by
  refine ⟨h.1.createOutgoingDynamicStream, fun hc => (h.2 ?_).createOutgoingDynamicStream⟩
  unfold Session.createOutgoingDynamicStream at hc
  split_ifs at hc
  · exact hc
  · exact hc

/-- **One step.** -/
theorem step {op : Op} {e : Environment} (h : WhileOpen (Tally s₀) s) (hroom : s.Roomy)
    (hx : s.keepsTo op) (ht : s.step (op, e) = some t) : WhileOpen (Tally s₀) t := by
  obtain ⟨hconn, ht⟩ := Session.step_eq_some ht
  have harrive : WhileOpen (Tally s₀) (s.arrive op e) := ⟨h.1.arrive, fun hc =>
    (h.2 hc).congr (fun _ => Stream.SameReceived.refl _) rfl rfl rfl rfl⟩
  by_cases hop : op.isFrame = true
  · exact harrive.frame_step (hconn hop) hroom (by rwa [Session.keepsTo_arrive]) hop ht
  · exact (keeps_tally s₀).unwritten.local_step (fun h => h.1)
      (fun h => h.createOutgoingDynamicStream) (Bool.eq_false_iff.2 hop) (fun _ _ _ => trivial)
      harrive ht

end WhileOpen

/-! ## Runs -/

/-- **The limits of flow control**: of what was received no more was consumed, and no more
was received than the window allows. -/
def ReceiveController.InLimits (c : ReceiveController) : Prop :=
  c.bytesConsumed ≤ c.highestReceivedByteOffset ∧
    c.highestReceivedByteOffset ≤ c.receiveWindowOffset

/-- The limits hold for the session and for every open stream. -/
def Limited (s : Session) : Prop :=
  s.flowController.InLimits ∧ ∀ p, s.isOpen p = true → (s.streams p).flowController.InLimits

/-- What was consumed is not taken back. -/
def Advances (s t : Session) : Prop :=
  s.flowController.bytesConsumed ≤ t.flowController.bytesConsumed ∧
    ∀ p, s.isOpen p = true →
      (s.streams p).flowController.bytesConsumed ≤ (t.streams p).flowController.bytesConsumed

theorem Received.new (c : Config) (e : Environment) : Received (Session.new c e) where
  stream := fun _ => Stream.Intact.newStream ..
  session := ReceiveController.Sound.new c.session_le le_rfl
  numbered := fun _ hx => absurd hx List.not_mem_nil
  closed := fun _ hs => absurd hs.symm Bool.false_ne_true
  total := by
    show 0 + ∑ p ∈ Finset.range 2, (Session.new c e).pending p = 0
    rfl

theorem Received.limited (h : Received s) : Limited s :=
  ⟨⟨h.session.consumed_le, h.session.highest_le⟩,
    fun p _ => ⟨(h.stream p).sound.consumed_le, (h.stream p).sound.highest_le⟩⟩

/-- **The limits of flow control are kept.**  In every run whose frames keep to `keepsTo`,
while no window comes close to the largest offset, the limits hold in every state in which
the connection is open, and what was consumed is never taken back. -/
theorem always_within_limits (c : Config) (e : Environment) (xs : List (Op × Environment))
    (hxs : EachStep Session.step (fun s x => s.Roomy ∧ s.keepsTo x.1) (Session.new c e) xs) :
    Always Session.step (fun s => s.connected = true → Limited s) (Session.new c e) xs ∧
      ∀ pre mid s t, pre ++ mid <+: xs → run Session.step (Session.new c e) pre = some s →
        run Session.step s mid = some t → t.connected = true → Advances s t := by
  have hall : Always Session.step (WhileOpen (Tally (Session.new c e))) (Session.new c e) xs :=
    always_of_eachStep (fun s x t h hx ht => h.step hx.1 hx.2 ht)
      ⟨Formed.new c e, fun _ => (Received.new c e).tally⟩ hxs
  refine ⟨hall.mono fun s h hc => (h.2 hc).received.limited, fun pre mid s t hpre hs ht hc => ?_⟩
  have hP := hall pre s ((List.prefix_append pre mid).trans hpre) hs
  -- From here on what has been consumed is compared with `s`.
  have hend : WhileOpen (Tally s) t :=
    (always_of_eachStep (fun s x t h hx ht => h.step hx.1 hx.2 ht)
      ⟨hP.1, fun hc => (hP.2 hc).received.tally⟩ (hxs.suffix hpre hs)).last ht
  have hsince := (hend.2 hc).since
  exact ⟨hsince.session, fun p hp => (hsince.stream p (hP.1.lt_of_isOpen hp)).consumed⟩

/-- Data is received and read, and then the stream is reset. -/
theorem within_limits_of_reset :
    let xs := [(Op.headerList 5 false [.plain] ⟨0, false⟩, (⟨1, 1⟩ : Environment)),
      (.consumeHeaderList 2 ⟨0, false⟩, ⟨2, 1⟩),
      (.streamFrame ⟨5, false, 0, 100⟩ ⟨40, false⟩, ⟨3, 1⟩), (.rstStream ⟨5, false, 200⟩, ⟨4, 1⟩)]
    Always Session.step (fun s => s.connected = true → Limited s)
        (Session.new (.tool .server) ⟨0, 1⟩) xs ∧
      (run Session.step (Session.new (.tool .server) ⟨0, 1⟩) xs).map
        (fun s => (s.connected, s.flowController.bytesConsumed)) = some (true, 200) :=
  ⟨(always_within_limits (.tool .server) ⟨0, 1⟩ _ (by decide)).1, by decide⟩

/-- **A reset beyond the window** is taken if it carries no error, and the connection stays
open. -/
theorem exists_reset_beyond_window : ∃ s,
    run Session.step (Session.new (.tool .server) ⟨0, 1⟩)
      [(.rstStream ⟨5, true, 2000000⟩, ⟨1, 1⟩)] = some s ∧ s.connected = true ∧ ¬ Limited s :=
  ⟨_, rfl, rfl, fun h => absurd h.1.2 (by decide)⟩

/-- With an error the program ends. -/
example : run Session.step (Session.new (.tool .server) ⟨0, 1⟩)
    [(.rstStream ⟨5, false, 2000000⟩, ⟨1, 1⟩)] = none := by decide

end Streams
end QuicNs3
