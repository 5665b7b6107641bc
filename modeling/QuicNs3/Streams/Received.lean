/-
# What a session has received

`Received` is the invariant of an open connection: the controller and the sequencer of
every stream agree, and what the session has received and not consumed is the sum of what
its dynamic streams have.  `Tally` adds that nothing is taken back since an earlier state.

`Keeps A Q` is what such an invariant `Q` has to be kept by.  It is as `Unwritten`, but for
an invariant of open connections only, so that nothing need be shown where the connection
goes down; `keeps_tally` shows it for `Tally`.
-/

import Mathlib.Algebra.Order.BigOperators.Group.Finset
import QuicNs3.Streams.Windows

namespace QuicNs3
namespace Streams

open Lib

variable {A : Stream → Prop} {Q : Session → Prop} {s s₀ t : Session} {st : Stream} {p q id n : ℕ}
  {f : Stream → Stream}

/-! ## Invariants of an open connection -/

/-- The invariant holds as long as the connection is open. -/
def WhileOpen (Q : Session → Prop) (s : Session) : Prop := Formed s ∧ (s.connected = true → Q s)

/-- **What an invariant of an open connection has to be kept by.** -/
structure Keeps (A : Stream → Prop) (Q : Session → Prop) : Prop where
  mark : ∀ {s p f}, Formed s → Q s → Marks (s.streams p) (f (s.streams p)) → Q (s.modify p f)
  closeWrite : ∀ {s p}, Formed s → Q s →
    Q (s.modify p fun st => { st with writeSideClosed := true })
  closeRead : ∀ {s p}, Formed s → Q s →
    (s.streams p).sequencer.isClosed = true ∨ (s.streams p).rstReceived = true →
    Q (s.modify p Stream.closeRead)
  close : ∀ {s p}, Formed s → Q s → (s.streams p).readSideClosed = true →
    (s.streams p).writeSideClosed = true → Q (s.closeStreamInner (s.streams p).id false)
  reset : ∀ {s p}, Formed s → Q s →
    ((s.streams p).hasFinalReceivedByteOffset = true → A (s.streams p)) →
    Q (s.closeStreamInner (s.streams p).id true)
  read : ∀ {s p n}, Formed s → Q s → n ≤ (s.streams p).sequencer.buffer.readableBytes →
    Q ((s.modify p fun st => st.withBuffer (st.sequencer.buffer.markConsumed n)).addBytesConsumed
      p n)
  flush : ∀ {s p}, Formed s → Q s →
    Q ((s.modify p fun st =>
      st.withBuffer st.sequencer.buffer.flushBufferedFrames.2).addBytesConsumed p
        (s.streams p).sequencer.buffer.flushBufferedFrames.1)
  release : ∀ {s p}, Formed s → Q s →
    Q (s.modify p fun st => { st with sequencer := st.sequencer.releaseBuffer })
  outgoing : ∀ {s : Session} {p : ℕ} {f : Outgoing → Outgoing}, Formed s → Q s →
    Q (s.modifyOutgoing p f)
  finSent : ∀ {s p}, Formed s → Q s → Q (s.modify p fun st => { st with finSent := true })
  sending : ∀ {s c b}, Q s → Q { s with sendController := c, sentTooMuch := b }
  drain : ∀ {s id}, Q s → id ∈ s.tables.dynamicIds →
    Q { s with tables := s.tables.streamDraining id }
  abort : ∀ {s}, Q s → Q s.abort

theorem Keeps.unwritten (K : Keeps A Q) : Unwritten A (WhileOpen Q) where
  mark := fun h hf => ⟨unwritten_formed.mark h.1 hf, fun hc => K.mark h.1 (h.2 hc) hf⟩
  closeWrite := fun h => ⟨unwritten_formed.closeWrite h.1, fun hc => K.closeWrite h.1 (h.2 hc)⟩
  closeRead := by
    intro s p h he
    refine ⟨unwritten_formed.closeRead h.1 he, fun hc => K.closeRead h.1 (h.2 hc) ?_⟩
    rcases he with he | he | he
    · exact .inl he
    · exact .inr he
    · exact absurd (he.symm.trans hc) (by decide)
  close := fun h hr hw => ⟨unwritten_formed.close h.1 hr hw, fun hc =>
    K.close h.1 (h.2 (Session.connected_closeStreamInner.symm.trans hc)) hr hw⟩
  goDown := fun h hd => ⟨unwritten_formed.goDown h.1 hd, fun hc => by
    rw [Session.connected_closeStreamInner, hd] at hc
    exact absurd hc (by decide)⟩
  reset := fun h hA => ⟨unwritten_formed.reset h.1 fun _ => trivial, fun hc =>
    K.reset h.1 (h.2 (Session.connected_closeStreamInner.symm.trans hc)) hA⟩
  disconnect := fun h => ⟨unwritten_formed.disconnect h.1, fun hc => absurd hc Bool.false_ne_true⟩
  read := by
    intro s p n h hn
    refine ⟨unwritten_formed.read h.1 hn, fun hc => K.read h.1 (h.2 ?_) hn⟩
    rwa [Session.connected_addBytesConsumed] at hc
  flush := by
    intro s p h
    refine ⟨unwritten_formed.flush h.1, fun hc => K.flush h.1 (h.2 ?_)⟩
    rwa [Session.connected_addBytesConsumed] at hc
  release := fun h => ⟨unwritten_formed.release h.1, fun hc => K.release h.1 (h.2 hc)⟩
  outgoing := fun h hf => ⟨unwritten_formed.outgoing h.1 hf, fun hc => K.outgoing h.1 (h.2 hc)⟩
  finSent := fun h hs => ⟨unwritten_formed.finSent h.1 hs, fun hc => K.finSent h.1 (h.2 hc)⟩
  sending := fun h => ⟨unwritten_formed.sending h.1, fun hc => K.sending (h.2 hc)⟩
  drain := fun h hid => ⟨unwritten_formed.drain h.1 hid, fun hc => K.drain (h.2 hc) hid⟩
  abort := fun h => ⟨unwritten_formed.abort h.1, fun hc => K.abort (h.2 hc)⟩

/-! ## The invariant -/

namespace Stream

/-- A stream has another controller. -/
def withController (st : Stream) (c : ReceiveController) : Stream := { st with flowController := c }

/-- What a stream has received and not consumed. -/
def unconsumed (st : Stream) : ℕ :=
  st.flowController.highestReceivedByteOffset - st.flowController.bytesConsumed

/-- **A stream whose controller and sequencer agree.**  What was read was consumed while the
stream is read, and nothing is buffered once it no longer is. -/
structure Intact (st : Stream) : Prop where
  sound : st.flowController.Sound
  arranged : st.sequencer.buffer.Arranged st.flowController.highestReceivedByteOffset
  reading : st.readSideClosed = false →
    st.sequencer.buffer.totalBytesRead = st.flowController.bytesConsumed
  cleared : st.readSideClosed = true →
    st.sequencer.buffer.gaps = [(st.sequencer.buffer.totalBytesRead, kMaxOffset)]

/-- Nothing that was received, consumed or read is taken back. -/
structure Forward (a b : Stream) : Prop where
  highest : a.flowController.highestReceivedByteOffset ≤ b.flowController.highestReceivedByteOffset
  consumed : a.flowController.bytesConsumed ≤ b.flowController.bytesConsumed
  read : a.sequencer.buffer.totalBytesRead ≤ b.sequencer.buffer.totalBytesRead

theorem Forward.refl (a : Stream) : Forward a a := ⟨le_rfl, le_rfl, le_rfl⟩

theorem Forward.trans {a b c : Stream} (h : Forward a b) (h' : Forward b c) : Forward a c :=
  ⟨h.highest.trans h'.highest, h.consumed.trans h'.consumed, h.read.trans h'.read⟩

/-- What receiving looks at. -/
structure SameReceived (a b : Stream) : Prop where
  isStatic : b.isStatic = a.isStatic
  flowController : b.flowController = a.flowController
  buffer : b.sequencer.buffer = a.sequencer.buffer
  readSideClosed : b.readSideClosed = a.readSideClosed

theorem SameReceived.refl (a : Stream) : SameReceived a a := ⟨rfl, rfl, rfl, rfl⟩

theorem SameReceived.intact {a b : Stream} (h : SameReceived a b) (ha : a.Intact) : b.Intact where
  sound := h.flowController ▸ ha.sound
  arranged := by
    rw [h.flowController, h.buffer]
    exact ha.arranged
  reading := by
    rw [h.flowController, h.buffer, h.readSideClosed]
    exact ha.reading
  cleared := by
    rw [h.buffer, h.readSideClosed]
    exact ha.cleared

theorem SameReceived.forward {a b : Stream} (h : SameReceived a b) : Forward a b :=
  ⟨by rw [h.flowController], by rw [h.flowController], by rw [h.buffer]⟩

/-- A buffer that is released holds nothing. -/
theorem Intact.release (h : st.Intact) :
    Intact { st with sequencer := st.sequencer.releaseBuffer } where
  sound := h.sound
  arranged := h.arranged.clear
  reading := h.reading
  cleared := fun _ => rfl

theorem Intact.closeRead (h : st.Intact) : st.closeRead.Intact where
  sound := h.sound
  arranged := h.arranged.clear
  reading := fun hr => absurd hr.symm Bool.false_ne_true
  cleared := fun _ => rfl

/-- What has been read is a 64-bit offset. -/
theorem Intact.totalBytesRead_lt (h : st.Intact) : st.sequencer.buffer.totalBytesRead < 2 ^ 64 :=
  h.arranged.totalBytesRead_le.trans_lt (h.arranged.lt.trans SequencerBuffer.kMaxOffset_lt)

/-- Nothing can be read of a stream whose read side is closed. -/
theorem Intact.readableBytes_eq_zero (h : st.Intact) (hr : st.readSideClosed = true) :
    st.sequencer.buffer.readableBytes = 0 := by
  unfold SequencerBuffer.readableBytes
  rw [h.cleared hr, List.headD_cons, wrapSub_eq le_rfl h.totalBytesRead_lt, Nat.sub_self]

/-- Nor can anything be flushed. -/
theorem Intact.flush_eq_zero (h : st.Intact) (hr : st.readSideClosed = true) :
    st.sequencer.buffer.flushBufferedFrames.1 = 0 := by
  unfold SequencerBuffer.flushBufferedFrames
  dsimp only
  rw [h.cleared hr, List.getLastD_cons, List.getLastD_nil, wrapSub_eq le_rfl h.totalBytesRead_lt,
    Nat.sub_self]

end Stream

/-- What a stream adds to what the session has received and not consumed. -/
def Session.pending (s : Session) (p : ℕ) : ℕ :=
  if s.isDynamic p then (s.streams p).unconsumed else 0

/-- **What an open connection has received.** -/
structure Received (s : Session) : Prop where
  stream : ∀ p, (s.streams p).Intact
  session : s.flowController.Sound
  /-- The streams of the session itself are numbered in order. -/
  numbered : ∀ x ∈ s.tables.dynamicIds, x % 2 = s.tables.nextOutgoingStreamId % 2 →
    x < s.tables.nextOutgoingStreamId
  closed : ∀ p, (s.streams p).isStatic = false → s.isDynamic p = false →
    (s.streams p).readSideClosed = true
  total : s.flowController.bytesConsumed + ∑ p ∈ Finset.range s.numStreams, s.pending p =
    s.flowController.highestReceivedByteOffset

/-- Nothing is taken back since `s₀`. -/
structure Since (s₀ s : Session) : Prop where
  numStreams : s₀.numStreams ≤ s.numStreams
  session : s₀.flowController.bytesConsumed ≤ s.flowController.bytesConsumed
  stream : ∀ p < s₀.numStreams, (s₀.streams p).Forward (s.streams p)

theorem Since.refl (s : Session) : Since s s := ⟨le_rfl, le_rfl, fun _ _ => Stream.Forward.refl _⟩

/-- What has been received, and that nothing was taken back since `s₀`. -/
structure Tally (s₀ s : Session) : Prop where
  received : Received s
  since : Since s₀ s

theorem Received.tally (h : Received s) : Tally s s := ⟨h, Since.refl s⟩

/-- A stream that is not dynamic adds nothing. -/
theorem Session.pending_of_not_isDynamic (h : s.isDynamic p = false) : s.pending p = 0 := by
  unfold pending
  rw [h]
  rfl

theorem Session.isDynamic_congr (h : t.tables.dynamicStreams = s.tables.dynamicStreams) (q : ℕ) :
    t.isDynamic q = s.isDynamic q := by
  unfold isDynamic
  rw [h]

/-- What one stream adds is part of the sum. -/
theorem Received.pending_le (h : Received s) (hF : Formed s) (p : ℕ) :
    s.flowController.bytesConsumed + s.pending p ≤ s.flowController.highestReceivedByteOffset := by
  have htotal := h.total
  cases hd : s.isDynamic p with
  | false =>
    rw [Session.pending_of_not_isDynamic hd]
    have := h.session.consumed_le
    omega
  | true =>
    obtain ⟨e, he, rfl⟩ := List.mem_map.1 (of_decide_eq_true hd)
    have := Finset.single_le_sum (f := s.pending) (fun _ _ => Nat.zero_le _)
      (Finset.mem_range.2 (hF.lt e he))
    omega

/-- A stream that is not static and is still read is dynamic, so its bytes are in the sum. -/
theorem Received.isDynamic_of_reading (h : Received s) (hs : (s.streams p).isStatic = false)
    (hr : (s.streams p).readSideClosed = false) : s.isDynamic p = true := by
  by_contra hd
  exact absurd ((h.closed p hs (Bool.eq_false_iff.2 hd)).symm.trans hr) (by decide)

/-- The session has room for what a stream that is read has room for. -/
theorem Received.room_of_reading (h : Received s) (hF : Formed s)
    (hs : (s.streams p).isStatic = false) (hr : (s.streams p).readSideClosed = false)
    (hn : (s.streams p).flowController.bytesConsumed + n ≤
      (s.streams p).flowController.highestReceivedByteOffset) :
    s.flowController.bytesConsumed + n ≤ s.flowController.highestReceivedByteOffset := by
  have hpending := h.pending_le hF p
  unfold Session.pending at hpending
  rw [if_pos (h.isDynamic_of_reading hs hr)] at hpending
  unfold Stream.unconsumed at hpending
  omega

theorem Received.numbered_congr (h : Received s)
    (hdyn : t.tables.dynamicStreams = s.tables.dynamicStreams)
    (hnext : t.tables.nextOutgoingStreamId = s.tables.nextOutgoingStreamId) :
    ∀ x ∈ t.tables.dynamicIds, x % 2 = t.tables.nextOutgoingStreamId % 2 →
      x < t.tables.nextOutgoingStreamId := by
  unfold Tables.dynamicIds
  rw [hdyn, hnext]
  exact h.numbered

namespace Tally

/-- Nothing changes that receiving looks at. -/
theorem congr (h : Tally s₀ s) (hst : ∀ q, (s.streams q).SameReceived (t.streams q))
    (hdyn : t.tables.dynamicStreams = s.tables.dynamicStreams)
    (hnext : t.tables.nextOutgoingStreamId = s.tables.nextOutgoingStreamId)
    (hnum : t.numStreams = s.numStreams) (hc : t.flowController = s.flowController) :
    Tally s₀ t := by
  have hpending : ∀ q, t.pending q = s.pending q := by
    intro q
    unfold Session.pending Stream.unconsumed
    rw [Session.isDynamic_congr hdyn, (hst q).flowController]
  refine ⟨⟨fun q => (hst q).intact (h.received.stream q), hc ▸ h.received.session,
    h.received.numbered_congr hdyn hnext, fun q hs hd => ?_, ?_⟩,
    ⟨hnum ▸ h.since.numStreams, hc ▸ h.since.session,
      fun q hq => (h.since.stream q hq).trans (hst q).forward⟩⟩
  · rw [(hst q).readSideClosed]
    exact h.received.closed q ((hst q).isStatic ▸ hs) (Session.isDynamic_congr hdyn q ▸ hd)
  · rw [hc, hnum, Finset.sum_congr rfl fun q _ => hpending q]
    exact h.received.total

/-- **One stream changes**, and the controller of the session with it. -/
theorem update (h : Tally s₀ s) (hF : Formed s)
    (hstreams : t.streams = Function.update s.streams p st)
    (hdyn : t.tables.dynamicStreams = s.tables.dynamicStreams)
    (hnext : t.tables.nextOutgoingStreamId = s.tables.nextOutgoingStreamId)
    (hnum : t.numStreams = s.numStreams) (hst : st.Intact) (hforward : (s.streams p).Forward st)
    (hstatic : st.isStatic = (s.streams p).isStatic)
    (hside : (s.streams p).readSideClosed = true → st.readSideClosed = true)
    (hsound : t.flowController.Sound)
    (hle : s.flowController.bytesConsumed ≤ t.flowController.bytesConsumed)
    (htotal : t.flowController.bytesConsumed + (if s.isDynamic p then st.unconsumed else 0) +
        s.flowController.highestReceivedByteOffset =
      s.flowController.bytesConsumed + s.pending p +
        t.flowController.highestReceivedByteOffset) : Tally s₀ t := by
  have hself : t.streams p = st := by rw [hstreams, Function.update_self]
  have hother : ∀ q, q ≠ p → t.streams q = s.streams q :=
    fun q hq => by rw [hstreams, Function.update_of_ne hq]
  have hpending : t.pending p = if s.isDynamic p then st.unconsumed else 0 := by
    unfold Session.pending
    rw [Session.isDynamic_congr hdyn, hself]
  have hout : s.numStreams ≤ p → t.pending p = s.pending p := by
    intro hp
    have hnot : s.isDynamic p = false := by
      refine Bool.eq_false_iff.2 fun hd => ?_
      obtain ⟨e, he, rfl⟩ := List.mem_map.1 (of_decide_eq_true hd)
      exact absurd (hF.lt e he) (Nat.not_lt.2 hp)
    rw [hpending, Session.pending_of_not_isDynamic hnot, hnot]
    rfl
  have hsum := sum_range_change_of_le (n := s.numStreams) hout fun q hq => by
    show t.pending q = s.pending q
    unfold Session.pending
    rw [Session.isDynamic_congr hdyn, hother q hq]
  refine ⟨⟨fun q => ?_, hsound, h.received.numbered_congr hdyn hnext, fun q hs hd => ?_, ?_⟩,
    ⟨hnum ▸ h.since.numStreams, h.since.session.trans hle, fun q hq => ?_⟩⟩
  · rcases eq_or_ne q p with rfl | hne
    · rw [hself]
      exact hst
    · rw [hother q hne]
      exact h.received.stream q
  · rw [Session.isDynamic_congr hdyn] at hd
    rcases eq_or_ne q p with rfl | hne
    · rw [hself] at hs ⊢
      exact hside (h.received.closed q (hstatic ▸ hs) hd)
    · rw [hother q hne] at hs ⊢
      exact h.received.closed q hs hd
  · have := h.received.total
    rw [hnum]
    omega
  · rcases eq_or_ne q p with rfl | hne
    · rw [hself]
      exact (h.since.stream q hq).trans hforward
    · rw [hother q hne]
      exact h.since.stream q hq

/-- A stream is changed in nothing that receiving looks at. -/
theorem modify (h : Tally s₀ s) (hf : (s.streams p).SameReceived (f (s.streams p))) :
    Tally s₀ (s.modify p f) := by
  refine h.congr (fun q => ?_) rfl rfl rfl rfl
  rcases eq_or_ne q p with rfl | hne
  · rwa [Session.streams_modify_self]
  · rw [Session.streams_modify_of_ne hne]
    exact Stream.SameReceived.refl _

/-- A stream is changed in what receiving looks at, but not in its controller. -/
theorem modify_buffer (h : Tally s₀ s) (hF : Formed s) (hst : (f (s.streams p)).Intact)
    (hc : (f (s.streams p)).flowController = (s.streams p).flowController)
    (hread : (s.streams p).sequencer.buffer.totalBytesRead ≤
      (f (s.streams p)).sequencer.buffer.totalBytesRead)
    (hstatic : (f (s.streams p)).isStatic = (s.streams p).isStatic)
    (hside : (s.streams p).readSideClosed = true → (f (s.streams p)).readSideClosed = true) :
    Tally s₀ (s.modify p f) := by
  refine h.update hF rfl rfl rfl rfl hst ⟨by rw [hc], by rw [hc], hread⟩ hstatic hside
    h.received.session le_rfl ?_
  show _ = s.flowController.bytesConsumed + s.pending p + s.flowController.highestReceivedByteOffset
  unfold Session.pending Stream.unconsumed
  rw [hc]
  rfl

end Tally

/-! ## Consuming -/

/-- **What consuming does**: to the controller of the stream if it is read, and to that of
the session if the stream is not static. -/
theorem addBytesConsumed_spec (hst : (s.streams p).flowController.Sound)
    (hs : s.flowController.Sound)
    (hn : (s.streams p).readSideClosed = false →
      (s.streams p).flowController.bytesConsumed + n ≤
        (s.streams p).flowController.highestReceivedByteOffset)
    (hn' : (s.streams p).isStatic = false →
      s.flowController.bytesConsumed + n ≤ s.flowController.highestReceivedByteOffset) :
    ∃ (c C : ReceiveController) (b : Bool), s.addBytesConsumed p n =
      s.received (Function.update s.streams p ((s.streams p).withController c)) C b ∧
      (c.Sound ∧ c.highestReceivedByteOffset =
          (s.streams p).flowController.highestReceivedByteOffset ∧
        c.bytesConsumed = (s.streams p).flowController.bytesConsumed +
          if (s.streams p).readSideClosed then 0 else n) ∧
      C.Sound ∧ C.highestReceivedByteOffset = s.flowController.highestReceivedByteOffset ∧
        C.bytesConsumed = s.flowController.bytesConsumed +
          if (s.streams p).isStatic then 0 else n := by
  -- The session may have widened its window before it counts the bytes.
  have hsession : ∀ C : ReceiveController, C.Sound →
      ReceiveController.SameOffsets s.flowController C → (s.streams p).isStatic = false →
      (C.addBytesConsumed s.environment n).1.Sound ∧
        (C.addBytesConsumed s.environment n).1.highestReceivedByteOffset =
          s.flowController.highestReceivedByteOffset ∧
        (C.addBytesConsumed s.environment n).1.bytesConsumed =
          s.flowController.bytesConsumed + n := by
    intro C hC hsame hstatic
    have hle := hn' hstatic
    rw [← hsame.bytesConsumed, ← hsame.highest] at hle ⊢
    obtain ⟨h₁, h₂, h₃⟩ := hC.addBytesConsumed (e := s.environment) hle
    exact ⟨h₁, h₃, h₂⟩
  have hstream : (s.streams p).readSideClosed = false → _ := fun hr =>
    hst.addBytesConsumed (e := s.environment) (hn hr)
  have hown : (s.streams p).withController (s.streams p).flowController = s.streams p := rfl
  unfold Session.addBytesConsumed Session.received
  dsimp only
  by_cases hr : (s.streams p).readSideClosed = true
  · simp only [if_pos hr]
    by_cases hstatic : (s.streams p).isStatic = true
    · simp only [if_pos hstatic]
      refine ⟨(s.streams p).flowController, s.flowController, s.aborted, ?_, ⟨hst, rfl, rfl⟩, hs,
        rfl, rfl⟩
      rw [hown, Function.update_eq_self]
    · simp only [if_neg hstatic]
      refine ⟨(s.streams p).flowController, _, s.aborted || !s.flowController.canConsume n, ?_,
        ⟨hst, rfl, rfl⟩, hsession s.flowController hs ⟨rfl, rfl⟩ (Bool.eq_false_iff.2 hstatic)⟩
      rw [hown, Function.update_eq_self]
  · obtain ⟨h₁, h₂, h₃⟩ := hstream (Bool.eq_false_iff.2 hr)
    simp only [if_neg hr]
    generalize ((s.streams p).flowController.addBytesConsumed s.environment n).2 = w
    cases w with
    | none =>
      by_cases hstatic : (s.streams p).isStatic = true
      · simp only [if_pos hstatic]
        exact ⟨_, _, _, rfl, ⟨h₁, h₃, h₂⟩, hs, rfl, rfl⟩
      · simp only [if_neg hstatic]
        exact ⟨_, _, _, rfl, ⟨h₁, h₃, h₂⟩,
          hsession s.flowController hs ⟨rfl, rfl⟩ (Bool.eq_false_iff.2 hstatic)⟩
    | some window =>
      obtain ⟨hw, hsame⟩ := ReceiveController.Sound.ensureWindowAtLeast hs
      by_cases hstatic : (s.streams p).isStatic = true
      · simp only [if_pos hstatic]
        exact ⟨_, _, _, rfl, ⟨h₁, h₃, h₂⟩, hw, hsame.highest, hsame.bytesConsumed⟩
      · simp only [if_neg hstatic]
        exact ⟨_, _, _, rfl, ⟨h₁, h₃, h₂⟩, hsession _ hw hsame (Bool.eq_false_iff.2 hstatic)⟩

namespace Tally

/-- **Reading** from a stream, `n` bytes that were received. -/
theorem consume {b : SequencerBuffer} (h : Tally s₀ s) (hF : Formed s)
    (hb : b.Arranged (s.streams p).flowController.highestReceivedByteOffset)
    (hn : b.totalBytesRead = (s.streams p).sequencer.buffer.totalBytesRead + n)
    (hclosed : (s.streams p).readSideClosed = true →
      n = 0 ∧ b.gaps = [(b.totalBytesRead, kMaxOffset)]) :
    Tally s₀ ((s.modify p fun st => st.withBuffer b).addBytesConsumed p n) := by
  have hst := h.received.stream p
  have hle := hb.totalBytesRead_le
  have hconsumed := hst.sound.consumed_le
  have hself : (s.modify p fun st => st.withBuffer b).streams p = (s.streams p).withBuffer b :=
    Session.streams_modify_self
  have hroom : (s.streams p).readSideClosed = false →
      (s.streams p).flowController.bytesConsumed + n ≤
        (s.streams p).flowController.highestReceivedByteOffset := by
    intro hr
    have := hst.reading hr
    omega
  have hroom' : (s.streams p).isStatic = false →
      s.flowController.bytesConsumed + n ≤ s.flowController.highestReceivedByteOffset := by
    intro hs
    cases hr : (s.streams p).readSideClosed with
    | true =>
      have := (hclosed hr).1
      have := h.received.session.consumed_le
      omega
    | false => exact h.received.room_of_reading hF hs hr (hroom hr)
  obtain ⟨c, C, failed, heq, ⟨hc₁, hc₂, hc₃⟩, hC₁, hC₂, hC₃⟩ := addBytesConsumed_spec
    (s := s.modify p fun st => st.withBuffer b) (p := p) (n := n)
    (by rw [hself]; exact hst.sound) h.received.session (by rw [hself]; exact hroom)
    (by rw [hself]; exact hroom')
  rw [hself] at heq hc₂ hc₃ hC₃
  rw [heq]
  change c.highestReceivedByteOffset = (s.streams p).flowController.highestReceivedByteOffset
    at hc₂
  change c.bytesConsumed = (s.streams p).flowController.bytesConsumed +
    if (s.streams p).readSideClosed then 0 else n at hc₃
  change C.highestReceivedByteOffset = s.flowController.highestReceivedByteOffset at hC₂
  change C.bytesConsumed = s.flowController.bytesConsumed +
    if (s.streams p).isStatic then 0 else n at hC₃
  have hstreams : Function.update (s.modify p fun st => st.withBuffer b).streams p
      (((s.streams p).withBuffer b).withController c) =
      Function.update s.streams p (((s.streams p).withBuffer b).withController c) :=
    Function.update_idem ..
  refine h.update hF hstreams rfl rfl rfl ?_ ⟨hc₂.ge, ?_, ?_⟩ rfl (fun hr => hr) hC₁ ?_ ?_
  · refine ⟨hc₁, ?_, fun hr => ?_, fun hr => (hclosed hr).2⟩
    · show b.Arranged c.highestReceivedByteOffset
      rw [hc₂]
      exact hb
    · show b.totalBytesRead = c.bytesConsumed
      have := hst.reading hr
      rw [hc₃, if_neg (by rw [show (s.streams p).readSideClosed = false from hr]; decide)]
      omega
  · show (s.streams p).flowController.bytesConsumed ≤ c.bytesConsumed
    omega
  · show (s.streams p).sequencer.buffer.totalBytesRead ≤ b.totalBytesRead
    omega
  · show s.flowController.bytesConsumed ≤ C.bytesConsumed
    omega
  · show C.bytesConsumed + (if s.isDynamic p then
        c.highestReceivedByteOffset - c.bytesConsumed else 0) +
          s.flowController.highestReceivedByteOffset =
      s.flowController.bytesConsumed + s.pending p + C.highestReceivedByteOffset
    unfold Session.pending Stream.unconsumed
    rw [hC₂, hC₃, hc₂, hc₃]
    cases hd : s.isDynamic p with
    | true =>
      rw [hF.isStatic_of_isDynamic hd]
      cases hr : (s.streams p).readSideClosed with
      | true =>
        obtain ⟨rfl, -⟩ := hclosed hr
        rfl
      | false =>
        have := hroom hr
        simp only [Bool.false_eq_true, if_false, if_true]
        omega
    | false =>
      cases hs : (s.streams p).isStatic with
      | true => rfl
      | false =>
        obtain ⟨rfl, -⟩ := hclosed (h.received.closed p hs hd)
        rfl

end Tally

/-! ## Closing -/

/-- What `CloseStreamInner` does to the object of the stream. -/
structure Stream.Departs (a b : Stream) : Prop extends Closes a b where
  highest : b.flowController.highestReceivedByteOffset = a.flowController.highestReceivedByteOffset
  consumed : b.flowController.bytesConsumed = a.flowController.bytesConsumed
  totalBytesRead : b.sequencer.buffer.totalBytesRead = a.sequencer.buffer.totalBytesRead
  intact : b.Intact
  closed : b.readSideClosed = true

theorem Stream.Departs.forward {a b : Stream} (h : a.Departs b) : a.Forward b :=
  ⟨h.highest.ge, h.consumed.ge, h.totalBytesRead.ge⟩

/-- **`OnClose`** of a stream that is not static. -/
theorem onClose_spec (hst : (s.streams q).Intact) (hs : s.flowController.Sound)
    (hstatic : (s.streams q).isStatic = false)
    (hroom : s.flowController.bytesConsumed + (s.streams q).unconsumed ≤
      s.flowController.highestReceivedByteOffset) :
    ∃ (st : Stream) (C : ReceiveController) (b : Bool),
      s.onClose q = s.received (Function.update s.streams q st) C b ∧ (s.streams q).Departs st ∧
      C.Sound ∧ C.highestReceivedByteOffset = s.flowController.highestReceivedByteOffset ∧
      C.bytesConsumed = s.flowController.bytesConsumed + (s.streams q).unconsumed := by
  let f : Stream → Stream := fun st =>
    { st with
      readSideClosed := true
      sequencer := if st.readSideClosed then st.sequencer else st.sequencer.releaseBuffer
      writeSideClosed := true
      rstSent := st.rstSent || !st.finSent ||
        (s.isServer && !st.finReceived && !st.rstReceived && st.sequencer.ignoreReadData) }
  have hself : (s.modify q f).streams q = f (s.streams q) := Session.streams_modify_self
  have hbuffer : (f (s.streams q)).sequencer.buffer = (s.streams q).sequencer.buffer.clear ∧
      (f (s.streams q)).sequencer.closeOffset = (s.streams q).sequencer.closeOffset := by
    dsimp only [f]
    split_ifs with hr
    · refine ⟨?_, rfl⟩
      unfold SequencerBuffer.clear
      rw [← hst.cleared hr]
    · exact ⟨rfl, rfl⟩
  have hsub : wrapSub (s.streams q).flowController.highestReceivedByteOffset
      (s.streams q).flowController.bytesConsumed = (s.streams q).unconsumed := by
    have := hst.sound.lt
    exact wrapSub_eq hst.sound.consumed_le (by omega)
  obtain ⟨c, C, failed, heq, ⟨hc₁, hc₂, hc₃⟩, hC₁, hC₂, hC₃⟩ := addBytesConsumed_spec
    (s := s.modify q f) (p := q) (n := (s.streams q).unconsumed) (by rw [hself]; exact hst.sound) hs
    (by rw [hself]; exact fun hr => absurd hr.symm Bool.false_ne_true) fun _ => hroom
  rw [hself] at heq hc₂ hc₃ hC₃
  have hstatic' : (f (s.streams q)).isStatic = false := hstatic
  rw [hstatic'] at hC₃
  refine ⟨(f (s.streams q)).withController c, C, failed, ?_, ⟨⟨⟨rfl, rfl, rfl, fun _ => rfl,
    fun _ => rfl, rfl⟩, hbuffer.2, rfl, rfl, rfl⟩, hc₂, hc₃, ?_, ⟨hc₁, ?_, ?_, ?_⟩, rfl⟩, hC₁, hC₂,
    hC₃⟩
  · unfold Session.onClose
    dsimp only
    rw [hsub]
    refine heq.trans ?_
    unfold Session.received
    rw [show Function.update (s.modify q f).streams q ((f (s.streams q)).withController c) =
      Function.update s.streams q ((f (s.streams q)).withController c) from Function.update_idem ..]
    rfl
  · show (f (s.streams q)).sequencer.buffer.totalBytesRead = _
    rw [hbuffer.1]
    rfl
  · show (f (s.streams q)).sequencer.buffer.Arranged c.highestReceivedByteOffset
    rw [hbuffer.1, hc₂]
    exact hst.arranged.clear
  · exact fun hr => absurd hr.symm Bool.false_ne_true
  · show _ → (f (s.streams q)).sequencer.buffer.gaps =
      [((f (s.streams q)).sequencer.buffer.totalBytesRead, kMaxOffset)]
    rw [hbuffer.1]
    exact fun _ => rfl

theorem mem_of_findDynamic (h : s.findDynamic id = some q) : (id, q) ∈ s.tables.dynamicStreams := by
  obtain ⟨e, he, rfl⟩ := Option.map_eq_some_iff.1 h
  obtain rfl : e.1 = id := by simpa using List.find?_some he
  exact List.mem_of_find?_eq_some he

theorem isDynamic_of_findDynamic (h : s.findDynamic id = some q) : s.isDynamic q = true :=
  decide_eq_true (List.mem_map.2 ⟨_, mem_of_findDynamic h, rfl⟩)

/-- **Closing a stream**: what it has not consumed is consumed for the session. -/
theorem closeStreamInner_spec {b : Bool} (h : Received s) (hF : Formed s)
    (hq : s.findDynamic id = some q) :
    ∃ (st : Stream) (C : ReceiveController) (failed : Bool), s.closeStreamInner id b =
      { s with
        tables := s.tables.closeStream id
          (if (s.streams q).hasFinalReceivedByteOffset then none
            else some (s.streams q).flowController.highestReceivedByteOffset)
        streams := Function.update s.streams q st
        flowController := C
        aborted := failed } ∧
      (s.streams q).Departs st ∧ C.Sound ∧
      C.highestReceivedByteOffset = s.flowController.highestReceivedByteOffset ∧
      C.bytesConsumed = s.flowController.bytesConsumed + (s.streams q).unconsumed := by
  have hd := isDynamic_of_findDynamic hq
  have hstatic := hF.isStatic_of_isDynamic hd
  have hroom := h.pending_le hF q
  unfold Session.pending at hroom
  rw [if_pos hd] at hroom
  unfold Session.closeStreamInner
  rw [hq]
  dsimp only
  generalize (if (s.streams q).hasFinalReceivedByteOffset = true then none
    else some (s.streams q).flowController.highestReceivedByteOffset) = offset
  cases b with
  | false =>
    exact onClose_spec (s := { s with tables := s.tables.closeStream id offset }) (h.stream q)
      h.session hstatic hroom
  | true =>
    let u : Session := { s with tables := s.tables.closeStream id offset }.modify q
      fun st => { st with rstSent := true }
    have hself : u.streams q = { s.streams q with rstSent := true } := Session.streams_modify_self
    have hsame : (s.streams q).SameReceived (u.streams q) := by
      rw [hself]
      exact ⟨rfl, rfl, rfl, rfl⟩
    obtain ⟨st, C, failed, heq, hst, hC⟩ := onClose_spec (s := u) (q := q)
      (hsame.intact (h.stream q)) h.session (by rw [hself]; exact hstatic)
      (by rw [hself]; exact hroom)
    rw [hself] at hst hC
    refine ⟨st, C, failed, heq.trans ?_, ⟨⟨⟨hst.id, hst.isStatic, hst.outgoing, hst.readSideClosed,
      hst.writeSideClosed, hst.finSent⟩, hst.closeOffset, hst.finReceived, hst.rstReceived,
      hst.headersDecompressed⟩, hst.highest, hst.consumed, hst.totalBytesRead, hst.intact,
      hst.closed⟩, hC⟩
    unfold Session.received
    rw [show Function.update u.streams q st = Function.update s.streams q st from
      Function.update_idem ..]
    rfl

/-- The dynamic streams are the others that were. -/
theorem isDynamic_of_closeStream {o : Option ℕ} (hF : Formed s) (hq : s.findDynamic id = some q)
    (ht : t.tables.dynamicStreams = (s.tables.closeStream id o).dynamicStreams) (x : ℕ) :
    t.isDynamic x = true ↔ s.isDynamic x = true ∧ x ≠ q := by
  have hmem := mem_of_findDynamic hq
  unfold Session.isDynamic
  rw [ht, Tables.dynamicStreams_closeStream, decide_eq_true_iff, decide_eq_true_iff, List.mem_map,
    List.mem_map]
  constructor
  · rintro ⟨e, he, rfl⟩
    obtain ⟨he, hne⟩ := mem_without.1 he
    refine ⟨⟨e, he, rfl⟩, fun hx => hne ?_⟩
    rw [← hF.id_eq e he, hx, hF.id_eq _ hmem]
  · rintro ⟨⟨e, he, rfl⟩, hne⟩
    refine ⟨e, mem_without.2 ⟨he, fun hid => hne ?_⟩, rfl⟩
    have hfind : s.findDynamic id = some e.2 :=
      (valueAt_eq_some_iff hF.nodup).2 (by rw [← hid]; exact he)
    exact Option.some.inj (hfind.symm.trans hq)

/-- **The stream `q` with the id `id` is closed**: what it has not consumed is consumed for
the session. -/
structure Leaves (s t : Session) (id q : ℕ) : Prop where
  stream : (s.streams q).Departs (t.streams q)
  other : ∀ x, x ≠ q → t.streams x = s.streams x
  isDynamic_self : t.isDynamic q = false
  isDynamic : ∀ x, x ≠ q → t.isDynamic x = s.isDynamic x
  tables : t.tables = s.tables.closeStream id
    (if (s.streams q).hasFinalReceivedByteOffset then none
      else some (s.streams q).flowController.highestReceivedByteOffset)
  numStreams : t.numStreams = s.numStreams
  sound : t.flowController.Sound
  highest : t.flowController.highestReceivedByteOffset = s.flowController.highestReceivedByteOffset
  consumed : t.flowController.bytesConsumed =
    s.flowController.bytesConsumed + (s.streams q).unconsumed

theorem leaves_closeStreamInner {b : Bool} (h : Received s) (hF : Formed s)
    (hq : s.findDynamic id = some q) : Leaves s (s.closeStreamInner id b) id q := by
  obtain ⟨st, C, failed, heq, hst, hC₁, hC₂, hC₃⟩ := closeStreamInner_spec (b := b) h hF hq
  have hdyn := isDynamic_of_closeStream (t := s.closeStreamInner id b) hF hq (by rw [heq])
  refine ⟨?_, fun x hx => ?_, ?_, fun x hx => ?_, ?_, ?_, ?_, ?_, ?_⟩
  · rw [heq]
    show (s.streams q).Departs (Function.update s.streams q st q)
    rwa [Function.update_self]
  · rw [heq]
    exact Function.update_of_ne hx ..
  · exact Bool.eq_false_iff.2 fun h => ((hdyn q).1 h).2 rfl
  · exact Bool.eq_iff_iff.2 ((hdyn x).trans (and_iff_left hx))
  · rw [heq]
  · rw [heq]
  · rw [heq]
    exact hC₁
  · rw [heq]
    exact hC₂
  · rw [heq]
    exact hC₃

/-- **Closing a stream** keeps the sum: it no longer adds to it. -/
theorem Tally.closeStreamInner {b : Bool} (h : Tally s₀ s) (hF : Formed s) :
    Tally s₀ (s.closeStreamInner id b) := by
  cases hq : s.findDynamic id with
  | none =>
    unfold Session.closeStreamInner
    rw [hq]
    exact h
  | some q =>
    have L := leaves_closeStreamInner (b := b) h.received hF hq
    generalize s.closeStreamInner id b = t at L ⊢
    have hlt : q < s.numStreams := hF.lt _ (mem_of_findDynamic hq)
    have hsum := sum_range_change (g := t.pending) (f := s.pending) hlt fun x hx => by
        unfold Session.pending
        rw [L.isDynamic x hx, L.other x hx]
    have hgone : t.pending q = 0 := Session.pending_of_not_isDynamic L.isDynamic_self
    have hpending : s.pending q = (s.streams q).unconsumed := if_pos (isDynamic_of_findDynamic hq)
    have hconsumed := L.consumed
    have hhighest := L.highest
    refine ⟨⟨fun x => ?_, L.sound, fun x hx hp => ?_, fun x hs hx => ?_, ?_⟩,
      ⟨L.numStreams ▸ h.since.numStreams, ?_, fun x hx => ?_⟩⟩
    · rcases eq_or_ne x q with rfl | hne
      · exact L.stream.intact
      · rw [L.other x hne]
        exact h.received.stream x
    · rw [L.tables] at hx hp ⊢
      rw [Tables.nextOutgoingStreamId_closeStream] at hp ⊢
      exact h.received.numbered x (Tables.mem_dynamicIds_closeStream.1 hx).1 hp
    · rcases eq_or_ne x q with rfl | hne
      · exact L.stream.closed
      · rw [L.other x hne] at hs ⊢
        exact h.received.closed x hs (L.isDynamic x hne ▸ hx)
    · have := h.received.total
      rw [L.numStreams]
      omega
    · have := h.since.session
      omega
    · rcases eq_or_ne x q with rfl | hne
      · exact (h.since.stream x hx).trans L.stream.forward
      · rw [L.other x hne]
        exact h.since.stream x hx

/-- **Closing, reading and writing keep the tally.** -/
theorem keeps_tally (s₀ : Session) : Keeps (fun _ => True) (Tally s₀) where
  mark := fun _ h hf => h.modify ⟨hf.isStatic, hf.flowController, hf.buffer, hf.readSideClosed⟩
  closeWrite := fun _ h => h.modify ⟨rfl, rfl, rfl, rfl⟩
  closeRead := fun hF h _ => h.modify_buffer hF (h.received.stream _).closeRead rfl le_rfl rfl
    fun _ => rfl
  close := fun hF h _ _ => h.closeStreamInner hF
  reset := fun hF h _ => h.closeStreamInner hF
  read := by
    intro s p n hF h hn
    have hst := h.received.stream p
    obtain ⟨hb, htotal⟩ := hst.arranged.markConsumed hn
    refine h.consume hF hb htotal fun hr => ?_
    obtain rfl : n = 0 := Nat.le_zero.1 (hst.readableBytes_eq_zero hr ▸ hn)
    refine ⟨rfl, ?_⟩
    rw [htotal]
    exact hst.cleared hr
  flush := by
    intro s p hF h
    have hst := h.received.stream p
    obtain ⟨hb, htotal, hgaps⟩ := hst.arranged.flushBufferedFrames
    exact h.consume hF hb htotal fun hr => ⟨hst.flush_eq_zero hr, hgaps⟩
  release := fun hF h => h.modify_buffer hF (h.received.stream _).release rfl le_rfl rfl
    fun hr => hr
  outgoing := fun _ h => h.modify ⟨rfl, rfl, rfl, rfl⟩
  finSent := fun _ h => h.modify ⟨rfl, rfl, rfl, rfl⟩
  sending := fun h => h.congr (fun _ => Stream.SameReceived.refl _) rfl rfl rfl rfl
  drain := by
    intro s id h _
    refine h.congr (fun _ => Stream.SameReceived.refl _) ?_ ?_ rfl rfl
    · unfold Tables.streamDraining
      split_ifs <;> rfl
    · unfold Tables.streamDraining
      split_ifs <;> rfl
  abort := fun h => h.congr (fun _ => Stream.SameReceived.refl _) rfl rfl rfl rfl

end Streams
end QuicNs3
