/-
# The sender keeps within flow control

A write is bounded by the smaller of two windows, that of the stream and that of the
session, and what is consumed of it is counted against both.  `Sent` is the invariant:
each controller has counted no more than it may send, that of a stream exactly the bytes
written on it, and that of the session the sum over all streams that contribute to it,
open or closed.  No write can then be too much (`always_within_window`).
-/

import QuicNs3.Lib.Run
import QuicNs3.Lib.Sums
import QuicNs3.Streams.Making

namespace QuicNs3
namespace Streams

open Lib

variable {n p q : ℕ} {s t : Session} {data : List UInt8} {fin : Bool} {a : Answer}

/-! ## A controller -/

/-- A controller that has not counted more than it may send. -/
structure SendController.Within (c : SendController) : Prop where
  le : c.bytesSent ≤ c.sendWindowOffset
  lt : c.sendWindowOffset < 2 ^ 64

namespace SendController

variable {c : SendController} {bytes offset : ℕ}

theorem bytesSent_maybeSendBlocked : c.maybeSendBlocked.bytesSent = c.bytesSent := by
  unfold maybeSendBlocked
  split_ifs <;> rfl

theorem sendWindowOffset_maybeSendBlocked :
    c.maybeSendBlocked.sendWindowOffset = c.sendWindowOffset := by
  unfold maybeSendBlocked
  split_ifs <;> rfl

theorem Within.maybeSendBlocked (h : c.Within) : c.maybeSendBlocked.Within := by
  refine ⟨?_, ?_⟩
  · rw [bytesSent_maybeSendBlocked, sendWindowOffset_maybeSendBlocked]
    exact h.le
  · rw [sendWindowOffset_maybeSendBlocked]
    exact h.lt

/-- **Bytes that fit into the window** are counted, and are not too many. -/
theorem Within.addBytesSent (h : c.Within) (hb : bytes ≤ c.sendWindowSize) :
    ∃ c', c.addBytesSent bytes = (false, c') ∧ c'.Within ∧ c'.bytesSent = c.bytesSent + bytes := by
  have hle := h.le
  have hlt := h.lt
  unfold sendWindowSize at hb
  rw [if_neg (Nat.not_lt.2 hle)] at hb
  have hsum : wrapAdd c.bytesSent bytes = c.bytesSent + bytes := wrapAdd_eq (by omega)
  unfold SendController.addBytesSent
  rw [hsum, if_neg (by omega)]
  exact ⟨_, rfl, ⟨show c.bytesSent + bytes ≤ c.sendWindowOffset by omega, hlt⟩, rfl⟩

theorem Within.updateSendWindowOffset (h : c.Within) (ho : offset < 2 ^ 64) :
    (c.updateSendWindowOffset offset).2.Within ∧
      (c.updateSendWindowOffset offset).2.bytesSent = c.bytesSent := by
  unfold SendController.updateSendWindowOffset
  split_ifs with hle
  · exact ⟨h, rfl⟩
  · exact ⟨⟨h.le.trans (Nat.le_of_not_le hle), ho⟩, rfl⟩

end SendController

/-! ## The invariant -/

/-- What the bytes written on a stream contribute to the session. -/
def contribution (st : Stream) : ℕ := if st.isStatic then 0 else st.outgoing.streamBytesWritten

/-- **What has been sent**, on the first `n` streams. -/
structure Sent (n : ℕ) (s : Session) : Prop where
  numStreams : s.numStreams = n
  session : s.sendController.Within
  stream : ∀ q, (s.streams q).outgoing.flowController.Within
  written : ∀ q, (s.streams q).outgoing.flowController.bytesSent =
    (s.streams q).outgoing.streamBytesWritten
  total : s.sendController.bytesSent = ∑ q ∈ Finset.range n, contribution (s.streams q)
  sentTooMuch : s.sentTooMuch = false

namespace Sent

/-- Only what is written, and on which kind of stream, matters. -/
theorem congr (h : Sent n s) (ho : ∀ q, (t.streams q).outgoing = (s.streams q).outgoing)
    (hs : ∀ q, (t.streams q).isStatic = (s.streams q).isStatic)
    (hn : t.numStreams = s.numStreams) (hc : t.sendController = s.sendController)
    (hm : t.sentTooMuch = s.sentTooMuch) : Sent n t where
  numStreams := hn.trans h.numStreams
  session := hc ▸ h.session
  stream := fun q => ho q ▸ h.stream q
  written := fun q => ho q ▸ h.written q
  total := by
    rw [hc, h.total]
    refine Finset.sum_congr rfl fun q _ => ?_
    unfold contribution
    rw [ho q, hs q]
  sentTooMuch := hm.trans h.sentTooMuch

theorem unsent (h : Sent n s) (hu : Unsent s t) : Sent n t :=
  h.congr (fun q => (hu.similar q).outgoing) (fun q => (hu.similar q).isStatic) hu.numStreams
    hu.sendController hu.sentTooMuch

end Sent

theorem indifferent_sent : Indifferent (Sent n) where
  change := fun h hg => h.unsent ⟨hg, rfl, rfl, rfl⟩
  close := fun h => h.unsent unsent_closeStreamInner
  disconnect := fun h => h.congr (fun _ => rfl) (fun _ => rfl) rfl rfl rfl
  drain := fun h _ => h.congr (fun _ => rfl) (fun _ => rfl) rfl rfl rfl

namespace Sent

/-- A stream is changed, but neither what is written nor what is counted. -/
theorem modifyOutgoing {f : Outgoing → Outgoing} (h : Sent n s)
    (hw : ∀ o, (f o).streamBytesWritten = o.streamBytesWritten)
    (hc : (f (s.streams p).outgoing).flowController.Within)
    (hb : (f (s.streams p).outgoing).flowController.bytesSent =
      (s.streams p).outgoing.flowController.bytesSent) : Sent n (s.modifyOutgoing p f) := by
  have hself := Session.streams_modifyOutgoing_self (s := s) (p := p) (f := f)
  have hother : ∀ q, q ≠ p → (s.modifyOutgoing p f).streams q = s.streams q :=
    fun q hq => Session.streams_modify_of_ne hq
  refine ⟨h.numStreams, h.session, fun q => ?_, fun q => ?_, ?_, h.sentTooMuch⟩
  · rcases eq_or_ne q p with rfl | hne
    · rw [hself]
      exact hc
    · rw [hother q hne]
      exact h.stream q
  · rcases eq_or_ne q p with rfl | hne
    · rw [hself]
      dsimp only
      rw [hb, hw, h.written]
    · rw [hother q hne]
      exact h.written q
  · refine h.total.trans (Finset.sum_congr rfl fun q _ => ?_)
    rcases eq_or_ne q p with rfl | hne
    · rw [hself]
      unfold contribution
      rw [hw]
    · rw [hother q hne]

theorem maybeSendBlocked (h : Sent n s) : Sent n (s.maybeSendBlocked p) := by
  have hstream : Sent n (s.modifyOutgoing p fun o =>
      { o with flowController := o.flowController.maybeSendBlocked }) :=
    h.modifyOutgoing (fun _ => rfl) (h.stream p).maybeSendBlocked
      SendController.bytesSent_maybeSendBlocked
  unfold Session.maybeSendBlocked
  dsimp only
  split_ifs
  · exact hstream
  · exact ⟨hstream.numStreams, hstream.session.maybeSendBlocked, hstream.stream, hstream.written,
      SendController.bytesSent_maybeSendBlocked.trans hstream.total, hstream.sentTooMuch⟩

theorem sendWindow_le : s.sendWindow p ≤ (s.streams p).outgoing.flowController.sendWindowSize := by
  unfold Session.sendWindow
  dsimp only
  split_ifs
  · exact le_rfl
  · exact Nat.min_le_left _ _

theorem sendWindow_le_session (hs : (s.streams p).isStatic = false) :
    s.sendWindow p ≤ s.sendController.sendWindowSize := by
  unfold Session.sendWindow
  dsimp only
  rw [if_neg (Bool.eq_false_iff.1 hs)]
  exact Nat.min_le_right _ _

/-- Bytes that are not too many for the stream. -/
theorem addBytesSent_eq {c : SendController} {bytes : ℕ}
    (hadd : (s.streams p).outgoing.flowController.addBytesSent bytes = (false, c)) :
    s.addBytesSent p bytes =
      if (s.streams p).isStatic then s.modifyOutgoing p fun o => { o with flowController := c }
      else
        { s.modifyOutgoing p fun o => { o with flowController := c } with
          sendController := (s.sendController.addBytesSent bytes).2 }.closeIfTooMuch
          (s.sendController.addBytesSent bytes).1 := by
  have hfalse : ∀ u : Session, u.closeIfTooMuch false = u := fun _ => rfl
  unfold Session.addBytesSent
  dsimp only
  rw [hadd, hfalse, Session.isStatic_modifyOutgoing]
  rfl

/-- **A hand-over within the window**: what is consumed is counted on the stream and, if it
contributes, on the session. -/
theorem handOver {bytes : ℕ} {f : Outgoing → Outgoing} (h : Sent n s) (hp : p < n)
    (hb : bytes ≤ s.sendWindow p)
    (hw : ∀ o, (f o).streamBytesWritten = o.streamBytesWritten + bytes)
    (hc : ∀ o, (f o).flowController = o.flowController) :
    Sent n ((s.modifyOutgoing p f).addBytesSent p bytes) := by
  obtain ⟨c, hadd, hwithin, hsent⟩ := (h.stream p).addBytesSent (hb.trans sendWindow_le)
  -- The stream after the bytes have been counted.
  let st : Stream :=
    { s.streams p with outgoing := { f (s.streams p).outgoing with flowController := c } }
  have hstreams : ∀ u : Session, u.streams = Function.update s.streams p st →
      (∀ q, (u.streams q).outgoing.flowController.Within) ∧
      (∀ q, (u.streams q).outgoing.flowController.bytesSent =
        (u.streams q).outgoing.streamBytesWritten) ∧
      ∑ q ∈ Finset.range n, contribution (u.streams q) + contribution (s.streams p) =
        ∑ q ∈ Finset.range n, contribution (s.streams q) + contribution st := by
    intro u hu
    have hself : u.streams p = st := by rw [hu, Function.update_self]
    have hother : ∀ q, q ≠ p → u.streams q = s.streams q :=
      fun q hq => by rw [hu, Function.update_of_ne hq]
    refine ⟨fun q => ?_, fun q => ?_, ?_⟩
    · rcases eq_or_ne q p with rfl | hne
      · rw [hself]
        exact hwithin
      · rw [hother q hne]
        exact h.stream q
    · rcases eq_or_ne q p with rfl | hne
      · rw [hself]
        show c.bytesSent = (f (s.streams q).outgoing).streamBytesWritten
        rw [hsent, h.written, hw]
      · rw [hother q hne]
        exact h.written q
    · have hsum := sum_range_change (f := fun q => contribution (s.streams q))
        (g := fun q => contribution (u.streams q)) hp fun q hq => by rw [hother q hq]
      rw [hself] at hsum
      exact hsum
  have hu : ((s.modifyOutgoing p f).modifyOutgoing p fun o =>
      { o with flowController := c }).streams = Function.update s.streams p st := by
    show Function.update (Function.update s.streams p _) p _ = _
    rw [Function.update_idem, Session.streams_modifyOutgoing_self]
  have hadd' : ((s.modifyOutgoing p f).streams p).outgoing.flowController.addBytesSent bytes =
      (false, c) := by
    rw [Session.streams_modifyOutgoing_self]
    exact (hc _).symm ▸ hadd
  rw [addBytesSent_eq hadd', Session.isStatic_modifyOutgoing]
  by_cases hs : (s.streams p).isStatic = true
  · rw [if_pos hs]
    obtain ⟨h₁, h₂, h₃⟩ := hstreams _ hu
    have hst : contribution st = 0 := by simp [contribution, st, hs]
    have hp0 : contribution (s.streams p) = 0 := by simp [contribution, hs]
    refine ⟨h.numStreams, h.session, h₁, h₂, ?_, h.sentTooMuch⟩
    rw [hst, hp0] at h₃
    exact h.total.trans h₃.symm
  · rw [if_neg hs]
    obtain ⟨c', haddS, hwithinS, hsentS⟩ :=
      h.session.addBytesSent (hb.trans (sendWindow_le_session (Bool.eq_false_iff.2 hs)))
    have haddS' : (s.modifyOutgoing p f).sendController.addBytesSent bytes = (false, c') := haddS
    have hst : contribution st = contribution (s.streams p) + bytes := by
      simp [contribution, st, hs, hw]
    rw [haddS']
    obtain ⟨h₁, h₂, h₃⟩ := hstreams _ hu
    refine ⟨h.numStreams, hwithinS, h₁, h₂, ?_, h.sentTooMuch⟩
    have htotal := h.total
    suffices hsum : c'.bytesSent = ∑ q ∈ Finset.range n, contribution
        (((s.modifyOutgoing p f).modifyOutgoing p fun o =>
          { o with flowController := c }).streams q) from hsum
    omega

theorem writevDataInner (h : Sent n s) (hp : p < n) (hlen : data.length ≤ s.sendWindow p) :
    Sent n (s.writevDataInner p data fin a).2 := by
  have hclose : ∀ u, Unsent s u → Sent n u ∧ u.sendWindow p = s.sendWindow p := by
    intro u hu
    refine ⟨h.unsent hu, ?_⟩
    unfold Session.sendWindow
    rw [(hu.similar p).outgoing, (hu.similar p).isStatic, hu.sendController]
  unfold Session.writevDataInner
  dsimp only
  obtain ⟨hS, hwin⟩ := hclose (if a.writeError then s.closeConnection else s) (by
    split_ifs
    · exact unsent_closeConnection
    · exact Unsent.refl s)
  refine hS.handOver hp ?_ (fun _ => rfl) fun _ => rfl
  rw [hwin]
  exact (Nat.min_le_right _ _).trans hlen

theorem markFinSent (h : Sent n s) : Sent n (s.modify p fun st => { st with finSent := true }) := by
  refine h.congr (fun q => ?_) (fun q => ?_) rfl rfl rfl
  · rcases eq_or_ne q p with rfl | hne
    · rw [Session.streams_modify_self]
    · rw [Session.streams_modify_of_ne hne]
  · rcases eq_or_ne q p with rfl | hne
    · rw [Session.streams_modify_self]
    · rw [Session.streams_modify_of_ne hne]

theorem sendFin (h : Sent n s) : Sent n (s.sendFin p) := by
  have hmark := h.markFinSent (p := p)
  unfold Session.sendFin
  dsimp only
  refine indifferent_sent.closeWriteSide ?_
  split_ifs
  · exact indifferent_sent.streamDraining hmark
  · exact hmark

/-- **A write** keeps within the windows. -/
theorem writevData (h : Sent n s) (hp : p < n) : Sent n (s.writevData p data fin a).2 := by
  have hoffer : Sent n (s.offer p data fin a).2 := h.writevDataInner hp (List.length_take_le _ _)
  have hafter : ∀ t, t = (s.offer p data fin a).2 ∨
      t = (s.offer p data fin a).2.maybeSendBlocked p → Sent n t := by
    rintro t (rfl | rfl)
    · exact hoffer
    · exact hoffer.maybeSendBlocked
  have hw := s.writing p data fin a
  generalize s.writevData p data fin a = r at hw ⊢
  cases hw with
  | nothing => exact h
  | blocked => exact h.maybeSendBlocked
  | offered t ht => exact hafter t ht
  | finished t ht hcons => exact (hafter t ht).sendFin

theorem writeOrBufferData (h : Sent n s) (hp : p < n) :
    Sent n (s.writeOrBufferData p data fin a) := by
  have haccept : Sent n (s.acceptData p data fin) :=
    h.modifyOutgoing (fun _ => rfl) (h.stream p) rfl
  have hbuffer : ∀ (u : Session) (x : ConsumedData), Sent n u →
      Sent n (u.bufferData p data fin x) := by
    intro u x hu
    unfold Session.bufferData
    split_ifs
    · exact hu.modifyOutgoing (fun _ => rfl) (hu.stream p) rfl
    · exact hu
  unfold Session.writeOrBufferData
  split_ifs
  · exact h
  · exact h
  · exact h
  · dsimp only
    refine hbuffer _ _ ?_
    split_ifs
    · exact haccept.writevData hp
    · exact haccept

/-- **The loop of `OnCanWrite`**, by induction on the number of chunks it may write. -/
theorem writeQueued (fuel : ℕ) (as : List Answer) (h : Sent n s) (hp : p < n) :
    Sent n (Session.writeQueued p fuel s as) := by
  induction fuel generalizing s as with
  | zero => exact h
  | succ fuel ih =>
    unfold Session.writeQueued
    dsimp only
    cases (s.streams p).outgoing.queuedData with
    | nil => exact h
    | cons d l =>
      dsimp only
      have hwrite : Sent n (s.writevData p (d.data.drop d.offset)
          (l.isEmpty && (s.streams p).outgoing.finBuffered) (as.headD .nothing)).2 :=
        h.writevData hp
      split_ifs
      · exact h.modifyOutgoing (fun _ => rfl) (h.stream p) rfl
      · exact ih _ (hwrite.modifyOutgoing (fun _ => rfl) (hwrite.stream p) rfl)
      · exact hwrite.modifyOutgoing (fun _ => rfl) (hwrite.stream p) rfl

theorem onCanWrite {as : List Answer} (h : Sent n s) (hp : p < n) : Sent n (s.onCanWrite p as) := by
  have hloop := h.writeQueued (s.streams p).outgoing.queuedData.length as hp
  unfold Session.onCanWrite
  dsimp only
  split_ifs
  · exact indifferent_sent.closeWriteSide hloop
  · exact hloop

theorem streamOnWindowUpdateFrame {as : List Answer} {offset : ℕ} (h : Sent n s) (hp : p < n)
    (ho : offset < 2 ^ 64) : Sent n (s.streamOnWindowUpdateFrame p offset as) := by
  obtain ⟨hwithin, hsent⟩ := (h.stream p).updateSendWindowOffset ho
  have hupdate : Sent n (s.modifyOutgoing p fun o => { o with flowController :=
      ((s.streams p).outgoing.flowController.updateSendWindowOffset offset).2 }) :=
    h.modifyOutgoing (fun _ => rfl) hwithin hsent
  unfold Session.streamOnWindowUpdateFrame
  dsimp only
  split_ifs
  · exact hupdate.onCanWrite hp
  · exact hupdate

end Sent

/-! ## Making streams -/

/-- Nothing has been written on a new stream. -/
theorem Sent.activateStream {id : ℕ} {w : Bool} (h : Sent n s) :
    Sent (n + 1) (s.activateStream id w) := by
  obtain rfl := h.numStreams
  have hself : (s.activateStream id w).streams s.numStreams = s.config.newStream id false w :=
    Function.update_self ..
  have hother : ∀ q, q ≠ s.numStreams → (s.activateStream id w).streams q = s.streams q :=
    fun q hq => Function.update_of_ne hq ..
  refine ⟨rfl, h.session, fun q => ?_, fun q => ?_, ?_, h.sentTooMuch⟩
  · rcases eq_or_ne q s.numStreams with rfl | hne
    · rw [hself]
      exact ⟨Nat.zero_le _, s.config.received_lt⟩
    · rw [hother q hne]
      exact h.stream q
  · rcases eq_or_ne q s.numStreams with rfl | hne
    · rw [hself]
      rfl
    · rw [hother q hne]
      exact h.written q
  · rw [sum_range_extend (f := fun q => contribution (s.streams q))
      fun q hq => by rw [hother q hq.ne], hself]
    exact h.total

/-- What has been sent on all streams. -/
def SentAll (s : Session) : Prop := Formed s ∧ Sent s.numStreams s

theorem SentAll.of_sent (hF : Formed t) (h : Sent n t) : SentAll t := ⟨hF, h.numStreams ▸ h⟩

theorem Sent.withTables {u : Tables} (h : Sent n s) : Sent n { s with tables := u } :=
  h.congr (fun _ => rfl) (fun _ => rfl) rfl rfl rfl

theorem SentAll.getOrCreateDynamicStream {id : ℕ} (h : SentAll s) :
    SentAll (s.getOrCreateDynamicStream id).2 := by
  have hF : Formed (s.getOrCreateDynamicStream id).2 := h.1.getOrCreateDynamicStream
  have hadm := s.admission id
  generalize s.getOrCreateDynamicStream id = r at hadm hF ⊢
  cases hadm with
  | failed hid => exact .of_sent hF (indifferent_sent.abort h.2)
  | known p hp => exact h
  | closed hf hc => exact h
  | foreign hf hi => exact .of_sent hF (indifferent_sent.closeConnection h.2)
  | tooFar hn hlt => exact .of_sent hF (indifferent_sent.closeConnection h.2.withTables)
  | refused hn hfit hmax => exact .of_sent hF h.2.withTables
  | ignored hn hfit hg => exact .of_sent hF h.2.withTables
  | wrongParity hn hfit => exact .of_sent hF (indifferent_sent.closeConnection h.2.withTables)
  | made hn hfit hc w =>
    have hnote : Sent s.numStreams ((s.admitId id).noteCreated id) := h.2.withTables
    exact .of_sent hF hnote.activateStream

theorem SentAll.createOutgoingDynamicStream (h : SentAll s) :
    SentAll s.createOutgoingDynamicStream := by
  have hF := h.1.createOutgoingDynamicStream
  unfold Session.createOutgoingDynamicStream at hF ⊢
  split_ifs at hF ⊢
  · exact .of_sent hF h.2.withTables.activateStream
  · exact h

theorem indifferent_sentAll : Indifferent SentAll where
  change := fun h hg => .of_sent (indifferent_formed.change h.1 hg) (indifferent_sent.change h.2 hg)
  close := fun h => .of_sent (indifferent_formed.close h.1) (indifferent_sent.close h.2)
  disconnect := fun h => .of_sent (indifferent_formed.disconnect h.1)
    (indifferent_sent.disconnect h.2)
  drain := fun h hid => .of_sent (indifferent_formed.drain h.1 hid)
    (indifferent_sent.drain h.2 hid)

theorem framed_sentAll : Framed (fun _ => True) SentAll where
  toIndifferent := indifferent_sentAll
  final := by
    intro s id n h
    refine .of_sent (n := s.numStreams) h.1.onFinalByteOffsetReceived ?_
    unfold Session.onFinalByteOffsetReceived
    cases valueAt id s.tables.locallyClosedStreams with
    | none => exact h.2
    | some recorded =>
      dsimp only
      split_ifs
      · exact indifferent_sent.closeConnection
          (indifferent_sent.change (b := s.aborted) h.2 fun q => Similar.refl _)
      · exact h.2.congr (fun _ => rfl) (fun _ => rfl) rfl rfl rfl
  windowUpdate := fun {s p as offset} h hp _ =>
    .of_sent (unwritten_formed.streamOnWindowUpdateFrame (fun h => h) h.1)
      (h.2.streamOnWindowUpdateFrame (h.1.lt_of_isOpen hp) offset.toNat_lt)
  sessionWindow := by
    intro s offset h
    obtain ⟨hwithin, hsent⟩ := h.2.session.updateSendWindowOffset offset.toNat_lt
    exact ⟨unwritten_formed.sending (b := s.sentTooMuch) h.1,
      ⟨rfl, hwithin, h.2.stream, h.2.written, hsent.trans h.2.total, h.2.sentTooMuch⟩⟩
  goaway := fun h => ⟨h.1.goaway, h.2.congr (fun _ => rfl) (fun _ => rfl) rfl rfl rfl⟩

/-! ## Runs -/

theorem SentAll.new (c : Config) (e : Environment) : SentAll (Session.new c e) := by
  refine ⟨Formed.new c e, ⟨rfl, ⟨?_, ?_⟩, fun q => ⟨Nat.zero_le _, c.received_lt⟩, fun q => rfl, ?_,
    rfl⟩⟩
  · exact Nat.zero_le _
  · show kMinimumFlowControlSendWindow < 2 ^ 64
    decide
  · exact (Finset.sum_eq_zero fun q _ => rfl).symm

/-- **One step.** -/
theorem SentAll.step {x : Op × Environment} (h : SentAll s) (ht : s.step x = some t) :
    SentAll t := by
  obtain ⟨op, e⟩ := x
  obtain ⟨-, ht⟩ := Session.step_eq_some ht
  have h' : SentAll (s.arrive op e) :=
    ⟨h.1.arrive, h.2.congr (fun _ => rfl) (fun _ => rfl) rfl rfl rfl⟩
  by_cases hop : op.isFrame = true
  · exact framed_sentAll.step (fun _ => h') (fun _ _ _ => h')
      (fun _ _ => h'.getOrCreateDynamicStream) (fun _ _ _ _ => trivial) hop ht
  · refine indifferent_sentAll.local_step (fun p as _ hp => ?_) (fun hp hfin => ?_) ?_
      h'.createOutgoingDynamicStream (Bool.eq_false_iff.2 hop) h' ht
    · exact .of_sent (unwritten_formed.onCanWrite (fun h => h) h'.1)
        (h'.2.onCanWrite (h'.1.lt_of_isOpen hp))
    · exact .of_sent (unwritten_formed.writeOrBufferData h'.1
        fun hf => h'.1.isStatic_of_isDynamic (hfin hf))
        (h'.2.writeOrBufferData (h'.1.lt_of_isOpen hp))
    · exact fun h => .of_sent h.1.markFinSent h.2.markFinSent

/-- **What holds of a sender**: each controller has counted no more than it may send, no
branch of `AddBytesSent` has closed the connection, and the session has counted what was
written on all streams that contribute to it. -/
structure WithinWindow (s : Session) : Prop where
  session : s.sendController.bytesSent ≤ s.sendController.sendWindowOffset
  stream : ∀ p < s.numStreams, (s.streams p).outgoing.flowController.bytesSent ≤
    (s.streams p).outgoing.flowController.sendWindowOffset
  sentTooMuch : s.sentTooMuch = false
  total : s.sendController.bytesSent =
    ∑ p ∈ Finset.range s.numStreams,
      if (s.streams p).isStatic then 0 else (s.streams p).outgoing.streamBytesWritten

/-- **The sender never violates flow control**, in any run. -/
theorem always_within_window (c : Config) (e : Environment) (xs : List (Op × Environment)) :
    Always Session.step WithinWindow (Session.new c e) xs := by
  have hall : Always Session.step SentAll (Session.new c e) xs :=
    always_of_step (fun s x t h ht => h.step ht) (SentAll.new c e)
  exact hall.mono fun s h =>
    ⟨h.2.session.le, fun p _ => (h.2.stream p).le, h.2.sentTooMuch, h.2.total⟩

end Streams
end QuicNs3
