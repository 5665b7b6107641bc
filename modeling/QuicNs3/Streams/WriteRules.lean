/-
# Rules for writing

Writing closes streams, too: a FIN that is sent closes the write side, and a write error
closes the connection.  `Unwritten A P` says what an invariant `P` has to be kept by if it
does not look at what is written, apart from one thing: no FIN is buffered on a static
stream (`Formed`).
-/

import QuicNs3.Streams.Rules

namespace QuicNs3
namespace Streams

open Lib

variable {A : Stream → Prop} {P : Session → Prop} {s : Session} {p q id n : ℕ}
  {data : List UInt8} {fin : Bool} {a : Answer}

/-- **How the streams and the map of dynamic streams fit together.** -/
structure Formed (s : Session) : Prop where
  /-- No FIN is buffered on a static stream. -/
  noFin : ∀ q, (s.streams q).isStatic = true → (s.streams q).outgoing.finBuffered = false
  nodup : s.tables.dynamicIds.Nodup
  id_eq : ∀ e ∈ s.tables.dynamicStreams, (s.streams e.2).id = e.1
  isStatic : ∀ e ∈ s.tables.dynamicStreams, (s.streams e.2).isStatic = false
  lt : ∀ e ∈ s.tables.dynamicStreams, e.2 < s.numStreams
  two_le : 2 ≤ s.numStreams

/-- **What an invariant has to be kept by** if it does not look at what is written. -/
structure Unwritten (A : Stream → Prop) (P : Session → Prop) : Prop extends Rules A P where
  outgoing : ∀ {s : Session} {p : ℕ} {f : Outgoing → Outgoing}, P s →
    ((s.streams p).isStatic = true → (f (s.streams p).outgoing).finBuffered = true →
      (s.streams p).outgoing.finBuffered = true) → P (s.modifyOutgoing p f)
  finSent : ∀ {s p}, P s → (s.streams p).isStatic = false →
    P (s.modify p fun st => { st with finSent := true })
  sending : ∀ {s c b}, P s → P { s with sendController := c, sentTooMuch := b }
  drain : ∀ {s id}, P s → id ∈ s.tables.dynamicIds →
    P { s with tables := s.tables.streamDraining id }

/-! ## A static stream stays static -/

namespace Session

variable {f : Outgoing → Outgoing}

theorem streams_modifyOutgoing_self :
    (s.modifyOutgoing p f).streams p =
      { s.streams p with outgoing := f (s.streams p).outgoing } :=
  streams_modify_self

@[simp] theorem isStatic_modifyOutgoing :
    ((s.modifyOutgoing p f).streams q).isStatic = (s.streams q).isStatic := by
  rcases eq_or_ne q p with rfl | hne
  · rw [streams_modifyOutgoing_self]
  · unfold modifyOutgoing
    rw [streams_modify_of_ne hne]

@[simp] theorem isStatic_closeIfTooMuch {b : Bool} :
    ((s.closeIfTooMuch b).streams q).isStatic = (s.streams q).isStatic := by
  unfold closeIfTooMuch
  split_ifs
  · exact (unsent_closeConnection.similar q).isStatic
  · rfl

@[simp] theorem isStatic_addBytesSent :
    ((s.addBytesSent p n).streams q).isStatic = (s.streams q).isStatic := by
  unfold addBytesSent
  dsimp only
  split_ifs
  · rw [isStatic_closeIfTooMuch, isStatic_modifyOutgoing]
  · rw [isStatic_closeIfTooMuch]
    dsimp only
    rw [isStatic_closeIfTooMuch, isStatic_modifyOutgoing]

@[simp] theorem isStatic_writevDataInner :
    ((s.writevDataInner p data fin a).2.streams q).isStatic = (s.streams q).isStatic := by
  unfold writevDataInner
  dsimp only
  rw [isStatic_addBytesSent, isStatic_modifyOutgoing]
  split_ifs
  · exact (unsent_closeConnection.similar q).isStatic
  · rfl

@[simp] theorem isStatic_maybeSendBlocked :
    ((s.maybeSendBlocked p).streams q).isStatic = (s.streams q).isStatic := by
  unfold maybeSendBlocked
  dsimp only
  split_ifs
  · exact isStatic_modifyOutgoing
  · dsimp only
    exact isStatic_modifyOutgoing

end Session

/-! ## What a write comes to -/

/-- The hand-over of a write, cut to the window. -/
def Session.offer (s : Session) (p : ℕ) (data : List UInt8) (fin : Bool) (a : Answer) :
    ConsumedData × Session :=
  s.writevDataInner p (data.take (s.sendWindow p))
    (fin && decide (data.length ≤ s.sendWindow p)) a

/-- **What `WritevData` can come to.** -/
inductive Writing (s : Session) (p : ℕ) (data : List UInt8) (fin : Bool) (a : Answer) :
    ConsumedData × Session → Prop
  | nothing : Writing s p data fin a (⟨0, false⟩, s)
  | blocked : Writing s p data fin a (⟨0, false⟩, s.maybeSendBlocked p)
  | offered (t : Session)
      (ht : t = (s.offer p data fin a).2 ∨ t = (s.offer p data fin a).2.maybeSendBlocked p) :
    Writing s p data fin a ((s.offer p data fin a).1, t)
  | finished (t : Session)
      (ht : t = (s.offer p data fin a).2 ∨ t = (s.offer p data fin a).2.maybeSendBlocked p)
      (hfin : (s.offer p data fin a).1.finConsumed = true) :
    Writing s p data fin a ((s.offer p data fin a).1, t.sendFin p)

theorem Session.writing (s : Session) (p : ℕ) (data : List UInt8) (fin : Bool) (a : Answer) :
    Writing s p data fin a (s.writevData p data fin a) := by
  unfold writevData
  by_cases hw : (s.streams p).writeSideClosed = true
  · rw [if_pos hw]
    exact .nothing
  rw [if_neg hw]
  dsimp only
  by_cases hy : a.shouldYield = true
  · rw [if_pos hy]
    exact .nothing
  rw [if_neg hy]
  by_cases hwin : s.sendWindow p = 0 ∧ (fin && data.isEmpty) = false
  · rw [if_pos hwin]
    exact .blocked
  rw [if_neg hwin]
  change Writing s p data fin a (
    if ((s.offer p data fin a).2.streams p).writeSideClosed then
      ((s.offer p data fin a).1, (s.offer p data fin a).2)
    else if (s.offer p data fin a).1.bytesConsumed = (data.take (s.sendWindow p)).length then
      ((s.offer p data fin a).1,
        if (s.offer p data fin a).1.finConsumed then
          (if fin && data.isEmpty then (s.offer p data fin a).2
            else (s.offer p data fin a).2.maybeSendBlocked p).sendFin p
        else if fin && data.isEmpty then (s.offer p data fin a).2
          else (s.offer p data fin a).2.maybeSendBlocked p)
    else ((s.offer p data fin a).1, (s.offer p data fin a).2))
  split_ifs with h₁ h₂ h₃ h₄ h₄
  · exact .offered _ (.inl rfl)
  · exact .finished _ (.inl rfl) h₃
  · exact .finished _ (.inr rfl) h₃
  · exact .offered _ (.inl rfl)
  · exact .offered _ (.inr rfl)
  · exact .offered _ (.inl rfl)

/-! ## Writing -/

namespace Unwritten

variable (U : Unwritten A P)

include U

theorem maybeSendBlocked (h : P s) : P (s.maybeSendBlocked p) := by
  have hout : P (s.modifyOutgoing p fun o =>
      { o with flowController := o.flowController.maybeSendBlocked }) :=
    U.outgoing h fun _ h => h
  unfold Session.maybeSendBlocked
  dsimp only
  split_ifs
  · exact hout
  · exact U.sending (b := s.sentTooMuch) hout

theorem closeIfTooMuch {b : Bool} (h : P s) : P (s.closeIfTooMuch b) := by
  unfold Session.closeIfTooMuch
  split_ifs
  · exact U.closeConnection (U.sending (c := s.sendController) h)
  · exact h

theorem addBytesSent (h : P s) : P (s.addBytesSent p n) := by
  unfold Session.addBytesSent
  dsimp only
  have hstream := U.closeIfTooMuch
    (b := ((s.streams p).outgoing.flowController.addBytesSent n).1)
    (U.outgoing (p := p) (f := fun o =>
      { o with flowController := ((s.streams p).outgoing.flowController.addBytesSent n).2 }) h
      fun _ h => h)
  generalize Session.closeIfTooMuch _ _ = t at hstream ⊢
  split_ifs
  · exact hstream
  · exact U.closeIfTooMuch (U.sending (b := t.sentTooMuch) hstream)

theorem writevDataInner (h : P s) : P (s.writevDataInner p data fin a).2 := by
  unfold Session.writevDataInner
  dsimp only
  refine U.addBytesSent (U.outgoing ?_ fun _ h => h)
  split_ifs
  · exact U.closeConnection h
  · exact h

theorem streamDraining (h : P s) : P (s.streamDraining id) := by
  unfold Session.streamDraining
  split_ifs with hid
  · exact U.drain h hid
  · exact U.abort h

/-- A FIN has been sent. -/
theorem sendFin (h : P s) (hs : (s.streams p).isStatic = false) : P (s.sendFin p) := by
  have hmark : P (s.modify p fun st => { st with finSent := true }) :=
    U.finSent h hs
  unfold Session.sendFin
  dsimp only
  refine U.closeWriteSide ?_
  split_ifs
  · exact U.streamDraining hmark
  · exact hmark

/-- **A write**, with a FIN only on a stream that is not static. -/
theorem writevData (h : P s) (hfin : fin = true → (s.streams p).isStatic = false) :
    P (s.writevData p data fin a).2 := by
  have hoffer : P (s.offer p data fin a).2 := U.writevDataInner h
  have hafter : ∀ t, t = (s.offer p data fin a).2 ∨
      t = (s.offer p data fin a).2.maybeSendBlocked p → P t ∧
        (t.streams p).isStatic = (s.streams p).isStatic := by
    rintro t (rfl | rfl)
    · exact ⟨hoffer, Session.isStatic_writevDataInner⟩
    · exact ⟨U.maybeSendBlocked hoffer,
        Session.isStatic_maybeSendBlocked.trans Session.isStatic_writevDataInner⟩
  have hw := s.writing p data fin a
  generalize s.writevData p data fin a = r at hw ⊢
  cases hw with
  | nothing => exact h
  | blocked => exact U.maybeSendBlocked h
  | offered t ht => exact (hafter t ht).1
  | finished t ht hcons =>
    obtain ⟨hP, hstatic⟩ := hafter t ht
    refine U.sendFin hP (hstatic.trans (hfin ?_))
    simp only [Session.offer, Session.writevDataInner, Bool.and_eq_true] at hcons
    exact hcons.1.1.1

theorem bufferData {x : ConsumedData} (h : P s) : P (s.bufferData p data fin x) := by
  unfold Session.bufferData
  split_ifs
  · exact U.outgoing h fun _ h => h
  · exact h

theorem writeOrBufferData (h : P s) (hfin : fin = true → (s.streams p).isStatic = false) :
    P (s.writeOrBufferData p data fin a) := by
  have haccept : P (s.acceptData p data fin) := by
    refine U.outgoing h fun hs hf => ?_
    exact absurd ((hfin hf).symm.trans hs) (by decide)
  have hstatic : ((s.acceptData p data fin).streams p).isStatic = (s.streams p).isStatic :=
    Session.isStatic_modifyOutgoing
  unfold Session.writeOrBufferData
  split_ifs
  · exact h
  · exact h
  · exact h
  · dsimp only
    refine U.bufferData ?_
    split_ifs
    · exact U.writevData haccept fun hf => hstatic.trans (hfin hf)
    · exact haccept

variable (C : ∀ {s}, P s → Formed s)

include C

/-- **The loop of `OnCanWrite`**, by induction on the number of chunks it may write. -/
theorem writeQueued (fuel : ℕ) (as : List Answer) (h : P s) :
    P (Session.writeQueued p fuel s as) := by
  induction fuel generalizing s as with
  | zero => exact h
  | succ fuel ih =>
    have hfin : ∀ l : List PendingData,
        (l.isEmpty && (s.streams p).outgoing.finBuffered) = true →
        (s.streams p).isStatic = false := by
      intro l hl
      refine Bool.eq_false_iff.2 fun hs => ?_
      rw [(C h).noFin p hs, Bool.and_false] at hl
      exact absurd hl (by decide)
    unfold Session.writeQueued
    dsimp only
    cases (s.streams p).outgoing.queuedData with
    | nil => exact h
    | cons d l =>
      dsimp only
      have hwrite : P (s.writevData p (d.data.drop d.offset)
          (l.isEmpty && (s.streams p).outgoing.finBuffered) (as.headD .nothing)).2 :=
        U.writevData h (hfin l)
      split_ifs
      · exact U.outgoing h fun _ h => h
      · exact ih _ (U.outgoing hwrite fun _ h => h)
      · exact U.outgoing hwrite fun _ h => h

theorem onCanWrite {as : List Answer} (h : P s) : P (s.onCanWrite p as) := by
  have hloop := U.writeQueued C (p := p) (s.streams p).outgoing.queuedData.length as h
  unfold Session.onCanWrite
  dsimp only
  split_ifs
  · exact U.closeWriteSide hloop
  · exact hloop

theorem streamOnWindowUpdateFrame {as : List Answer} (h : P s) :
    P (s.streamOnWindowUpdateFrame p n as) := by
  have hout : P (s.modifyOutgoing p fun o =>
      { o with
        flowController := ((s.streams p).outgoing.flowController.updateSendWindowOffset n).2 }) :=
    U.outgoing h fun _ h => h
  unfold Session.streamOnWindowUpdateFrame
  dsimp only
  split_ifs
  · exact U.onCanWrite C hout
  · exact hout

end Unwritten

/-- Whether a stream is static is settled when it is made. -/
theorem unwritten_static (s : Session) : Unwritten (fun _ => True)
    fun t => ∀ q, (t.streams q).isStatic = (s.streams q).isStatic where
  toRules := Indifferent.rules
    { change := fun h hg q => (hg q).isStatic.trans (h q)
      close := fun h q => (unsent_closeStreamInner.similar q).isStatic.trans (h q)
      disconnect := fun h => h
      drain := fun h _ => h }
  outgoing := fun h _ q => Session.isStatic_modifyOutgoing.trans (h q)
  finSent := by
    intro t p h _ q
    rcases eq_or_ne q p with rfl | hne
    · rw [Session.streams_modify_self]
      exact h q
    · rw [Session.streams_modify_of_ne hne]
      exact h q
  sending := fun h => h
  drain := fun h _ => h

@[simp] theorem Session.isStatic_writeOrBufferData_of_noFin :
    ((s.writeOrBufferData p data false a).streams q).isStatic = (s.streams q).isStatic :=
  (unwritten_static s).writeOrBufferData (fun _ => rfl) (fun h => absurd h (by decide)) q

namespace Unwritten

variable (U : Unwritten A P)

include U

/-- Headers are written for a stream that is not static. -/
theorem writeHeaders (h : P s) (hs : (s.streams p).isStatic = false) :
    P (s.writeHeaders p data fin a) := by
  have hwrite : P (s.writeOrBufferData Session.headersStream data false a) :=
    U.writeOrBufferData h fun hf => absurd hf (by decide)
  unfold Session.writeHeaders
  dsimp only
  split_ifs
  · refine U.closeWriteSide (U.finSent hwrite ?_)
    rwa [Session.isStatic_writeOrBufferData_of_noFin]
  · exact hwrite

theorem writeTrailers (h : P s) (hs : (s.streams p).isStatic = false) :
    P (s.writeTrailers p data a) := by
  have hwrite : P (s.writeOrBufferData Session.headersStream data false a) :=
    U.writeOrBufferData h fun hf => absurd hf (by decide)
  have hmark : P ((s.writeOrBufferData Session.headersStream data false a).modify p
      fun st => { st with finSent := true }) := by
    refine U.finSent hwrite ?_
    rwa [Session.isStatic_writeOrBufferData_of_noFin]
  unfold Session.writeTrailers
  dsimp only
  split_ifs
  · exact h
  · exact U.closeWriteSide hmark
  · exact hmark

end Unwritten

end Streams
end QuicNs3
