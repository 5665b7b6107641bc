/-
# What has been written stays

What a stream has accepted and handed over to the connection is never taken back: every
operation extends both, and nothing is accepted behind a FIN (`Extends`).  Frames that were cut
from a hand-over hence stay frames of the stream, however long they are on their way
(`Grown.step`).
-/

import QuicNs3.Streams.HandOver

namespace QuicNs3
namespace Streams

open Lib

variable {p q : ℕ} {s t u : Session} {data : List UInt8} {fin : Bool} {a : Answer}
  {o o' o'' : Outgoing}

/-- `o'` is what `o` can become. -/
structure Extends (o o' : Outgoing) : Prop where
  accepted : o.accepted <+: o'.accepted
  handOvers : o.handOvers <+: o'.handOvers
  /-- Nothing is accepted behind a FIN. -/
  fin : o.finBuffered = true → o'.finBuffered = true ∧ o'.accepted = o.accepted

namespace Extends

theorem refl (o : Outgoing) : Extends o o := ⟨List.prefix_rfl, List.prefix_rfl, fun h => ⟨h, rfl⟩⟩

theorem trans (h : Extends o o') (h' : Extends o' o'') : Extends o o'' where
  accepted := h.accepted.trans h'.accepted
  handOvers := h.handOvers.trans h'.handOvers
  fin := by
    intro hfin
    obtain ⟨hfin', heq⟩ := h.fin hfin
    obtain ⟨hfin'', heq'⟩ := h'.fin hfin'
    exact ⟨hfin'', heq'.trans heq⟩

theorem of_recounts (h : Recounts p s t) (q : ℕ) :
    Extends (s.streams q).outgoing (t.streams q).outgoing := by
  rcases eq_or_ne q p with rfl | hne
  · obtain ⟨c, hc⟩ := h.self
    rw [hc]
    exact ⟨List.prefix_rfl, List.prefix_rfl, fun hfin => ⟨hfin, rfl⟩⟩
  · rw [h.other q hne]
    exact refl _

/-- A change of one stream. -/
theorem modifyOutgoing {f : Outgoing → Outgoing}
    (h : Extends (s.streams p).outgoing (f (s.streams p).outgoing)) (q : ℕ) :
    Extends (s.streams q).outgoing ((s.modifyOutgoing p f).streams q).outgoing := by
  rcases eq_or_ne q p with rfl | hne
  · rw [Session.streams_modifyOutgoing_self]
    exact h
  · unfold Session.modifyOutgoing
    rw [Session.streams_modify_of_ne hne]
    exact refl _

/-- **A hand-over** is added behind the others. -/
theorem writevDataInner (q : ℕ) : Extends (s.streams q).outgoing
    ((s.writevDataInner p data fin a).2.streams q).outgoing := by
  unfold Session.writevDataInner
  dsimp only
  refine trans ?_ (of_recounts Recounts.addBytesSent q)
  -- A write error closes the connection first.
  have herror : Extends (s.streams q).outgoing
      (((if a.writeError then s.closeConnection else s : Session).streams q).outgoing) := by
    split_ifs
    · exact of_recounts (p := q) (.of_unsent unsent_closeConnection) q
    · exact refl _
  exact herror.trans
    (modifyOutgoing ⟨List.prefix_rfl, List.prefix_append _ _, fun hfin => ⟨hfin, rfl⟩⟩ q)

theorem writevData (q : ℕ) : Extends (s.streams q).outgoing
    ((s.writevData p data fin a).2.streams q).outgoing := by
  have hoffer : Extends (s.streams q).outgoing ((s.offer p data fin a).2.streams q).outgoing :=
    writevDataInner q
  have hblocked : ∀ t, t = (s.offer p data fin a).2 ∨
      t = (s.offer p data fin a).2.maybeSendBlocked p →
      Extends (s.streams q).outgoing (t.streams q).outgoing := by
    rintro t (rfl | rfl)
    · exact hoffer
    · exact hoffer.trans (of_recounts Recounts.maybeSendBlocked q)
  have hw := s.writing p data fin a
  generalize s.writevData p data fin a = r at hw ⊢
  cases hw with
  | nothing => exact refl _
  | blocked => exact of_recounts Recounts.maybeSendBlocked q
  | offered t ht => exact hblocked t ht
  | finished t ht hcons => exact (hblocked t ht).trans (of_recounts Recounts.sendFin q)

theorem writeOrBufferData (q : ℕ) : Extends (s.streams q).outgoing
    ((s.writeOrBufferData p data fin a).streams q).outgoing := by
  unfold Session.writeOrBufferData
  split_ifs with hempty hfin hclosed
  · exact refl _
  · exact refl _
  · exact refl _
  have haccept : Extends (s.streams q).outgoing ((s.acceptData p data fin).streams q).outgoing :=
    modifyOutgoing ⟨List.prefix_append _ _, List.prefix_rfl, fun h => absurd h hfin⟩ q
  have hbuffer : ∀ (u : Session) (x : ConsumedData), Extends (u.streams q).outgoing
      ((u.bufferData p data fin x).streams q).outgoing := by
    intro u x
    unfold Session.bufferData
    split_ifs
    · exact modifyOutgoing ⟨List.prefix_rfl, List.prefix_rfl, fun h => ⟨h, rfl⟩⟩ q
    · exact refl _
  refine haccept.trans (trans ?_ (hbuffer _ _))
  split_ifs
  · exact writevData q
  · exact refl _

/-- **The loop of `OnCanWrite`.** -/
theorem writeQueued (fuel : ℕ) (as : List Answer) (q : ℕ) : Extends (s.streams q).outgoing
    ((Session.writeQueued p fuel s as).streams q).outgoing := by
  induction fuel generalizing s as with
  | zero => exact refl _
  | succ fuel ih =>
    unfold Session.writeQueued
    dsimp only
    cases (s.streams p).outgoing.queuedData with
    | nil => exact refl _
    | cons d l =>
      have hsettle : ∀ (u : Session) (n : ℕ) (f : Bool) (x : ConsumedData),
          Extends (u.streams q).outgoing ((u.settleFront p n f x).streams q).outgoing :=
        fun u n f x => modifyOutgoing ⟨List.prefix_rfl, List.prefix_rfl, fun h => ⟨h, rfl⟩⟩ q
      dsimp only
      split_ifs
      · exact modifyOutgoing ⟨List.prefix_rfl, List.prefix_rfl, fun h => ⟨h, rfl⟩⟩ q
      · exact ((writevData q).trans (hsettle _ _ _ _)).trans (ih _)
      · exact (writevData q).trans (hsettle _ _ _ _)

theorem onCanWrite (as : List Answer) (q : ℕ) : Extends (s.streams q).outgoing
    ((s.onCanWrite p as).streams q).outgoing := by
  unfold Session.onCanWrite
  dsimp only
  have hloop : Extends (s.streams q).outgoing
      ((Session.writeQueued p (s.streams p).outgoing.queuedData.length s as).streams q).outgoing :=
    writeQueued _ as q
  split_ifs
  · exact hloop.trans (of_recounts (p := q)
      (.of_unsent ((indifferent_unsent _).closeWriteSide (Unsent.refl _))) q)
  · exact hloop

theorem streamOnWindowUpdateFrame (offset : ℕ) (as : List Answer) (q : ℕ) :
    Extends (s.streams q).outgoing
      ((s.streamOnWindowUpdateFrame p offset as).streams q).outgoing := by
  have hupdate : ∀ c : SendController, Extends (s.streams q).outgoing
      ((s.modifyOutgoing p fun o => { o with flowController := c }).streams q).outgoing :=
    fun c => of_recounts (Recounts.modifyOutgoing fun o => ⟨c, rfl⟩) q
  unfold Session.streamOnWindowUpdateFrame
  dsimp only
  split_ifs
  · exact (hupdate _).trans (onCanWrite as q)
  · exact hupdate _

end Extends

/-! ## Hand-overs do not meet -/

section Told

variable {h h' : HandOver} {n : ℕ} {rest rest' : List UInt8}

theorem Told.written_le (ht : Told o rest) : o.streamBytesWritten ≤ o.accepted.length := by
  rw [ht.accepted, List.length_append, ht.length]
  exact Nat.le_add_right _ _

/-- The bytes before a hand-over and its own are among those written. -/
theorem Told.stop_le (ht : Told o rest) (hmem : h ∈ o.handOvers) :
    h.offset + h.bytesConsumed ≤ o.streamBytesWritten := by
  obtain ⟨before, after, hl⟩ := List.append_of_mem hmem
  have hoffset := (ht.inPlace before h after hl).offset
  rw [← ht.written, hl, List.map_append, List.sum_append, List.map_cons, List.sum_cons, ← hoffset]
  omega

/-- Hand-overs with a byte in common are one. -/
theorem Told.eq_of_common (ht : Told o rest) (hmem : h ∈ o.handOvers) (hmem' : h' ∈ o.handOvers)
    (hle : h.offset ≤ n) (hlt : n < h.offset + h.bytesConsumed) (hle' : h'.offset ≤ n)
    (hlt' : n < h'.offset + h'.bytesConsumed) : h = h' := by
  -- One of them is the first, and the other one begins where it ends or later.
  have hlater : ∀ x y before mid after, o.handOvers = before ++ x :: (mid ++ y :: after) →
      x.offset + x.bytesConsumed ≤ y.offset := by
    intro x y before mid after hl
    have hx := (ht.inPlace before x _ hl).offset
    have hy := (ht.inPlace (before ++ x :: mid) y after (by rw [hl]; simp)).offset
    rw [List.map_append, List.sum_append, List.map_cons, List.sum_cons, ← hx] at hy
    omega
  obtain ⟨before, after, hl⟩ := List.append_of_mem hmem
  rw [hl] at hmem'
  rcases List.mem_append.1 hmem' with hbefore | hafter
  · obtain ⟨before', mid, rfl⟩ := List.append_of_mem hbefore
    have := hlater h' h before' mid after (by rw [hl]; simp)
    omega
  · rcases List.mem_cons.1 hafter with heq | hafter
    · exact heq.symm
    · obtain ⟨mid, after', rfl⟩ := List.append_of_mem hafter
      have := hlater h h' before mid after' hl
      omega

theorem Told.written_mono (ht : Told o rest) (ht' : Told o' rest') (he : Extends o o') :
    o.streamBytesWritten ≤ o'.streamBytesWritten := by
  obtain ⟨new, hnew⟩ := he.handOvers
  rw [← ht.written, ← ht'.written, ← hnew, List.map_append, List.sum_append]
  exact Nat.le_add_right _ _

/-- What is handed over later lies behind what was handed over before. -/
theorem Told.mem_or_le (ht : Told o rest) (ht' : Told o' rest') (he : Extends o o')
    (hmem : h ∈ o'.handOvers) : h ∈ o.handOvers ∨ o.streamBytesWritten ≤ h.offset := by
  obtain ⟨new, hnew⟩ := he.handOvers
  rw [← hnew] at hmem
  rcases List.mem_append.1 hmem with hold | hmem
  · exact .inl hold
  · right
    obtain ⟨before, after, rfl⟩ := List.append_of_mem hmem
    have hoffset := (ht'.inPlace (o.handOvers ++ before) h after (by rw [← hnew]; simp)).offset
    rw [hoffset, List.map_append, List.sum_append, ht.written]
    exact Nat.le_add_right _ _

end Told

/-! ## The number of streams -/

theorem unwritten_numStreams (n : ℕ) :
    Unwritten (fun _ => True) fun t => Formed t ∧ t.numStreams = n :=
  Unwritten.ofFormed
    { toRules := Indifferent.rules
        { change := fun h _ => h
          close := fun h => unsent_closeStreamInner.numStreams.trans h
          disconnect := fun h => h
          drain := fun h _ => h }
      outgoing := fun h _ => h
      finSent := fun h _ => h
      sending := fun h => h
      drain := fun h _ => h }

/-! ## Steps -/

/-- The session has a stream `q`, and that has become what `o` can become. -/
structure Grown (q : ℕ) (o : Outgoing) (s : Session) : Prop where
  lt : q < s.numStreams
  extend : Extends o (s.streams q).outgoing

namespace Grown

/-- A change that makes no stream. -/
theorem of_extends (h : Grown q o s) (hn : t.numStreams = s.numStreams)
    (he : Extends (s.streams q).outgoing (t.streams q).outgoing) : Grown q o t :=
  ⟨hn ▸ h.lt, h.extend.trans he⟩

theorem of_streams (h : Grown q o s) (hs : t.streams = s.streams)
    (hn : t.numStreams = s.numStreams) : Grown q o t :=
  h.of_extends hn (hs ▸ .refl _)

theorem activateStream {id : ℕ} {w : Bool} (h : Grown q o s) :
    Grown q o (s.activateStream id w) where
  lt := h.lt.trans (Nat.lt_succ_self _)
  extend := by
    rw [show (s.activateStream id w).streams q = s.streams q from
      Function.update_of_ne h.lt.ne ..]
    exact h.extend

end Grown

theorem indifferent_grown : Indifferent (Grown q o) where
  change := fun h hg => ⟨h.lt, (hg q).outgoing ▸ h.extend⟩
  close := by
    intro s id b h
    have hclose : Unsent s (s.closeStreamInner id b) := unsent_closeStreamInner
    exact ⟨hclose.numStreams ▸ h.lt, (hclose.similar q).outgoing ▸ h.extend⟩
  disconnect := fun h => h.of_streams rfl rfl
  drain := fun h _ => h.of_streams rfl rfl

namespace Grown

theorem getOrCreateDynamicStream {id : ℕ} (h : Grown q o s) :
    Grown q o (s.getOrCreateDynamicStream id).2 := by
  have hadm := s.admission id
  generalize s.getOrCreateDynamicStream id = r at hadm ⊢
  have htake : Grown q o (s.takeId id) := h.of_streams rfl rfl
  have hadmit : Grown q o (s.admitId id) := h.of_streams rfl rfl
  have hnote : Grown q o ((s.admitId id).noteCreated id) := h.of_streams rfl rfl
  cases hadm with
  | failed hid => exact indifferent_grown.abort h
  | known p hp => exact h
  | closed hf hc => exact h
  | foreign hf hi => exact indifferent_grown.closeConnection h
  | tooFar hn hlt => exact indifferent_grown.closeConnection htake
  | refused hn hfit hmax => exact hadmit
  | ignored hn hfit hg => exact hnote
  | wrongParity hn hfit => exact indifferent_grown.closeConnection hnote
  | made hn hfit hc w => exact hnote.activateStream

theorem createOutgoingDynamicStream (h : Grown q o s) :
    Grown q o s.createOutgoingDynamicStream := by
  unfold Session.createOutgoingDynamicStream
  split_ifs
  · exact activateStream (h.of_streams rfl rfl)
  · exact h

theorem onFinalByteOffsetReceived {id n : ℕ} (h : Grown q o s) :
    Grown q o (s.onFinalByteOffsetReceived id n) := by
  unfold Session.onFinalByteOffsetReceived
  cases valueAt id s.tables.locallyClosedStreams with
  | none => exact h
  | some recorded =>
    dsimp only
    split_ifs
    · exact indifferent_grown.closeConnection (h.of_streams rfl rfl)
    · exact h.of_streams rfl rfl

end Grown

theorem framed_grown : Framed (fun _ => True) fun s => Formed s ∧ Grown q o s where
  toIndifferent := indifferent_grown.ofFormed
  final := fun h => ⟨h.1.onFinalByteOffsetReceived, h.2.onFinalByteOffsetReceived⟩
  windowUpdate := by
    intro s p as offset h _ _
    obtain ⟨hF, hn⟩ := (unwritten_numStreams s.numStreams).streamOnWindowUpdateFrame
      (fun h => h.1) ⟨h.1, rfl⟩
    exact ⟨hF, h.2.of_extends hn (.streamOnWindowUpdateFrame offset.toNat as q)⟩
  sessionWindow := fun {s _} h =>
    ⟨unwritten_formed.sending (b := s.sentTooMuch) h.1, h.2.of_streams rfl rfl⟩
  goaway := fun h => ⟨h.1.goaway, h.2.of_streams rfl rfl⟩

/-- **A step of the session only adds** to what a stream has accepted and handed over. -/
theorem Grown.step {x : Op × Environment} (h : Formed s ∧ Grown q o s)
    (ht : s.step x = some t) : Formed t ∧ Grown q o t := by
  obtain ⟨op, e⟩ := x
  obtain ⟨-, ht⟩ := Session.step_eq_some ht
  have h' : Formed (s.arrive op e) ∧ Grown q o (s.arrive op e) :=
    ⟨h.1.arrive, h.2.of_streams rfl rfl⟩
  by_cases hop : op.isFrame = true
  · exact framed_grown.step (fun _ => h') (fun _ _ _ => h')
      (fun _ _ => ⟨h'.1.getOrCreateDynamicStream, h'.2.getOrCreateDynamicStream⟩)
      (fun _ _ _ _ => trivial) hop ht
  · refine indifferent_grown.ofFormed.local_step (fun p as _ hp => ?_) (fun hp hfin => ?_)
      (fun h => ⟨h.1.markFinSent, ?_⟩)
      ⟨h'.1.createOutgoingDynamicStream, h'.2.createOutgoingDynamicStream⟩
      (Bool.eq_false_iff.2 hop) h' ht
    · obtain ⟨hF, hn⟩ := (unwritten_numStreams _).onCanWrite (fun h => h.1) ⟨h'.1, rfl⟩
      exact ⟨hF, h'.2.of_extends hn (.onCanWrite as q)⟩
    · obtain ⟨hF, hn⟩ := (unwritten_numStreams _).writeOrBufferData ⟨h'.1, rfl⟩
        fun hf => h'.1.isStatic_of_isDynamic (hfin hf)
      exact ⟨hF, h'.2.of_extends hn (.writeOrBufferData q)⟩
    · exact h.2.of_extends rfl (.of_recounts (p := q) Recounts.markFinSent q)

end Streams
end QuicNs3
