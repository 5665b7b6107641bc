/-
# Rules for what runs in the middle of a frame

Most functions of the session end by calling others: closing the read side may close
the stream, which consumes what is left, and so on.  An invariant `P` of the session is
kept by all of them if it is kept by a few primitive changes, and `Rules A P` says that
it is.  The changes are made in contexts that an invariant may rely on: the read side is
closed when the stream has been read to its end, has been reset by the peer or is going
down with the connection (`Ended`); a stream is closed when both its sides are; and a
stream is reset locally, after its final offset has been received, only if it meets `A`.

`Indifferent P` is for an invariant that does not look at what a stream has received, and
`Unwritten A P` for one that does not look at what it has written.
-/

import QuicNs3.Streams.Write

namespace QuicNs3
namespace Streams

open Lib

variable {A : Stream → Prop} {P : Session → Prop} {s : Session} {p q id n : ℕ}
  {f : Stream → Stream} {r : Reaction}

/-! ## Changing a stream -/

namespace Session

@[simp] theorem streams_modify_self : (s.modify p f).streams p = f (s.streams p) :=
  Function.update_self ..

theorem streams_modify_of_ne (h : q ≠ p) : (s.modify p f).streams q = s.streams q :=
  Function.update_of_ne h ..

@[simp] theorem tables_modify : (s.modify p f).tables = s.tables := rfl

@[simp] theorem connected_modify : (s.modify p f).connected = s.connected := rfl

@[simp] theorem connected_addBytesConsumed : (s.addBytesConsumed p n).connected = s.connected := by
  unfold addBytesConsumed
  dsimp only
  split_ifs
  · rfl
  · split <;> rfl
  · rfl
  · split <;> rfl

@[simp] theorem connected_onClose : (s.onClose p).connected = s.connected := by
  unfold onClose
  dsimp only
  rw [connected_addBytesConsumed, connected_modify]

@[simp] theorem connected_closeStreamInner {b : Bool} :
    (s.closeStreamInner id b).connected = s.connected := by
  unfold closeStreamInner
  cases s.findDynamic id with
  | none => rfl
  | some q =>
    dsimp only
    rw [connected_onClose]
    split_ifs <;> rfl

@[simp] theorem connected_reset : (s.reset p).connected = s.connected := by
  unfold reset sendRstStream
  rw [connected_modify]
  split_ifs
  · rfl
  · exact connected_closeStreamInner

@[simp] theorem connected_closeReadSide : (s.closeReadSide p).connected = s.connected := by
  unfold closeReadSide
  dsimp only
  split_ifs
  · rfl
  · rw [connected_closeStreamInner, connected_modify]
  · rfl

@[simp] theorem connected_closeWriteSide : (s.closeWriteSide p).connected = s.connected := by
  have hbase : ∀ t : Session, (t.closeWriteSideBase p).connected = t.connected := by
    intro t
    unfold closeWriteSideBase
    dsimp only
    split_ifs
    · rfl
    · rw [connected_closeStreamInner, connected_modify]
    · rfl
  unfold closeWriteSide
  rw [hbase]
  split_ifs
  · exact connected_reset
  · rfl

@[simp] theorem connected_onConnectionClosed :
    (s.onConnectionClosed p).connected = s.connected := by
  unfold onConnectionClosed
  dsimp only
  rw [connected_closeStreamInner]
  split_ifs
  · rfl
  · rw [connected_closeReadSide, connected_closeWriteSide]

/-- **A connection that is closed stays closed.** -/
theorem connected_closeConnection : s.closeConnection.connected = false := by
  unfold closeConnection
  split_ifs with h
  · refine List.foldlRecOn (motive := fun t : Session => t.connected = false) _ _ rfl ?_
    intro t ht e _
    rw [connected_onConnectionClosed, ht]
  · exact Bool.eq_false_iff.2 h

end Session

/-! ## The primitive changes -/

/-- What a change leaves alone that only sets marks. -/
structure Marks (a b : Stream) : Prop where
  id : b.id = a.id
  isStatic : b.isStatic = a.isStatic
  outgoing : b.outgoing = a.outgoing
  flowController : b.flowController = a.flowController
  buffer : b.sequencer.buffer = a.sequencer.buffer
  closeOffset : b.sequencer.closeOffset = a.sequencer.closeOffset
  readSideClosed : b.readSideClosed = a.readSideClosed
  writeSideClosed : b.writeSideClosed = a.writeSideClosed
  rstReceived : b.rstReceived = a.rstReceived
  finSent : b.finSent = a.finSent
  finReceived : a.finReceived = true → b.finReceived = true

/-- The contexts in which the read side of a stream is closed. -/
def Ended (s : Session) (p : ℕ) : Prop :=
  (s.streams p).sequencer.isClosed = true ∨ (s.streams p).rstReceived = true ∨ s.connected = false

/-- The read side of a stream is closed. -/
def Stream.closeRead (st : Stream) : Stream :=
  { st with readSideClosed := true, sequencer := st.sequencer.releaseBuffer }

/-- The sequencer of a stream has another buffer. -/
def Stream.withBuffer (st : Stream) (b : SequencerBuffer) : Stream :=
  { st with sequencer := { st.sequencer with buffer := b } }

/-- **What an invariant has to be kept by.** -/
structure Rules (A : Stream → Prop) (P : Session → Prop) : Prop where
  mark : ∀ {s p f}, P s → Marks (s.streams p) (f (s.streams p)) → P (s.modify p f)
  closeWrite : ∀ {s p}, P s → P (s.modify p fun st => { st with writeSideClosed := true })
  closeRead : ∀ {s p}, P s → Ended s p → P (s.modify p Stream.closeRead)
  close : ∀ {s p}, P s → (s.streams p).readSideClosed = true →
    (s.streams p).writeSideClosed = true → P (s.closeStreamInner (s.streams p).id false)
  goDown : ∀ {s id}, P s → s.connected = false → P (s.closeStreamInner id false)
  reset : ∀ {s p}, P s →
    ((s.streams p).hasFinalReceivedByteOffset = true → A (s.streams p)) →
    P (s.closeStreamInner (s.streams p).id true)
  disconnect : ∀ {s}, P s → P { s with connected := false }
  read : ∀ {s p n}, P s → n ≤ (s.streams p).sequencer.buffer.readableBytes →
    P ((s.modify p fun st =>
      st.withBuffer (st.sequencer.buffer.markConsumed n)).addBytesConsumed p n)
  flush : ∀ {s p}, P s →
    P ((s.modify p fun st =>
      st.withBuffer st.sequencer.buffer.flushBufferedFrames.2).addBytesConsumed p
        (s.streams p).sequencer.buffer.flushBufferedFrames.1)
  release : ∀ {s p}, P s →
    P (s.modify p fun st => { st with sequencer := st.sequencer.releaseBuffer })
  abort : ∀ {s}, P s → P s.abort

namespace Rules

variable (R : Rules A P)

include R

/-- A stream is reset, if its final offset is not known or `A` allows it. -/
theorem resetStream (h : P s)
    (hA : (s.streams p).hasFinalReceivedByteOffset = true → A (s.streams p)) : P (s.reset p) := by
  refine R.mark ?_ ⟨rfl, rfl, rfl, rfl, rfl, rfl, rfl, rfl, rfl, rfl, fun h => h⟩
  unfold Session.sendRstStream
  split_ifs
  · exact h
  · exact R.reset h hA

theorem closeReadSide (h : P s) (he : Ended s p) : P (s.closeReadSide p) := by
  have hread := R.closeRead h he
  unfold Session.closeReadSide
  dsimp only
  split_ifs with h₁ h₂
  · exact h
  · have hclose := R.close (p := p) hread (by simp [Stream.closeRead])
      (by simpa [Stream.closeRead] using h₂)
    rw [Session.streams_modify_self] at hclose
    exact hclose
  · exact hread

theorem closeWriteSide (h : P s) : P (s.closeWriteSide p) := by
  have hbase : ∀ t, P t → P (t.closeWriteSideBase p) := by
    intro t ht
    have hwrite := R.closeWrite (p := p) ht
    unfold Session.closeWriteSideBase
    dsimp only
    split_ifs with h₁ h₂
    · exact ht
    · have hclose := R.close (p := p) hwrite (by simpa using h₂) (by simp)
      rw [Session.streams_modify_self] at hclose
      exact hclose
    · exact hwrite
  unfold Session.closeWriteSide
  refine hbase _ ?_
  split_ifs with hcancel
  · -- The override resets a stream whose final offset is not known.
    refine R.resetStream h fun hfinal => ?_
    simp only [Bool.and_eq_true, Bool.not_eq_true'] at hcancel
    simp [Stream.hasFinalReceivedByteOffset, hcancel] at hfinal
  · exact h

theorem onFinRead (h : P s) (he : Ended s p) : P (s.onFinRead p) := by
  have hmark : P (s.modify p fun st => { st with finReceived := true }) :=
    R.mark h ⟨rfl, rfl, rfl, rfl, rfl, rfl, rfl, rfl, rfl, rfl, fun _ => rfl⟩
  refine R.closeReadSide hmark ?_
  simpa [Ended] using he

theorem onConnectionClosed (h : P s) (hc : s.connected = false) : P (s.onConnectionClosed p) := by
  have hclosed : P ((s.closeWriteSide p).closeReadSide p) :=
    R.closeReadSide (R.closeWriteSide h) (.inr (.inr (by simpa using hc)))
  unfold Session.onConnectionClosed
  dsimp only
  split_ifs
  · exact R.goDown h hc
  · exact R.goDown hclosed (by simpa using hc)

theorem closeConnection_of_disconnected (hc : s.connected = true)
    (h : P { s with connected := false }) : P s.closeConnection := by
  unfold Session.closeConnection
  rw [if_pos hc]
  refine (List.foldlRecOn (motive := fun t : Session => P t ∧ t.connected = false) _ _
    ⟨h, rfl⟩ ?_).1
  intro t ht e _
  exact ⟨R.onConnectionClosed ht.1 ht.2, by rw [Session.connected_onConnectionClosed, ht.2]⟩

/-- **The connection is closed**, with every stream. -/
theorem closeConnection (h : P s) : P s.closeConnection := by
  by_cases hc : s.connected = true
  · exact R.closeConnection_of_disconnected hc (R.disconnect h)
  · unfold Session.closeConnection
    rwa [if_neg hc]

/-! ## Reading -/

/-- The application reads, no more than is readable. -/
theorem readBytes (h : P s) (hn : n ≤ (s.streams p).sequencer.buffer.readableBytes) :
    P (s.markConsumed p n) := by
  unfold Session.markConsumed
  dsimp only
  rw [if_neg (Nat.not_lt.2 hn)]
  exact R.read h hn

theorem onDataAvailable (h : P s) : P (s.onDataAvailable p r) := by
  unfold Session.onDataAvailable
  dsimp only
  have hfin : ∀ t, P t →
      P (if r.readFin && (t.streams p).sequencer.isClosed then t.onFinRead p else t) := by
    intro t ht
    split_ifs with h₁
    · exact R.onFinRead ht (.inl (Bool.and_eq_true _ _ ▸ h₁).2)
    · exact ht
  refine hfin _ ?_
  split_ifs
  · exact h
  · exact R.readBytes h (Nat.min_le_right _ _)

theorem maybeCloseStream (h : P s) : P (s.maybeCloseStream p r) := by
  unfold Session.maybeCloseStream
  dsimp only
  split_ifs with h₁ h₂
  · exact h
  · refine R.release (R.onFinRead h (.inl ?_))
    simp only [Bool.or_eq_true, Bool.not_eq_true', not_or, Bool.not_eq_false] at h₁
    exact h₁.2
  · exact R.release (R.onDataAvailable h)

theorem flushBufferedFrames (h : P s) : P (s.flushBufferedFrames p r) :=
  R.maybeCloseStream (R.flush h)

theorem setUnblocked (h : P s) : P (s.setUnblocked p r) := by
  have hmark : P (s.modify p fun st =>
      { st with sequencer := { st.sequencer with blocked := false } }) :=
    R.mark h ⟨rfl, rfl, rfl, rfl, rfl, rfl, rfl, rfl, rfl, rfl, fun h => h⟩
  unfold Session.setUnblocked
  dsimp only
  split_ifs
  · exact R.onDataAvailable hmark
  · exact hmark

theorem stopReading (h : P s) : P (s.stopReading p r) := by
  have hflush : ∀ t, P t → P (if (t.streams p).sequencer.ignoreReadData then t
      else (t.modify p fun st =>
        { st with sequencer := { st.sequencer with ignoreReadData := true } }).flushBufferedFrames
          p r) := by
    intro t ht
    split_ifs
    · exact ht
    · exact R.flushBufferedFrames
        (R.mark ht ⟨rfl, rfl, rfl, rfl, rfl, rfl, rfl, rfl, rfl, rfl, fun h => h⟩)
  unfold Session.stopReading
  dsimp only
  refine hflush _ ?_
  split_ifs with hcancel
  · refine R.resetStream h fun hfinal => ?_
    simp only [Bool.and_eq_true, Bool.not_eq_true'] at hcancel
    simp [Stream.hasFinalReceivedByteOffset, hcancel] at hfinal
  · exact h

theorem consumeHeaderList (h : P s) : P (s.consumeHeaderList p r) := by
  have hmark : P (s.modify p fun st => { st with headerListEmpty := true }) :=
    R.mark h ⟨rfl, rfl, rfl, rfl, rfl, rfl, rfl, rfl, rfl, rfl, fun h => h⟩
  unfold Session.consumeHeaderList
  dsimp only
  split_ifs
  · exact R.setUnblocked hmark
  · exact hmark

end Rules

/-! ## Invariants that do not look at what is received -/

/-- What receiving does not change about a stream. -/
structure Similar (a b : Stream) : Prop where
  id : b.id = a.id
  isStatic : b.isStatic = a.isStatic
  outgoing : b.outgoing = a.outgoing
  readSideClosed : a.readSideClosed = true → b.readSideClosed = true
  writeSideClosed : a.writeSideClosed = true → b.writeSideClosed = true
  finSent : b.finSent = a.finSent

namespace Similar

variable {a b c : Stream}

theorem refl (a : Stream) : Similar a a :=
  ⟨rfl, rfl, rfl, fun h => h, fun h => h, rfl⟩

theorem trans (h : Similar a b) (h' : Similar b c) : Similar a c where
  id := h'.id.trans h.id
  isStatic := h'.isStatic.trans h.isStatic
  outgoing := h'.outgoing.trans h.outgoing
  readSideClosed := fun ha => h'.readSideClosed (h.readSideClosed ha)
  writeSideClosed := fun ha => h'.writeSideClosed (h.writeSideClosed ha)
  finSent := h'.finSent.trans h.finSent

theorem of_marks (h : Marks a b) : Similar a b :=
  ⟨h.id, h.isStatic, h.outgoing, fun ha => h.readSideClosed.trans ha,
    fun ha => h.writeSideClosed.trans ha, h.finSent⟩

end Similar

/-- The streams, and the receiving half of the controller of the session, are replaced, and
a `DCHECK` may have failed. -/
def Session.received (s : Session) (g : ℕ → Stream) (c : ReceiveController) (b : Bool) : Session :=
  { s with streams := g, flowController := c, aborted := b }

theorem similar_modify (h : Similar (s.streams p) (f (s.streams p))) (q : ℕ) :
    Similar (s.streams q) ((s.modify p f).streams q) := by
  rcases eq_or_ne q p with rfl | hne
  · rwa [Session.streams_modify_self]
  · rw [Session.streams_modify_of_ne hne]
    exact Similar.refl _

/-- What closing does not change about a stream. -/
structure Closes (a b : Stream) : Prop extends Similar a b where
  closeOffset : b.sequencer.closeOffset = a.sequencer.closeOffset
  finReceived : b.finReceived = a.finReceived
  rstReceived : b.rstReceived = a.rstReceived
  headersDecompressed : b.headersDecompressed = a.headersDecompressed

namespace Closes

theorem refl (a : Stream) : Closes a a := ⟨Similar.refl a, rfl, rfl, rfl, rfl⟩

theorem trans {a b c : Stream} (h : Closes a b) (h' : Closes b c) : Closes a c :=
  ⟨h.toSimilar.trans h'.toSimilar, h'.closeOffset.trans h.closeOffset,
    h'.finReceived.trans h.finReceived, h'.rstReceived.trans h.rstReceived,
    h'.headersDecompressed.trans h.headersDecompressed⟩

theorem modify (h : Closes (s.streams p) (f (s.streams p))) (q : ℕ) :
    Closes (s.streams q) ((s.modify p f).streams q) := by
  rcases eq_or_ne q p with rfl | hne
  · rwa [Session.streams_modify_self]
  · rw [Session.streams_modify_of_ne hne]
    exact refl _

end Closes

/-- What consuming does not change about a stream. -/
structure Consumes (a b : Stream) : Prop extends Closes a b where
  readSideClosed_eq : b.readSideClosed = a.readSideClosed
  writeSideClosed_eq : b.writeSideClosed = a.writeSideClosed

/-- Consuming changes flow controllers only. -/
theorem addBytesConsumed_received : ∃ g c b, s.addBytesConsumed p n = s.received g c b ∧
    ∀ q, Consumes (s.streams q) (g q) := by
  have hself : ∀ q, Consumes (s.streams q) (s.streams q) :=
    fun q => ⟨Closes.refl _, rfl, rfl⟩
  have hmod : ∀ (c : ReceiveController) (q : ℕ), Consumes (s.streams q)
      ((s.modify p fun st => { st with flowController := c }).streams q) := by
    intro c q
    rcases eq_or_ne q p with rfl | hne
    · rw [Session.streams_modify_self]
      exact ⟨⟨⟨rfl, rfl, rfl, fun h => h, fun h => h, rfl⟩, rfl, rfl, rfl, rfl⟩, rfl, rfl⟩
    · rw [Session.streams_modify_of_ne hne]
      exact hself q
  unfold Session.addBytesConsumed
  dsimp only
  split_ifs
  · exact ⟨_, _, _, rfl, hself⟩
  · cases ((s.streams p).flowController.addBytesConsumed s.environment n).2 with
    | none => exact ⟨_, _, _, rfl, hmod _⟩
    | some window => exact ⟨_, _, _, rfl, hmod _⟩
  · exact ⟨_, _, _, rfl, hself⟩
  · cases ((s.streams p).flowController.addBytesConsumed s.environment n).2 with
    | none => exact ⟨_, _, _, rfl, hmod _⟩
    | some window => exact ⟨_, _, _, rfl, hmod _⟩

/-- `OnClose` closes both sides. -/
theorem onClose_received : ∃ g c b, s.onClose p = s.received g c b ∧
    (∀ q, Closes (s.streams q) (g q)) ∧
    (g p).readSideClosed = true ∧ (g p).writeSideClosed = true := by
  let f : Stream → Stream := fun st =>
    { st with
      readSideClosed := true
      sequencer := if st.readSideClosed then st.sequencer else st.sequencer.releaseBuffer
      writeSideClosed := true
      rstSent := st.rstSent || !st.finSent ||
        (s.isServer && !st.finReceived && !st.rstReceived && st.sequencer.ignoreReadData) }
  have hf : ∀ q, Closes (s.streams q) ((s.modify p f).streams q) :=
    Closes.modify ⟨⟨rfl, rfl, rfl, fun _ => rfl, fun _ => rfl, rfl⟩,
      by dsimp only [f]; split_ifs <;> rfl, rfl, rfl, rfl⟩
  have hp : (s.modify p f).streams p = f (s.streams p) := Session.streams_modify_self
  obtain ⟨g, c, b, heq, hg⟩ := addBytesConsumed_received (s := s.modify p f) (p := p)
    (n := wrapSub (s.streams p).flowController.highestReceivedByteOffset
      (s.streams p).flowController.bytesConsumed)
  refine ⟨g, c, b, heq, fun q => (hf q).trans (hg q).toCloses, ?_, ?_⟩
  · rw [(hg p).readSideClosed_eq, hp]
  · rw [(hg p).writeSideClosed_eq, hp]

/-- **Closing a stream that is open**: it leaves the tables, and both sides are closed. -/
theorem closeStreamInner_received {b : Bool} (hq : s.findDynamic id = some q) :
    ∃ g c failed offset, s.closeStreamInner id b =
      { s with tables := s.tables.closeStream id offset }.received g c failed ∧
      (∀ x, Closes (s.streams x) (g x)) ∧
      (g q).readSideClosed = true ∧ (g q).writeSideClosed = true := by
  unfold Session.closeStreamInner
  rw [hq]
  dsimp only
  generalize (if (s.streams q).hasFinalReceivedByteOffset = true then none
    else some (s.streams q).flowController.highestReceivedByteOffset) = offset
  split_ifs
  · obtain ⟨g, c, failed, heq, hg, hsides⟩ := onClose_received (p := q)
      (s := { s with tables := s.tables.closeStream id offset }.modify q
        fun st => { st with rstSent := true })
    refine ⟨g, c, failed, offset, heq, fun x => Closes.trans ?_ (hg x), hsides⟩
    exact Closes.modify (s := { s with tables := s.tables.closeStream id offset })
      ⟨⟨rfl, rfl, rfl, fun h => h, fun h => h, rfl⟩, rfl, rfl, rfl, rfl⟩ x
  · obtain ⟨g, c, failed, heq, hg, hsides⟩ := onClose_received (p := q)
      (s := { s with tables := s.tables.closeStream id offset })
    exact ⟨g, c, failed, offset, heq, hg, hsides⟩

/-- **An invariant that does not look at what is received.** -/
structure Indifferent (P : Session → Prop) : Prop where
  change : ∀ {s g c b}, P s → (∀ q, Similar (s.streams q) (g q)) → P (s.received g c b)
  close : ∀ {s id b}, P s → P (s.closeStreamInner id b)
  disconnect : ∀ {s}, P s → P { s with connected := false }
  drain : ∀ {s id}, P s → id ∈ s.tables.dynamicIds →
    P { s with tables := s.tables.streamDraining id }

namespace Indifferent

variable {m : StreamFrame} (I : Indifferent P)

include I

theorem modify (h : P s) (hf : Similar (s.streams p) (f (s.streams p))) : P (s.modify p f) :=
  I.change (c := s.flowController) (b := s.aborted) h (similar_modify hf)

theorem abort (h : P s) : P s.abort :=
  I.change (c := s.flowController) (b := true) h fun _ => Similar.refl _

theorem streamDraining (h : P s) : P (s.streamDraining id) := by
  unfold Session.streamDraining
  split_ifs with hid
  · exact I.drain h hid
  · exact I.abort h

theorem addBytesConsumed (h : P s) : P (s.addBytesConsumed p n) := by
  obtain ⟨g, c, b, heq, hg⟩ := addBytesConsumed_received (s := s) (p := p) (n := n)
  rw [heq]
  exact I.change h fun q => (hg q).toSimilar

/-- Such an invariant has the rules for closing and reading. -/
theorem rules : Rules A P where
  mark := fun h hf => I.modify h (Similar.of_marks hf)
  closeWrite := fun h => I.modify h ⟨rfl, rfl, rfl, fun h => h, fun _ => rfl, rfl⟩
  closeRead := fun h _ => I.modify h ⟨rfl, rfl, rfl, fun _ => rfl, fun h => h, rfl⟩
  close := fun h _ _ => I.close h
  goDown := fun h _ => I.close h
  reset := fun h _ => I.close h
  disconnect := fun h => I.disconnect h
  read := fun h _ =>
    I.addBytesConsumed (I.modify h ⟨rfl, rfl, rfl, fun h => h, fun h => h, rfl⟩)
  flush := fun h =>
    I.addBytesConsumed (I.modify h ⟨rfl, rfl, rfl, fun h => h, fun h => h, rfl⟩)
  release := fun h => I.modify h ⟨rfl, rfl, rfl, fun h => h, fun h => h, rfl⟩
  abort := fun h => I.abort h

theorem reset (h : P s) : P (s.reset p) :=
  (I.rules (A := fun _ => True)).resetStream h fun _ => trivial

theorem closeConnection (h : P s) : P s.closeConnection :=
  (I.rules (A := fun _ => True)).closeConnection h

theorem closeReadSide (h : P s) : P (s.closeReadSide p) := by
  have hread : P (s.modify p Stream.closeRead) :=
    I.modify h ⟨rfl, rfl, rfl, fun _ => rfl, fun h => h, rfl⟩
  unfold Session.closeReadSide
  dsimp only
  split_ifs
  · exact h
  · exact I.close hread
  · exact hread

theorem closeWriteSide (h : P s) : P (s.closeWriteSide p) :=
  (I.rules (A := fun _ => True)).closeWriteSide h

theorem onDataAvailable (h : P s) : P (s.onDataAvailable p r) :=
  (I.rules (A := fun _ => True)).onDataAvailable h

theorem markConsumed (h : P s) : P (s.markConsumed p n) := by
  unfold Session.markConsumed
  dsimp only
  split_ifs
  · exact I.reset h
  · exact I.addBytesConsumed (I.modify h ⟨rfl, rfl, rfl, fun h => h, fun h => h, rfl⟩)

theorem closeStreamAtOffset (h : P s) : P (s.closeStreamAtOffset p n r) := by
  unfold Session.closeStreamAtOffset
  dsimp only
  split_ifs
  · exact I.reset h
  · exact (I.rules (A := fun _ => True)).maybeCloseStream
      (I.modify h ⟨rfl, rfl, rfl, fun h => h, fun h => h, rfl⟩)

theorem onStreamData (h : P s) : P (s.onStreamData p m r) := by
  unfold Session.onStreamData
  cases (s.streams p).sequencer.buffer.onStreamData m.offset.toNat m.dataLength.toNat with
  | error e => exact I.closeConnection h
  | duplicate => exact h
  | invalid => exact I.modify h ⟨rfl, rfl, rfl, fun h => h, fun h => h, rfl⟩
  | buffered b =>
    have hb : P (s.modify p fun st =>
        { st with sequencer := { st.sequencer with buffer := b } }) :=
      I.modify h ⟨rfl, rfl, rfl, fun h => h, fun h => h, rfl⟩
    dsimp only
    split_ifs
    · exact hb
    · exact (I.rules (A := fun _ => True)).flushBufferedFrames hb
    · exact I.onDataAvailable hb
    · exact hb

theorem sequencerOnStreamFrame (h : P s) : P (s.sequencerOnStreamFrame p m r) := by
  have hclose : P (if m.fin then s.closeStreamAtOffset p m.stop r else s) := by
    split_ifs
    · exact I.closeStreamAtOffset h
    · exact h
  unfold Session.sequencerOnStreamFrame
  dsimp only
  generalize (if m.fin then s.closeStreamAtOffset p m.stop r else s) = t at hclose ⊢
  split_ifs
  · exact hclose
  · exact I.onStreamData hclose

theorem increaseHighestReceivedOffset (h : P s) : P (s.increaseHighestReceivedOffset p n) := by
  have hmod : P (s.modify p fun st =>
      { st with flowController := (s.streams p).flowController.updateHighestReceivedOffset n }) :=
    I.modify h ⟨rfl, rfl, rfl, fun h => h, fun h => h, rfl⟩
  unfold Session.increaseHighestReceivedOffset
  dsimp only
  split_ifs
  · exact hmod
  · exact I.change (b := s.aborted) hmod fun q => Similar.refl _

/-- A frame for a stream: with a FIN, the stream may be marked as draining. -/
theorem streamOnStreamFrame (h : P s) : P (s.streamOnStreamFrame p m r) := by
  have hopen : P (s.assertOpen p) := by
    unfold Session.assertOpen
    split_ifs
    · exact I.abort h
    · exact h
  unfold Session.streamOnStreamFrame
  generalize s.assertOpen p = s at hopen ⊢
  have hfin : P (if m.fin then s.receiveFin p else s) := by
    have hmark : P (s.modify p fun st => { st with finReceived := true }) :=
      I.modify hopen ⟨rfl, rfl, rfl, fun h => h, fun h => h, rfl⟩
    split_ifs
    · unfold Session.receiveFin
      dsimp only
      split_ifs
      · exact I.streamDraining hmark
      · exact hmark
    · exact hopen
  dsimp only
  generalize (if m.fin then s.receiveFin p else s) = t at hfin ⊢
  split_ifs
  · exact hfin
  · exact I.closeConnection (I.increaseHighestReceivedOffset hfin)
  · exact I.sequencerOnStreamFrame (I.increaseHighestReceivedOffset hfin)
  · exact I.sequencerOnStreamFrame hfin

theorem onStreamReset (h : P s) (m : RstStreamFrame) : P (s.onStreamReset p m) := by
  have hmark : P (s.modify p fun st => { st with rstReceived := true }) :=
    I.modify h ⟨rfl, rfl, rfl, fun h => h, fun h => h, rfl⟩
  have hraise : ∀ t, P t → P (t.maybeIncreaseHighestReceivedOffset p m.byteOffset.toNat) := by
    intro t ht
    unfold Session.maybeIncreaseHighestReceivedOffset
    split_ifs
    · exact ht
    · exact I.increaseHighestReceivedOffset ht
  unfold Session.onStreamReset
  dsimp only
  split_ifs
  · exact I.closeWriteSide (hraise _ hmark)
  · exact I.closeReadSide (I.closeWriteSide (hraise _ hmark))

theorem onInitialHeadersComplete {fin : Bool} {headers : List Header} (h : P s) :
    P (s.onInitialHeadersComplete p fin headers r) := by
  have hmark : P (s.modify p fun st =>
      { st with headersDecompressed := true, headerListEmpty := headers.isEmpty }) :=
    I.modify h ⟨rfl, rfl, rfl, fun h => h, fun h => h, rfl⟩
  have hread : ∀ t, P t →
      P (if (t.streams p).finishedReadingHeaders then t.setUnblocked p r else t) := by
    intro t ht
    split_ifs
    · exact (I.rules (A := fun _ => True)).setUnblocked ht
    · exact ht
  unfold Session.onInitialHeadersComplete
  dsimp only
  refine hread _ ?_
  split_ifs
  · exact I.streamOnStreamFrame hmark
  · exact hmark

theorem onTrailingHeadersComplete {fin : Bool} {headers : List Header} (h : P s) :
    P (s.onTrailingHeadersComplete p fin headers r) := by
  unfold Session.onTrailingHeadersComplete
  split_ifs
  · exact I.closeConnection h
  · exact I.closeConnection h
  · cases copyAndValidateTrailers none headers with
    | none => exact I.closeConnection h
    | some offset =>
      exact I.streamOnStreamFrame (I.modify h ⟨rfl, rfl, rfl, fun h => h, fun h => h, rfl⟩)

/-- A header block for a stream.  If it was too large, the stream is reset. -/
theorem streamOnStreamHeaderList {fin : Bool} {headers : List Header} (h : P s) :
    P (s.streamOnStreamHeaderList p fin headers r) := by
  have hreset : P (if headers.isEmpty then s.reset p else s) := by
    split_ifs
    · exact I.reset h
    · exact h
  unfold Session.streamOnStreamHeaderList
  dsimp only
  split_ifs at hreset ⊢
  all_goals first
    | exact hreset
    | exact I.onInitialHeadersComplete hreset
    | exact I.onTrailingHeadersComplete hreset

end Indifferent

/-- What receiving and closing do not change. -/
structure Unsent (s t : Session) : Prop where
  similar : ∀ q, Similar (s.streams q) (t.streams q)
  numStreams : t.numStreams = s.numStreams
  sendController : t.sendController = s.sendController
  sentTooMuch : t.sentTooMuch = s.sentTooMuch

theorem Unsent.refl (s : Session) : Unsent s s := ⟨fun _ => Similar.refl _, rfl, rfl, rfl⟩

/-- Receiving and closing change nothing about what has been sent. -/
theorem indifferent_unsent (s : Session) : Indifferent (Unsent s) where
  change := fun h hg => ⟨fun q => (h.similar q).trans (hg q), h.numStreams, h.sendController,
    h.sentTooMuch⟩
  close := by
    intro t id b h
    cases hp : t.findDynamic id with
    | none =>
      unfold Session.closeStreamInner
      rw [hp]
      exact h
    | some p =>
      obtain ⟨g, c, failed, offset, heq, hg, -⟩ := closeStreamInner_received (b := b) hp
      rw [heq]
      exact ⟨fun q => (h.similar q).trans (hg q).toSimilar, h.numStreams, h.sendController,
        h.sentTooMuch⟩
  disconnect := fun h => ⟨h.similar, h.numStreams, h.sendController, h.sentTooMuch⟩
  drain := fun h _ => ⟨h.similar, h.numStreams, h.sendController, h.sentTooMuch⟩

theorem unsent_closeStreamInner {b : Bool} : Unsent s (s.closeStreamInner id b) :=
  (indifferent_unsent s).close (Unsent.refl s)

theorem unsent_closeConnection : Unsent s s.closeConnection :=
  (indifferent_unsent s).closeConnection (Unsent.refl s)

end Streams
end QuicNs3
