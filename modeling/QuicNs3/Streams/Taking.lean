/-
# Rules for frames

`Taking E A Q` is what an invariant `Q` of an open connection has to be kept by when
frames are received, over what `Keeps A Q` says of closing, reading and writing: the
offset at which a stream is closed is set, the highest received offset is raised within
the windows, and data below it is buffered.  `E k n fin` says that the peer may send up
to the offset `n` on the stream with the key `k`, and may end it there if `fin`.

What a frame marks first, that a FIN or a reset was received, is left to the invariant:
the theorems begin behind it.
-/

import QuicNs3.Streams.Received

namespace QuicNs3
namespace Streams

open Lib

variable {E : Bool × ℕ → ℕ → Bool → Prop} {A : Stream → Prop} {Q : Session → Prop}
  {s s₀ t : Session} {p id n : ℕ} {m : StreamFrame} {r : Reaction} {fin : Bool}
  {headers : List Header}

/-- Whether a stream is static, and its id. -/
def Stream.key (st : Stream) : Bool × ℕ := (st.isStatic, st.id)

theorem Similar.key {a b : Stream} (h : Similar a b) : b.key = a.key := by
  unfold Stream.key
  rw [h.isStatic, h.id]

/-- The offset leaves room for a window behind it. -/
def Below (n : ℕ) : Prop := n + kSessionReceiveWindowLimit < 2 ^ 64

instance : Decidable (Below n) := Nat.decLt _ _

/-- **The offset is in the windows** of the stream and, if the stream counts for it, of the
session. -/
def InWindows (s : Session) (p n : ℕ) : Prop :=
  n ≤ (s.streams p).flowController.receiveWindowOffset ∧
    ((s.streams p).isStatic = false → s.flowController.highestReceivedByteOffset +
      (n - (s.streams p).flowController.highestReceivedByteOffset) ≤
        s.flowController.receiveWindowOffset)

instance : Decidable (InWindows s p n) := instDecidableAnd

/-- **What an invariant has to be kept by for frames.** -/
structure Taking (E : Bool × ℕ → ℕ → Bool → Prop) (A : Stream → Prop) (Q : Session → Prop) : Prop
    extends Keeps A Q where
  received : ∀ {s}, Q s → Received s
  mono : ∀ {k n}, E k n true → E k n false
  closeOffset : ∀ {s p n}, Formed s → Q s → E (s.streams p).key n true →
    Q (s.modify p fun st => { st with sequencer := { st.sequencer with closeOffset := n } })
  raise : ∀ {s p n}, Formed s → Q s → (s.streams p).readSideClosed = false →
    (s.streams p).flowController.highestReceivedByteOffset < n → InWindows s p n → Below n →
    Below s.flowController.receiveWindowOffset → E (s.streams p).key n false →
    Q (s.increaseHighestReceivedOffset p n)
  store : ∀ {s p b}, Formed s → Q s → (s.streams p).readSideClosed = false →
    b.Arranged (s.streams p).flowController.highestReceivedByteOffset →
    b.totalBytesRead = (s.streams p).sequencer.buffer.totalBytesRead →
    Q (s.modify p fun st => st.withBuffer b)

/-! ## Connections that are closed -/

theorem WhileOpen.closeConnection (hF : Formed s) : WhileOpen Q s.closeConnection :=
  ⟨indifferent_formed.closeConnection hF,
    fun hc => absurd (Session.connected_closeConnection.symm.trans hc) (by decide)⟩

theorem WhileOpen.of_down (h : Formed s ∧ s.connected = false) : WhileOpen Q s :=
  ⟨h.1, fun hc => absurd (h.2.symm.trans hc) (by decide)⟩

/-- Nothing opens a connection again. -/
theorem indifferent_down : Indifferent fun s => Formed s ∧ s.connected = false where
  change := fun h hg => ⟨indifferent_formed.change h.1 hg, h.2⟩
  close := fun h => ⟨indifferent_formed.close h.1, Session.connected_closeStreamInner.trans h.2⟩
  disconnect := fun h => ⟨indifferent_formed.disconnect h.1, rfl⟩
  drain := fun h hid => ⟨indifferent_formed.drain h.1 hid, h.2⟩

/-! ## Raising the highest offset -/

/-- **What raising does** within the windows. -/
theorem increaseHighestReceivedOffset_spec (hst : (s.streams p).flowController.Sound)
    (hs : s.flowController.Sound)
    (hlt : (s.streams p).flowController.highestReceivedByteOffset < n) (hin : InWindows s p n)
    (hn : Below n) (hroom : Below s.flowController.receiveWindowOffset) :
    ∃ c C : ReceiveController, s.increaseHighestReceivedOffset p n =
      s.received (Function.update s.streams p ((s.streams p).withController c)) C s.aborted ∧
      (c.Sound ∧ c.highestReceivedByteOffset = n ∧
        c.bytesConsumed = (s.streams p).flowController.bytesConsumed) ∧
      C.Sound ∧ C.highestReceivedByteOffset = s.flowController.highestReceivedByteOffset +
          (if (s.streams p).isStatic then 0
            else n - (s.streams p).flowController.highestReceivedByteOffset) ∧
        C.bytesConsumed = s.flowController.bytesConsumed := by
  unfold Below at hn hroom
  obtain ⟨hc₁, hc₂, hc₃⟩ := hst.raise hlt hin.1 hn
  have hsub : wrapSub n (s.streams p).flowController.highestReceivedByteOffset =
      n - (s.streams p).flowController.highestReceivedByteOffset :=
    wrapSub_eq hlt.le (by omega)
  unfold Session.increaseHighestReceivedOffset
  dsimp only
  by_cases hstatic : (s.streams p).isStatic = true
  · simp only [if_pos hstatic]
    exact ⟨_, _, rfl, ⟨hc₁, hc₃, hc₂⟩, hs, rfl, rfl⟩
  · simp only [if_neg hstatic]
    have hle := hin.2 (Bool.eq_false_iff.2 hstatic)
    have hadd : wrapAdd s.flowController.highestReceivedByteOffset
        (n - (s.streams p).flowController.highestReceivedByteOffset) =
        s.flowController.highestReceivedByteOffset +
          (n - (s.streams p).flowController.highestReceivedByteOffset) := wrapAdd_eq (by omega)
    obtain ⟨hC₁, hC₂, hC₃⟩ := hs.raise (n := s.flowController.highestReceivedByteOffset +
      (n - (s.streams p).flowController.highestReceivedByteOffset)) (by omega) hle (by omega)
    refine ⟨_, _, ?_, ⟨hc₁, hc₃, hc₂⟩, hC₁, hC₃, hC₂⟩
    rw [← hadd, ← hsub]
    rfl

/-- The check that comes after raising. -/
theorem ReceiveController.le_of_not_violation {c : ReceiveController}
    (h : (c.updateHighestReceivedOffset n).flowControlViolation = false) :
    n ≤ c.receiveWindowOffset := by
  unfold updateHighestReceivedOffset flowControlViolation at h
  split_ifs at h with hle
  · exact hle.trans (Nat.not_lt.1 (of_decide_eq_false h))
  · exact Nat.not_lt.1 (of_decide_eq_false h)

/-- **Where the check finds no violation, the offset was in the windows.**  The window of
the stream keeps the sum for the session from wrapping. -/
theorem inWindows_of_not_violation (hst : (s.streams p).flowController.Sound)
    (hs : s.flowController.Sound)
    (hlt : (s.streams p).flowController.highestReceivedByteOffset < n) (hn : n < 2 ^ 64)
    (hroom : Below s.flowController.receiveWindowOffset)
    (hv : (s.increaseHighestReceivedOffset p n).flowControlViolation p = false) :
    InWindows s p n := by
  unfold Below at hroom
  unfold Session.flowControlViolation Session.increaseHighestReceivedOffset at hv
  dsimp only at hv
  have hsub : wrapSub n (s.streams p).flowController.highestReceivedByteOffset =
      n - (s.streams p).flowController.highestReceivedByteOffset :=
    wrapSub_eq hlt.le (by omega)
  by_cases hstatic : (s.streams p).isStatic = true
  · rw [if_pos hstatic, Session.streams_modify_self, Bool.or_eq_false_iff] at hv
    refine ⟨ReceiveController.le_of_not_violation hv.1, fun h => ?_⟩
    exact absurd (h.symm.trans hstatic) (by decide)
  · rw [if_neg hstatic, Bool.or_eq_false_iff] at hv
    have hstream : n ≤ (s.streams p).flowController.receiveWindowOffset := by
      refine ReceiveController.le_of_not_violation ?_
      rw [← hv.1, Session.streams_modify_self]
    have h₁ := hst.window_le
    have h₂ := hst.size_le
    have h₃ := hst.limit_le
    have h₄ := hst.consumed_le
    have h₅ := hs.highest_le
    refine ⟨hstream, fun _ => ?_⟩
    have hle := ReceiveController.le_of_not_violation hv.2
    change wrapAdd s.flowController.highestReceivedByteOffset _ ≤
      s.flowController.receiveWindowOffset at hle
    rw [hsub, wrapAdd_eq (by omega)] at hle
    exact hle

/-! ## Data frames -/

namespace Session

/-- A FIN is marked, if the frame has one. -/
def noteFin (s : Session) (p : ℕ) (fin : Bool) : Session := if fin then s.receiveFin p else s

theorem marks_noteFin : Marks (s.streams p) ((s.noteFin p fin).streams p) := by
  have hmark : Marks (s.streams p)
      ((s.modify p fun st => { st with finReceived := true }).streams p) := by
    rw [streams_modify_self]
    exact ⟨rfl, rfl, rfl, rfl, rfl, rfl, rfl, rfl, rfl, rfl, fun _ => rfl⟩
  unfold noteFin receiveFin streamDraining
  dsimp only
  split_ifs
  · exact hmark
  · exact hmark
  · exact hmark
  · exact ⟨rfl, rfl, rfl, rfl, rfl, rfl, rfl, rfl, rfl, rfl, fun h => h⟩

theorem connected_noteFin : (s.noteFin p fin).connected = s.connected := by
  unfold noteFin receiveFin streamDraining
  dsimp only
  split_ifs <;> rfl

theorem numStreams_noteFin : (s.noteFin p fin).numStreams = s.numStreams := by
  unfold noteFin receiveFin streamDraining
  dsimp only
  split_ifs <;> rfl

theorem flowController_noteFin (s : Session) (p : ℕ) (fin : Bool) :
    (s.noteFin p fin).flowController = s.flowController := by
  unfold noteFin receiveFin streamDraining
  dsimp only
  split_ifs <;> rfl

theorem streamDraining_abort : s.abort.streamDraining id = (s.streamDraining id).abort := by
  by_cases hid : id ∈ s.tables.dynamicIds
  · rw [streamDraining, streamDraining, if_pos hid]
    exact if_pos hid
  · rw [streamDraining, streamDraining, if_neg hid]
    exact if_neg hid

theorem noteFin_abort : s.abort.noteFin p fin = (s.noteFin p fin).abort := by
  cases fin with
  | false => rfl
  | true =>
    let t := s.modify p fun st => { st with finReceived := true }
    show (if (t.streams p).finSent then t.abort.streamDraining (t.streams p).id else t.abort) =
      (if (t.streams p).finSent then t.streamDraining (t.streams p).id else t).abort
    rw [streamDraining_abort]
    split_ifs <;> rfl

theorem streams_assertOpen : (s.assertOpen p).streams = s.streams := by
  unfold assertOpen
  split_ifs <;> rfl

theorem connected_assertOpen : (s.assertOpen p).connected = s.connected := by
  unfold assertOpen
  split_ifs <;> rfl

theorem numStreams_assertOpen : (s.assertOpen p).numStreams = s.numStreams := by
  unfold assertOpen
  split_ifs <;> rfl

theorem flowController_assertOpen : (s.assertOpen p).flowController = s.flowController := by
  unfold assertOpen
  split_ifs <;> rfl

/-- A reset of the peer is marked before the highest offset is raised. -/
theorem peerReset_marks (s : Session) (p n : ℕ) :
    let t := (s.modify p fun st =>
      { st with rstReceived := true }).maybeIncreaseHighestReceivedOffset p n
    (t.streams p).rstReceived = true ∧ t.tables = s.tables := by
  unfold maybeIncreaseHighestReceivedOffset increaseHighestReceivedOffset
  dsimp only
  split_ifs
  · rw [streams_modify_self]
    exact ⟨rfl, rfl⟩
  · rw [streams_modify_self, streams_modify_self]
    exact ⟨rfl, rfl⟩
  · refine ⟨?_, rfl⟩
    rw [streams_modify_self, streams_modify_self]

theorem streamOnStreamFrame_eq : s.streamOnStreamFrame p m r =
    let u := (s.assertOpen p).noteFin p m.fin
    if (u.streams p).readSideClosed then u
    else if m.dataLength ≠ 0 ∧
        (u.streams p).flowController.highestReceivedByteOffset < m.stop then
      if (u.increaseHighestReceivedOffset p m.stop).flowControlViolation p then
        (u.increaseHighestReceivedOffset p m.stop).closeConnection
      else (u.increaseHighestReceivedOffset p m.stop).sequencerOnStreamFrame p m r
    else u.sequencerOnStreamFrame p m r := rfl

end Session

namespace Taking

variable (T : Taking E A Q)

include T

/-- Data below the highest offset received is buffered, if the stream is read. -/
theorem onStreamData (h : WhileOpen Q s) (hr : (s.streams p).readSideClosed = false)
    (hstop : m.dataLength ≠ 0 → m.offset.toNat + m.dataLength.toNat ≤
      (s.streams p).flowController.highestReceivedByteOffset) :
    WhileOpen Q (s.onStreamData p m r) := by
  by_cases hc : s.connected = true
  swap
  · exact .of_down (indifferent_down.onStreamData ⟨h.1, Bool.eq_false_iff.2 hc⟩)
  have U := T.toKeeps.unwritten
  have hst := (T.received (h.2 hc)).stream p
  unfold Session.onStreamData
  cases hd : (s.streams p).sequencer.buffer.onStreamData m.offset.toNat m.dataLength.toNat with
  | error e => exact .closeConnection h.1
  | duplicate => exact h
  | invalid => exact U.mark h ⟨rfl, rfl, rfl, rfl, rfl, rfl, rfl, rfl, rfl, rfl, fun h => h⟩
  | buffered b =>
    have hsize : m.dataLength.toNat ≠ 0 := by
      intro h0
      unfold SequencerBuffer.onStreamData at hd
      dsimp only at hd
      rw [if_pos h0] at hd
      exact absurd hd (by simp)
    obtain ⟨hb, htotal⟩ := hst.arranged.onStreamData hsize
      (hstop fun h0 => hsize (by rw [h0]; rfl)) hd
    have hstore : WhileOpen Q (s.modify p fun st => st.withBuffer b) :=
      ⟨indifferent_formed.modify h.1 ⟨rfl, rfl, rfl, fun h => h, fun h => h, rfl⟩,
        fun _ => T.store h.1 (h.2 hc) hr hb htotal⟩
    dsimp only
    split_ifs
    · exact hstore
    · exact U.flushBufferedFrames hstore
    · exact U.onDataAvailable hstore
    · exact hstore

/-- **The sequencer takes a frame** that does not reach beyond the highest offset received,
and whose FIN does not contradict an earlier one if it has data. -/
theorem sequencerOnStreamFrame (h : WhileOpen Q s) (hc : s.connected = true)
    (hp : p < s.numStreams) (hr : (s.streams p).readSideClosed = false)
    (hsum : m.dataLength ≠ 0 → m.stop = m.offset.toNat + m.dataLength.toNat)
    (hstop : m.dataLength ≠ 0 →
      m.stop ≤ (s.streams p).flowController.highestReceivedByteOffset)
    (hoff : m.fin = true → m.dataLength ≠ 0 →
      (s.streams p).sequencer.closeOffset = kMaxOffset ∨
        m.stop = (s.streams p).sequencer.closeOffset)
    (hA : m.fin = true → (s.streams p).sequencer.closeOffset ≠ kMaxOffset →
      m.stop ≠ (s.streams p).sequencer.closeOffset → A (s.streams p))
    (hE : m.fin = true → E (s.streams p).key m.stop true) :
    WhileOpen Q (s.sequencerOnStreamFrame p m r) := by
  have U := T.toKeeps.unwritten
  unfold Session.sequencerOnStreamFrame
  dsimp only
  by_cases hfin : m.fin = true
  swap
  · rw [if_neg hfin, Bool.eq_false_iff.2 hfin, Bool.false_and, if_neg (by decide)]
    exact T.onStreamData h hr fun h0 => hsum h0 ▸ hstop h0
  rw [if_pos hfin, hfin, Bool.true_and]
  unfold Session.closeStreamAtOffset
  dsimp only
  by_cases hcontra : (s.streams p).sequencer.closeOffset ≠ kMaxOffset ∧
      m.stop ≠ (s.streams p).sequencer.closeOffset
  · rw [if_pos hcontra]
    have hreset : WhileOpen Q (s.reset p) :=
      U.resetStream h fun _ => hA hfin hcontra.1 hcontra.2
    by_cases h0 : m.dataLength = 0
    · rw [if_pos (decide_eq_true h0)]
      exact hreset
    · rcases hoff hfin h0 with hoff | hoff
      · exact absurd hoff hcontra.1
      · exact absurd hoff hcontra.2
  rw [if_neg hcontra]
  let u : Session := s.modify p fun st =>
    { st with sequencer := { st.sequencer with closeOffset := m.stop } }
  have hself : u.streams p =
      { s.streams p with sequencer := { (s.streams p).sequencer with closeOffset := m.stop } } :=
    Session.streams_modify_self
  have hu : WhileOpen Q u :=
    ⟨indifferent_formed.modify h.1 ⟨rfl, rfl, rfl, fun h => h, fun h => h, rfl⟩,
      fun _ => T.closeOffset h.1 (h.2 hc) (hE hfin)⟩
  have hv : WhileOpen Q (u.maybeCloseStream p r) := U.maybeCloseStream hu
  change WhileOpen Q (if decide (m.dataLength = 0) then u.maybeCloseStream p r
    else (u.maybeCloseStream p r).onStreamData p m r)
  by_cases h0 : m.dataLength = 0
  · rw [if_pos (decide_eq_true h0)]
    exact hv
  rw [if_neg (by simpa using h0)]
  by_cases hcv : (u.maybeCloseStream p r).connected = true
  swap
  · exact .of_down (indifferent_down.onStreamData ⟨hv.1, Bool.eq_false_iff.2 hcv⟩)
  -- If the FIN has been read, the data was read before.
  have hforward : (u.streams p).Forward ((u.maybeCloseStream p r).streams p) :=
    (((keeps_tally u).unwritten.maybeCloseStream
      ⟨hu.1, fun hc => (T.received (hu.2 hc)).tally⟩).2 hcv).since.stream p hp
  have hhighest : m.stop ≤
      ((u.maybeCloseStream p r).streams p).flowController.highestReceivedByteOffset := by
    refine (hstop h0).trans ?_
    have := hforward.highest
    rwa [hself] at this
  have hcase : ((u.maybeCloseStream p r).streams p).readSideClosed = false ∨
      m.stop ≤ ((u.maybeCloseStream p r).streams p).sequencer.buffer.totalBytesRead := by
    by_cases hclosed : (u.streams p).sequencer.isClosed = true
    · right
      refine le_trans ?_ hforward.read
      have := of_decide_eq_true hclosed
      rw [hself] at this ⊢
      exact this
    · left
      unfold Session.maybeCloseStream
      dsimp only
      rw [if_pos (by simp [Bool.eq_false_iff.2 hclosed]), hself]
      exact hr
  rcases hcase with hr' | hle
  · exact T.onStreamData hv hr' fun _ => hsum h0 ▸ hhighest
  · unfold Session.onStreamData
    rw [((T.received (hv.2 hcv)).stream p).arranged.onStreamData_of_le
      (fun h => h0 (UInt16.toNat_inj.1 h)) (hsum h0 ▸ hle)]
    exact hv

theorem assertOpen (h : WhileOpen Q (s.noteFin p fin)) :
    WhileOpen Q ((s.assertOpen p).noteFin p fin) := by
  unfold Session.assertOpen
  split_ifs
  · rw [Session.noteFin_abort]
    exact T.toKeeps.unwritten.abort h
  · exact h

/-- A frame for a stream that is no longer read: a FIN is only marked. -/
theorem frame_of_closed (h : WhileOpen Q (s.noteFin p m.fin))
    (hr : (s.streams p).readSideClosed = true) : WhileOpen Q (s.streamOnStreamFrame p m r) := by
  rw [← Session.streams_assertOpen (s := s) (p := p)] at hr
  rw [Session.streamOnStreamFrame_eq, if_pos (Session.marks_noteFin.readSideClosed.trans hr)]
  exact T.assertOpen h

/-- **A stream takes a frame.** -/
theorem frame (h : WhileOpen Q (s.noteFin p m.fin)) (hc : s.connected = true)
    (hp : p < s.numStreams)
    (hdata : m.dataLength ≠ 0 → m.offset.toNat + m.dataLength.toNat < 2 ^ 64 ∧
      Below (s.streams p).flowController.receiveWindowOffset ∧
      Below s.flowController.receiveWindowOffset)
    (hoff : m.fin = true → m.dataLength ≠ 0 →
      (s.streams p).sequencer.closeOffset = kMaxOffset ∨
        m.stop = (s.streams p).sequencer.closeOffset)
    (hA : m.fin = true → (s.streams p).sequencer.closeOffset ≠ kMaxOffset →
      m.stop ≠ (s.streams p).sequencer.closeOffset → ∀ st, st.key = (s.streams p).key → A st)
    (hE : E (s.streams p).key m.stop m.fin) : WhileOpen Q (s.streamOnStreamFrame p m r) := by
  rw [Session.streamOnStreamFrame_eq]
  replace h := T.assertOpen h
  rw [← Session.connected_assertOpen (p := p)] at hc
  rw [← Session.numStreams_assertOpen (p := p)] at hp
  rw [← Session.streams_assertOpen (p := p)] at hdata hoff hA hE
  rw [← Session.flowController_assertOpen (p := p)] at hdata
  generalize s.assertOpen p = s at h hc hp hdata hoff hA hE ⊢
  have hmarks : Marks (s.streams p) ((s.noteFin p m.fin).streams p) := Session.marks_noteFin
  have hc' : (s.noteFin p m.fin).connected = true := Session.connected_noteFin.trans hc
  have hp' : p < (s.noteFin p m.fin).numStreams := hp.trans_eq Session.numStreams_noteFin.symm
  have hsum : m.dataLength ≠ 0 → m.stop = m.offset.toNat + m.dataLength.toNat := by
    exact fun h0 => wrapAdd_eq (hdata h0).1
  rw [← s.flowController_noteFin p m.fin, ← hmarks.flowController] at hdata
  have hkey : ((s.noteFin p m.fin).streams p).key = (s.streams p).key :=
    (Similar.of_marks hmarks).key
  rw [← hmarks.closeOffset] at hoff hA
  rw [← hkey] at hA hE
  generalize s.noteFin p m.fin = u at h hc' hp' hdata hoff hA hE ⊢
  dsimp only
  have hR := T.received (h.2 hc')
  have hE' : m.fin = true → E (u.streams p).key m.stop true := fun hf => hf ▸ hE
  have hE'' : E (u.streams p).key m.stop false := by
    cases hf : m.fin with
    | false => exact hf ▸ hE
    | true => exact T.mono (hf ▸ hE)
  by_cases hr : (u.streams p).readSideClosed = true
  · rw [if_pos hr]
    exact h
  rw [if_neg hr]
  have hr' := Bool.eq_false_iff.2 hr
  by_cases hraise : m.dataLength ≠ 0 ∧
      (u.streams p).flowController.highestReceivedByteOffset < m.stop
  swap
  · rw [if_neg hraise]
    refine T.sequencerOnStreamFrame h hc' hp' hr' hsum (fun h0 => ?_) hoff
      (fun hf h₁ h₂ => hA hf h₁ h₂ _ rfl) hE'
    exact Nat.not_lt.1 fun hlt => hraise ⟨h0, hlt⟩
  rw [if_pos hraise]
  obtain ⟨h0, hlt⟩ := hraise
  obtain ⟨hn, hwindow, hroom⟩ := hdata h0
  rw [← hsum h0] at hn
  have hform : Formed (u.increaseHighestReceivedOffset p m.stop) :=
    indifferent_formed.increaseHighestReceivedOffset h.1
  by_cases hv : (u.increaseHighestReceivedOffset p m.stop).flowControlViolation p = true
  · rw [if_pos hv]
    exact .closeConnection hform
  rw [if_neg hv]
  have hin := inWindows_of_not_violation (hR.stream p).sound hR.session hlt hn hroom
    (Bool.eq_false_iff.2 hv)
  have hbelow : Below m.stop := (Nat.add_le_add_right hin.1 _).trans_lt hwindow
  obtain ⟨c, C, heq, ⟨-, hhigh, -⟩, -⟩ :=
    increaseHighestReceivedOffset_spec (hR.stream p).sound hR.session hlt hin hbelow hroom
  have hself : (u.increaseHighestReceivedOffset p m.stop).streams p =
      (u.streams p).withController c := by
    rw [heq]
    exact Function.update_self ..
  refine T.sequencerOnStreamFrame
    ⟨hform, fun _ => T.raise h.1 (h.2 hc') hr' hlt hin hbelow hroom hE''⟩
    (by rw [heq]; exact hc') (by rw [heq]; exact hp') (by rw [hself]; exact hr') hsum (fun _ => ?_)
    (by rw [hself]; exact hoff) (by rw [hself]; exact fun hf h₁ h₂ => hA hf h₁ h₂ _ rfl)
    (by rw [hself]; exact hE')
  rw [hself]
  exact hhigh.ge

/-- A FIN is marked. -/
theorem noteFin (h : WhileOpen Q s) : WhileOpen Q (s.noteFin p fin) := by
  have U := T.toKeeps.unwritten
  have hmark : WhileOpen Q (s.modify p fun st => { st with finReceived := true }) :=
    U.mark h ⟨rfl, rfl, rfl, rfl, rfl, rfl, rfl, rfl, rfl, rfl, fun _ => rfl⟩
  unfold Session.noteFin Session.receiveFin
  dsimp only
  split_ifs
  · exact U.streamDraining hmark
  · exact hmark
  · exact h

/-! ## Resets of the peer -/

/-- **A stream is reset by the peer**, from where the highest offset has been raised. -/
theorem onStreamReset {f : RstStreamFrame}
    (h : WhileOpen Q ((s.modify p fun st =>
      { st with rstReceived := true }).maybeIncreaseHighestReceivedOffset p f.byteOffset.toNat)) :
    WhileOpen Q (s.onStreamReset p f) := by
  have U := T.toKeeps.unwritten
  obtain ⟨hrst, -⟩ := s.peerReset_marks p f.byteOffset.toNat
  unfold Session.onStreamReset
  dsimp only
  split_ifs
  · exact U.closeWriteSide h
  · exact U.closeReadSide (U.closeWriteSide h)
      (.inr (.inl (closes_closeWriteSide.rstReceived.trans hrst)))

/-! ## Header blocks -/

/-- **Initial headers**, with a FIN at the offset zero or without. -/
theorem onInitialHeadersComplete
    (h : WhileOpen Q ((s.modify p fun st =>
      { st with headersDecompressed := true, headerListEmpty := headers.isEmpty }).noteFin p fin))
    (hc : s.connected = true) (hp : p < s.numStreams)
    (hA : fin = true → (s.streams p).readSideClosed = false →
      (s.streams p).sequencer.closeOffset ≠ kMaxOffset →
      0 ≠ (s.streams p).sequencer.closeOffset → ∀ st, st.key = (s.streams p).key → A st)
    (hE : fin = true → (s.streams p).readSideClosed = false → E (s.streams p).key 0 true) :
    WhileOpen Q (s.onInitialHeadersComplete p fin headers r) := by
  have U := T.toKeeps.unwritten
  have hread : ∀ t, WhileOpen Q t →
      WhileOpen Q (if (t.streams p).finishedReadingHeaders then t.setUnblocked p r else t) := by
    intro t ht
    split_ifs
    · exact U.setUnblocked ht
    · exact ht
  unfold Session.onInitialHeadersComplete
  dsimp only
  refine hread _ ?_
  cases fin with
  | false => exact h
  | true =>
    rw [if_pos rfl]
    by_cases hr : (s.streams p).readSideClosed = true
    · refine T.frame_of_closed h ?_
      rw [Session.streams_modify_self]
      exact hr
    · have hr' := Bool.eq_false_iff.2 hr
      refine T.frame h hc hp (fun h0 => absurd rfl h0) (fun _ h0 => absurd rfl h0) ?_ ?_
      · rw [Session.streams_modify_self]
        exact fun _ => hA rfl hr'
      · rw [Session.streams_modify_self]
        exact hE rfl hr'

/-- **Trailers**, with the final offset they name. -/
theorem onTrailingHeadersComplete (hF : Formed s) (hc : s.connected = true)
    (hp : p < s.numStreams)
    (h : ∀ offset, copyAndValidateTrailers none headers = some offset → fin = true →
      WhileOpen Q ((s.modify p fun st => { st with trailersDecompressed := true }).noteFin p true) ∧
      ((s.streams p).sequencer.closeOffset ≠ kMaxOffset →
        offset.toNat ≠ (s.streams p).sequencer.closeOffset →
        ∀ st, st.key = (s.streams p).key → A st) ∧
      E (s.streams p).key offset.toNat true) :
    WhileOpen Q (s.onTrailingHeadersComplete p fin headers r) := by
  unfold Session.onTrailingHeadersComplete
  split_ifs with h₁ h₂
  · exact .closeConnection hF
  · exact .closeConnection hF
  · cases hcopy : copyAndValidateTrailers none headers with
    | none => exact .closeConnection hF
    | some offset =>
      obtain ⟨hmark, hA, hE⟩ := h offset hcopy (by simpa using h₂)
      have hstop : (⟨(s.streams p).id, true, offset, 0⟩ : StreamFrame).stop = offset.toNat :=
        wrapAdd_eq offset.toNat_lt
      refine T.frame hmark hc hp (fun h0 => absurd rfl h0) (fun _ h0 => absurd rfl h0) ?_ ?_
      · rw [Session.streams_modify_self, hstop]
        exact fun _ => hA
      · rw [Session.streams_modify_self, hstop]
        exact hE

end Taking

/-! ## Final offsets of closed streams -/

/-- What `OnFinalByteOffsetReceived` does for a stream whose highest offset is recorded. -/
def Session.settle (s : Session) (id n recorded : ℕ) : Session :=
  { s with
    flowController :=
      ((s.flowController.updateHighestReceivedOffset
        (s.flowController.highestReceivedByteOffset + (n - recorded))).addBytesConsumed
          s.environment (n - recorded)).1
    tables := s.tables.eraseLocallyClosed id
    aborted := s.aborted || !(s.flowController.updateHighestReceivedOffset
      (s.flowController.highestReceivedByteOffset + (n - recorded))).canConsume (n - recorded) }

/-- **The final offset of a closed stream can be taken**: it is not below the recorded one,
and the sum does not wrap. -/
def Settles (s : Session) (id n : ℕ) : Prop :=
  Below s.flowController.receiveWindowOffset ∧
    ∀ recorded ∈ valueAt id s.tables.locallyClosedStreams, recorded ≤ n ∧
      s.flowController.highestReceivedByteOffset + (n - recorded) < 2 ^ 64

instance : Decidable (Settles s id n) := instDecidableAnd

/-- No final offset is waited for. -/
def Settled (s : Session) (id : ℕ) : Prop := valueAt id s.tables.locallyClosedStreams = none

theorem Session.connected_onFinalByteOffsetReceived (hc : s.connected = false) :
    (s.onFinalByteOffsetReceived id n).connected = false := by
  unfold onFinalByteOffsetReceived
  cases valueAt id s.tables.locallyClosedStreams with
  | none => exact hc
  | some recorded =>
    dsimp only
    split_ifs
    · exact connected_closeConnection
    · exact hc

namespace WhileOpen

/-- **The final offset of a closed stream**, which may turn out to be beyond the window. -/
theorem onFinalByteOffsetReceived (hF : Formed s) (hn : n < 2 ^ 64)
    (hS : s.connected = true → Settled s id ∨ Settles s id n)
    (hnone : Settled s id → s.connected = true → Q s)
    (hQ : ∀ recorded, valueAt id s.tables.locallyClosedStreams = some recorded → recorded ≤ n →
      Below s.flowController.receiveWindowOffset → s.connected = true →
      (s.flowController.highestReceivedByteOffset ≤ s.flowController.receiveWindowOffset →
        s.flowController.highestReceivedByteOffset + (n - recorded) ≤
          s.flowController.receiveWindowOffset) → Q (s.settle id n recorded)) :
    WhileOpen Q (s.onFinalByteOffsetReceived id n) := by
  have hF' : Formed (s.onFinalByteOffsetReceived id n) := hF.onFinalByteOffsetReceived
  by_cases hc : s.connected = true
  swap
  · exact .of_down ⟨hF', Session.connected_onFinalByteOffsetReceived (Bool.eq_false_iff.2 hc)⟩
  unfold Session.onFinalByteOffsetReceived at hF' ⊢
  cases hval : valueAt id s.tables.locallyClosedStreams with
  | none => exact ⟨hF, hnone hval⟩
  | some recorded =>
    have hS' := (hS hc).resolve_left fun h => absurd (hval.symm.trans h) (by simp)
    obtain ⟨hle, hlt⟩ := hS'.2 recorded hval
    rw [hval] at hF'
    dsimp only at hF' ⊢
    rw [wrapSub_eq hle hn, wrapAdd_eq hlt] at hF' ⊢
    split_ifs at hF' ⊢ with hv
    · exact .closeConnection (indifferent_formed.change (b := s.aborted) hF fun q => Similar.refl _)
    · refine ⟨hF', fun hc => hQ recorded hval hle hS'.1 hc fun hin => ?_⟩
      rcases Nat.eq_zero_or_pos (n - recorded) with h0 | hpos
      · rw [h0]
        exact hin
      · refine ReceiveController.le_of_not_violation (Bool.eq_false_iff.2 fun hviol => hv ?_)
        rw [Bool.and_eq_true, decide_eq_true_iff]
        exact ⟨by omega, hviol⟩

end WhileOpen

/-- Its entry is erased. -/
theorem settled_onFinalByteOffsetReceived
    (hc : (s.onFinalByteOffsetReceived id n).connected = true) :
    Settled (s.onFinalByteOffsetReceived id n) id := by
  unfold Settled
  unfold Session.onFinalByteOffsetReceived at hc ⊢
  cases hval : valueAt id s.tables.locallyClosedStreams with
  | none => exact hval
  | some recorded =>
    rw [hval] at hc
    dsimp only at hc ⊢
    split_ifs at hc ⊢
    · exact absurd (Session.connected_closeConnection.symm.trans hc) (by decide)
    · exact valueAt_eq_none_iff.2 not_mem_keys_without

/-- The offset that trailers name as the final one. -/
def Header.offset : Header → Option UInt64
  | .finalOffset value => value
  | .plain => none
  | .malformed => none

/-- **The loop over the trailers of a closed stream**, by induction on the headers: once a
final offset has been received, the others find no entry. -/
theorem WhileOpen.onTrailersOfClosed {O : UInt64 → Prop}
    (hfinal : ∀ {t : Session} {offset : UInt64}, WhileOpen Q t → O offset →
      (t.connected = true → Settled t id ∨ Settles t id offset.toNat) →
      WhileOpen Q (t.onFinalByteOffsetReceived id offset.toNat))
    (h : WhileOpen Q s) (hO : ∀ x ∈ headers, ∀ offset ∈ x.offset, O offset)
    (hS : s.connected = true → Settled s id ∨
      ∀ x ∈ headers, ∀ offset ∈ x.offset, Settles s id offset.toNat) :
    WhileOpen Q (Session.onTrailersOfClosed id headers s) := by
  induction headers generalizing s with
  | nil => exact h
  | cons x l ih =>
    have hO' : ∀ x ∈ l, ∀ offset ∈ x.offset, O offset :=
      fun y hy => hO y (List.mem_cons_of_mem _ hy)
    have hrest : s.connected = true → Settled s id ∨
        ∀ x ∈ l, ∀ offset ∈ x.offset, Settles s id offset.toNat :=
      fun hc => (hS hc).imp_right fun hall y hy => hall y (List.mem_cons_of_mem _ hy)
    cases x with
    | plain => exact ih h hO' hrest
    | malformed => exact ih h hO' hrest
    | finalOffset value =>
      cases value with
      | none => exact .closeConnection h.1
      | some offset =>
        refine ih (hfinal h (hO _ (List.mem_cons_self ..) offset rfl) fun hc => ?_) hO'
          fun hc => .inl (settled_onFinalByteOffsetReceived hc)
        exact (hS hc).imp_right fun hall => hall _ (List.mem_cons_self ..) offset rfl

end Streams
end QuicNs3
