/-
# What is handed over to the connection

The application's data goes to the connection in hand-overs: each offers some bytes from
the offset `stream_bytes_written_` on, and the connection consumes a prefix of them.  What
is not consumed is queued in chunks, and `OnCanWrite` offers the rest of the chunk in
front.

`Told` is what holds of the hand-overs with any data left to offer, `Passed` what one call
of `WritevData` does, and `Ordered` says that what is left is what is queued.  The last is
kept by every operation (`always_in_order`), unless `OnCanWrite` has all bytes of its last
chunk consumed without the FIN: the chunk then has an offset that `OnCanWrite` takes for
impossible.
-/

import QuicNs3.Lib.Run
import QuicNs3.Streams.Making

namespace QuicNs3
namespace Streams

open Lib

variable {p q : ℕ} {s t u : Session} {data rest more : List UInt8} {fin : Bool} {a : Answer}
  {o o' : Outgoing} {x : ConsumedData}

/-! ## Hand-overs -/

/-- The bytes consumed by hand-overs. -/
def consumedBytes (l : List HandOver) : List UInt8 :=
  l.flatMap fun h => h.data.take h.bytesConsumed

/-- The bytes that are queued. -/
def Outgoing.queuedBytes (o : Outgoing) : List UInt8 :=
  o.queuedData.flatMap fun d => d.data.drop d.offset

/-- **A hand-over in its place**: it starts where the ones before it have ended, offers the
data from there on, and a FIN is consumed only at the end of the data. -/
structure InPlace (accepted : List UInt8) (finBuffered : Bool) (before : List HandOver)
    (h : HandOver) : Prop where
  offset : h.offset = (before.map HandOver.bytesConsumed).sum
  data : h.data <+: accepted.drop h.offset
  fin : h.finConsumed = true →
    finBuffered = true ∧ h.offset + h.bytesConsumed = accepted.length

/-- **What has been handed over**, with the data `rest` left to offer. -/
structure Told (o : Outgoing) (rest : List UInt8) : Prop where
  accepted : o.accepted = consumedBytes o.handOvers ++ rest
  length : (consumedBytes o.handOvers).length = o.streamBytesWritten
  written : (o.handOvers.map HandOver.bytesConsumed).sum = o.streamBytesWritten
  inPlace : ∀ before h after, o.handOvers = before ++ h :: after →
    InPlace o.accepted o.finBuffered before h
  beyondData : o.beyondData = false

namespace Told

/-- More data is accepted, if no FIN is buffered. -/
theorem accept (h : Told o rest) (data : List UInt8) (fin : Bool) (hfin : o.finBuffered = false) :
    Told { o with finBuffered := fin, accepted := o.accepted ++ data } (rest ++ data) where
  accepted := by
    show o.accepted ++ data = consumedBytes o.handOvers ++ (rest ++ data)
    rw [h.accepted, List.append_assoc]
  length := h.length
  written := h.written
  inPlace := by
    intro before g after hg
    obtain ⟨hoffset, hdata, hcons⟩ := h.inPlace before g after hg
    refine ⟨hoffset, ?_, fun hc => ?_⟩
    · show g.data <+: (o.accepted ++ data).drop g.offset
      rw [List.drop_append]
      exact hdata.trans (List.prefix_append _ _)
    · exact absurd (hfin.symm.trans (hcons hc).1) (by decide)
  beyondData := h.beyondData

/-- **One more hand-over**: of the data left, no more than the first `k` bytes are offered
and the first `b` are consumed. -/
theorem handOver {k b : ℕ} {fin' finConsumed : Bool} (h : Told o (data ++ more))
    (hb : b ≤ (data.take k).length)
    (hfin : finConsumed = true → o.finBuffered = true ∧ more = [] ∧ b = data.length) :
    Told
      { o with
        streamBytesWritten := o.streamBytesWritten + b
        handOvers := o.handOvers ++ [⟨o.streamBytesWritten, data.take k, fin', b, finConsumed⟩] }
      (data.drop b ++ more) := by
  have hle : b ≤ k ∧ b ≤ data.length := by
    rw [List.length_take] at hb
    omega
  have htake : (data.take k).take b = data.take b := by
    rw [List.take_take, Nat.min_eq_left hle.1]
  have hconsumed : ∀ g : HandOver, g.data = data.take k → g.bytesConsumed = b →
      consumedBytes (o.handOvers ++ [g]) = consumedBytes o.handOvers ++ data.take b := by
    intro g hd hg
    unfold consumedBytes
    rw [List.flatMap_append, List.flatMap_singleton, hd, hg, htake]
  refine ⟨?_, ?_, ?_, ?_, h.beyondData⟩
  · show o.accepted = consumedBytes (o.handOvers ++ [_]) ++ (data.drop b ++ more)
    rw [hconsumed _ rfl rfl, List.append_assoc, ← List.append_assoc (data.take b),
      List.take_append_drop]
    exact h.accepted
  · show (consumedBytes (o.handOvers ++ [_])).length = o.streamBytesWritten + b
    rw [hconsumed _ rfl rfl, List.length_append, h.length, List.length_take,
      Nat.min_eq_left hle.2]
  · show ((o.handOvers ++ [_]).map HandOver.bytesConsumed).sum = o.streamBytesWritten + b
    rw [List.map_append, List.sum_append, h.written]
    simp
  · have heach : EachAfter (InPlace o.accepted o.finBuffered) o.handOvers := h.inPlace
    refine heach.concat ⟨h.written.symm, ?_, fun hc => ?_⟩
    · show data.take k <+: o.accepted.drop o.streamBytesWritten
      rw [h.accepted, ← h.length, List.drop_left]
      exact (List.take_prefix k data).trans (List.prefix_append _ _)
    · obtain ⟨hbuf, rfl, rfl⟩ := hfin hc
      refine ⟨hbuf, ?_⟩
      show o.streamBytesWritten + data.length = o.accepted.length
      rw [h.accepted, ← h.length, List.append_nil, List.length_append]

/-- The bytes consumed are the first ones accepted. -/
theorem consumedBytes_eq (h : Told o rest) :
    consumedBytes o.handOvers = o.accepted.take o.streamBytesWritten := by
  rw [h.accepted, ← h.length, List.take_left]

theorem length_accepted (h : Told o rest) :
    o.streamBytesWritten + rest.length = o.accepted.length := by
  rw [h.accepted, ← h.length, List.length_append]

end Told

/-! ## One write -/

/-- What is kept for writing stays as it is, but for the flow controller of `p`. -/
structure Recounts (p : ℕ) (s t : Session) : Prop where
  other : ∀ q, q ≠ p → (t.streams q).outgoing = (s.streams q).outgoing
  self : ∃ c, (t.streams p).outgoing = { (s.streams p).outgoing with flowController := c }

namespace Recounts

theorem refl (p : ℕ) (s : Session) : Recounts p s s := ⟨fun _ _ => rfl, _, rfl⟩

theorem trans (h : Recounts p s t) (h' : Recounts p t u) : Recounts p s u := by
  obtain ⟨c, hc⟩ := h.self
  obtain ⟨c', hc'⟩ := h'.self
  exact ⟨fun q hq => (h'.other q hq).trans (h.other q hq), c', by rw [hc', hc]⟩

theorem of_unsent (h : Unsent s t) : Recounts p s t :=
  ⟨fun q _ => (h.similar q).outgoing, _, (h.similar p).outgoing⟩

theorem of_streams (h : t.streams = s.streams) : Recounts p s t :=
  ⟨fun q _ => by rw [h], _, by rw [h]⟩

theorem modifyOutgoing {f : Outgoing → Outgoing}
    (hf : ∀ o, ∃ c, f o = { o with flowController := c }) :
    Recounts p s (s.modifyOutgoing p f) := by
  refine ⟨fun q hq => ?_, ?_⟩
  · unfold Session.modifyOutgoing
    rw [Session.streams_modify_of_ne hq]
  · rw [Session.streams_modifyOutgoing_self]
    exact hf _

theorem closeIfTooMuch {b : Bool} : Recounts p s (s.closeIfTooMuch b) := by
  unfold Session.closeIfTooMuch
  split_ifs
  · have hflag : Recounts p s { s with sentTooMuch := true } := of_streams rfl
    exact hflag.trans (of_unsent unsent_closeConnection)
  · exact refl p s

theorem addBytesSent {n : ℕ} : Recounts p s (s.addBytesSent p n) := by
  have hstream : Recounts p s ((s.modifyOutgoing p fun o =>
      { o with flowController := ((s.streams p).outgoing.flowController.addBytesSent n).2
        }).closeIfTooMuch ((s.streams p).outgoing.flowController.addBytesSent n).1) :=
    (modifyOutgoing fun o => ⟨_, rfl⟩).trans closeIfTooMuch
  unfold Session.addBytesSent
  dsimp only
  generalize Session.closeIfTooMuch _ _ = t at hstream ⊢
  split_ifs
  · exact hstream
  · have hsession : Recounts p t { t with sendController := (t.sendController.addBytesSent n).2 } :=
      of_streams rfl
    exact hstream.trans (hsession.trans closeIfTooMuch)

theorem maybeSendBlocked : Recounts p s (s.maybeSendBlocked p) := by
  have hstream : Recounts p s (s.modifyOutgoing p fun o =>
      { o with flowController := o.flowController.maybeSendBlocked }) :=
    modifyOutgoing fun o => ⟨_, rfl⟩
  unfold Session.maybeSendBlocked
  dsimp only
  split_ifs
  · exact hstream
  · exact hstream.trans (of_streams rfl)

theorem markFinSent : Recounts q s (s.modify p fun st => { st with finSent := true }) := by
  have hall : ∀ x, ((s.modify p fun st => { st with finSent := true }).streams x).outgoing =
      (s.streams x).outgoing := by
    intro x
    rcases eq_or_ne x p with rfl | hne
    · rw [Session.streams_modify_self]
    · rw [Session.streams_modify_of_ne hne]
  exact ⟨fun x _ => hall x, _, hall q⟩

theorem sendFin : Recounts p s (s.sendFin p) := by
  have hclose : ∀ t : Session, Recounts p t (t.closeWriteSide p) :=
    fun t => of_unsent ((indifferent_unsent t).closeWriteSide (Unsent.refl t))
  have hdrain : ∀ (t : Session) (id : ℕ), Recounts p t (t.streamDraining id) :=
    fun t _ => of_unsent ((indifferent_unsent t).streamDraining (Unsent.refl t))
  unfold Session.sendFin
  dsimp only
  refine Recounts.trans ?_ (hclose _)
  split_ifs
  · exact markFinSent.trans (hdrain _ _)
  · exact markFinSent

end Recounts

/-- **What a write does** to what is kept for writing: of the data, the first bytes are
consumed, all of them if the FIN is, and the FIN with them if the connection consumes it
with the last byte. -/
structure Passed (o o' : Outgoing) (data : List UInt8) (fin : Bool) (a : Answer)
    (x : ConsumedData) : Prop where
  told : ∀ more, Told o (data ++ more) → (fin = true → o.finBuffered = true ∧ more = []) →
    Told o' (data.drop x.bytesConsumed ++ more)
  queuedData : o'.queuedData = o.queuedData
  queuedDataBytes : o'.queuedDataBytes = o.queuedDataBytes
  finBuffered : o'.finBuffered = o.finBuffered
  le : x.bytesConsumed ≤ data.length
  finConsumed : x.finConsumed = true → fin = true
  complete : (0 < a.bytes → a.fin = true) → fin = true → 0 < x.bytesConsumed →
    x.bytesConsumed = data.length → x.finConsumed = true

theorem Told.recount {c : SendController} (h : Told o rest) :
    Told { o with flowController := c } rest :=
  ⟨h.accepted, h.length, h.written, h.inPlace, h.beyondData⟩

theorem Passed.recount {c : SendController} (h : Passed o o' data fin a x) :
    Passed o { o' with flowController := c } data fin a x :=
  ⟨fun more ht hf => (h.told more ht hf).recount, h.queuedData, h.queuedDataBytes, h.finBuffered,
    h.le, h.finConsumed, h.complete⟩

theorem Passed.nothing : Passed o o data fin a ⟨0, false⟩ where
  told := fun _ ht _ => ht
  queuedData := rfl
  queuedDataBytes := rfl
  finBuffered := rfl
  le := Nat.zero_le _
  finConsumed := fun h => absurd h (by decide)
  complete := fun _ _ h => absurd h (Nat.lt_irrefl 0)

/-- **A hand-over.** -/
theorem Passed.offer (s : Session) (p : ℕ) (data : List UInt8) (fin : Bool) (a : Answer) :
    Passed (s.streams p).outgoing ((s.offer p data fin a).2.streams p).outgoing data fin a
      (s.offer p data fin a).1 ∧
    ∀ q, q ≠ p → ((s.offer p data fin a).2.streams q).outgoing = (s.streams q).outgoing := by
  -- A write error closes the connection first.
  obtain ⟨u, hu, hs⟩ : ∃ u : Session, (if a.writeError then s.closeConnection else s) = u ∧
      ∀ q, (u.streams q).outgoing = (s.streams q).outgoing := by
    refine ⟨_, rfl, fun q => ?_⟩
    split_ifs
    · exact (unsent_closeConnection.similar q).outgoing
    · rfl
  have hb : min a.bytes (data.take (s.sendWindow p)).length ≤ (data.take (s.sendWindow p)).length :=
    Nat.min_le_right _ _
  have hlen : (data.take (s.sendWindow p)).length = min (s.sendWindow p) data.length :=
    List.length_take
  unfold Session.offer Session.writevDataInner
  dsimp only
  rw [hu]
  have hcount := Recounts.addBytesSent (p := p)
    (n := min a.bytes (data.take (s.sendWindow p)).length)
    (s := u.modifyOutgoing p fun o =>
      { o with
        streamBytesWritten := o.streamBytesWritten +
          min a.bytes (data.take (s.sendWindow p)).length
        handOvers := o.handOvers ++ [⟨o.streamBytesWritten, data.take (s.sendWindow p),
          fin && decide (data.length ≤ s.sendWindow p),
          min a.bytes (data.take (s.sendWindow p)).length,
          fin && decide (data.length ≤ s.sendWindow p) && a.fin && decide
            (min a.bytes (data.take (s.sendWindow p)).length =
              (data.take (s.sendWindow p)).length)⟩] })
  refine ⟨?_, fun q hq => ?_⟩
  · obtain ⟨c, hc⟩ := hcount.self
    rw [hc, Session.streams_modifyOutgoing_self, hs]
    refine Passed.recount ⟨fun more ht hf => ht.handOver hb fun hcons => ?_, rfl, rfl, rfl, ?_,
      fun hcons => ?_, fun hans hf hpos hall => ?_⟩
    · simp only [Bool.and_eq_true, decide_eq_true_eq] at hcons
      obtain ⟨hbuf, hmore⟩ := hf hcons.1.1.1
      refine ⟨hbuf, hmore, ?_⟩
      omega
    · show min a.bytes (data.take (s.sendWindow p)).length ≤ data.length
      omega
    · simp only [Bool.and_eq_true] at hcons
      exact hcons.1.1.1
    · dsimp only at hpos hall ⊢
      have hwin : data.length ≤ s.sendWindow p := by omega
      have hafin : a.fin = true := hans (by omega)
      simp only [hf, hwin, hafin, decide_true, Bool.true_and, decide_eq_true_eq]
      omega
  · rw [hcount.other q hq, ← hs q]
    unfold Session.modifyOutgoing
    rw [Session.streams_modify_of_ne hq]

/-- **`WritevData`.** -/
theorem Passed.writevData (s : Session) (p : ℕ) (data : List UInt8) (fin : Bool) (a : Answer) :
    Passed (s.streams p).outgoing ((s.writevData p data fin a).2.streams p).outgoing data fin a
      (s.writevData p data fin a).1 ∧
    ∀ q, q ≠ p → ((s.writevData p data fin a).2.streams q).outgoing = (s.streams q).outgoing := by
  obtain ⟨hpass, hother⟩ := Passed.offer s p data fin a
  have hafter : ∀ t, Recounts p (s.offer p data fin a).2 t →
      Passed (s.streams p).outgoing (t.streams p).outgoing data fin a (s.offer p data fin a).1 ∧
      ∀ q, q ≠ p → (t.streams q).outgoing = (s.streams q).outgoing := by
    intro t ht
    obtain ⟨c, hc⟩ := ht.self
    exact ⟨hc ▸ hpass.recount, fun q hq => (ht.other q hq).trans (hother q hq)⟩
  have hblocked : ∀ t, t = (s.offer p data fin a).2 ∨
      t = (s.offer p data fin a).2.maybeSendBlocked p → Recounts p (s.offer p data fin a).2 t := by
    rintro t (rfl | rfl)
    · exact Recounts.refl p _
    · exact Recounts.maybeSendBlocked
  have hw := s.writing p data fin a
  generalize s.writevData p data fin a = r at hw ⊢
  cases hw with
  | nothing => exact ⟨Passed.nothing, fun _ _ => rfl⟩
  | blocked =>
    have hcount := Recounts.maybeSendBlocked (p := p) (s := s)
    obtain ⟨c, hc⟩ := hcount.self
    exact ⟨hc ▸ Passed.nothing.recount, hcount.other⟩
  | offered t ht => exact hafter t (hblocked t ht)
  | finished t ht hcons => exact hafter _ ((hblocked t ht).trans Recounts.sendFin)

/-! ## The queue -/

/-- **What is left to offer is what is queued.** -/
structure Ordered (o : Outgoing) : Prop where
  told : Told o o.queuedBytes
  bytes : o.queuedDataBytes = o.queuedBytes.length
  offset : ∀ d ∈ o.queuedData, d.offset = 0 ∨ d.offset < d.data.length

namespace Ordered

theorem recount {c : SendController} (h : Ordered o) : Ordered { o with flowController := c } :=
  ⟨h.told.recount, h.bytes, h.offset⟩

/-- What is not consumed of new data is queued behind the rest. -/
theorem bufferData (htold : Told (s.streams p).outgoing
      ((s.streams p).outgoing.queuedBytes ++ data.drop x.bytesConsumed))
    (hbytes : (s.streams p).outgoing.queuedDataBytes = (s.streams p).outgoing.queuedBytes.length)
    (hoffset : ∀ d ∈ (s.streams p).outgoing.queuedData, d.offset = 0 ∨ d.offset < d.data.length) :
    Ordered ((s.bufferData p data fin x).streams p).outgoing := by
  unfold Session.bufferData
  split_ifs with hleft
  · rw [Session.streams_modifyOutgoing_self]
    have hqueue : ∀ l : List PendingData,
        (l ++ [PendingData.mk (data.drop x.bytesConsumed) 0]).flatMap
            (fun d => d.data.drop d.offset) =
          l.flatMap (fun d => d.data.drop d.offset) ++ data.drop x.bytesConsumed := by
      intro l
      simp
    refine ⟨?_, ?_, fun d hd => ?_⟩
    · show Told _ ((_ ++ [_]).flatMap _)
      rw [hqueue]
      exact ⟨htold.accepted, htold.length, htold.written, htold.inPlace, htold.beyondData⟩
    · show _ = ((_ ++ [_]).flatMap _).length
      rw [hqueue, List.length_append]
      exact congrArg (· + _) hbytes
    · rcases List.mem_append.1 hd with hd | hd
      · exact hoffset d hd
      · obtain rfl := List.mem_singleton.1 hd
        exact .inl rfl
  · have hnone : data.drop x.bytesConsumed = [] := List.drop_eq_nil_of_le (by omega)
    rw [hnone, List.append_nil] at htold
    exact ⟨htold, hbytes, hoffset⟩

/-- **`WriteOrBufferData`** on the stream that is written on. -/
theorem writeOrBufferData (h : Ordered (s.streams p).outgoing) :
    Ordered ((s.writeOrBufferData p data fin a).streams p).outgoing := by
  unfold Session.writeOrBufferData
  split_ifs with h₁ h₂ h₃
  · exact h
  · exact h
  · exact h
  · have hself : ((s.acceptData p data fin).streams p).outgoing =
        { (s.streams p).outgoing with
          finBuffered := fin, accepted := (s.streams p).outgoing.accepted ++ data } := by
      unfold Session.acceptData
      rw [Session.streams_modifyOutgoing_self]
    have haccept := h.told.accept data fin (Bool.eq_false_iff.2 h₂)
    rw [← hself] at haccept
    have hqueue : ((s.acceptData p data fin).streams p).outgoing.queuedData =
        (s.streams p).outgoing.queuedData := by rw [hself]
    have hbytes : ((s.acceptData p data fin).streams p).outgoing.queuedDataBytes =
        (s.streams p).outgoing.queuedDataBytes := by rw [hself]
    dsimp only
    by_cases hempty : ((s.acceptData p data fin).streams p).outgoing.queuedData.isEmpty = true
    · -- Nothing is queued, and the new data is offered.
      rw [if_pos hempty]
      have hnil : (s.streams p).outgoing.queuedData = [] := by
        rw [← hqueue]
        exact List.isEmpty_iff.1 hempty
      have hnil' : (s.streams p).outgoing.queuedBytes = [] := by
        simp [Outgoing.queuedBytes, hnil]
      obtain ⟨hpass, -⟩ := Passed.writevData (s.acceptData p data fin) p data fin a
      have hq := hpass.queuedData.trans (hqueue.trans hnil)
      have hqb : (((s.acceptData p data fin).writevData p data fin a).2.streams
          p).outgoing.queuedBytes = [] := by simp [Outgoing.queuedBytes, hq]
      rw [hnil', List.nil_append] at haccept
      have htold := hpass.told [] (by rwa [List.append_nil]) fun hf =>
        ⟨by rw [hself]; exact hf, rfl⟩
      refine bufferData ?_ ?_ ?_
      · rwa [hqb, List.nil_append, ← List.append_nil (data.drop _)]
      · rw [hpass.queuedDataBytes, hbytes, h.bytes, hqb, hnil']
      · rw [hq]
        exact fun d hd => absurd hd List.not_mem_nil
    · -- The new data waits behind what is queued.
      rw [if_neg hempty]
      refine bufferData ?_ ?_ ?_
      · have hqb : ((s.acceptData p data fin).streams p).outgoing.queuedBytes =
            (s.streams p).outgoing.queuedBytes := by
          unfold Outgoing.queuedBytes
          rw [hqueue]
        rw [hqb]
        exact haccept
      · unfold Outgoing.queuedBytes
        rw [hbytes, hqueue]
        exact h.bytes
      · rw [hqueue]
        exact h.offset

/-- **One chunk of `OnCanWrite`**: what is consumed of it is taken off the queue. -/
theorem settleFront {d : PendingData} {l : List PendingData}
    (hq : (s.streams p).outgoing.queuedData = d :: l)
    (hbytes : (s.streams p).outgoing.queuedDataBytes = (s.streams p).outgoing.queuedBytes.length)
    (hoffset : ∀ d ∈ (s.streams p).outgoing.queuedData, d.offset = 0 ∨ d.offset < d.data.length)
    (hle : x.bytesConsumed ≤ (d.data.drop d.offset).length)
    (htold : Told (s.streams p).outgoing
      ((d.data.drop d.offset).drop x.bytesConsumed ++ l.flatMap fun d => d.data.drop d.offset))
    (hfin : x.finConsumed = true → fin = true)
    (hcomplete : fin = true → 0 < x.bytesConsumed →
      x.bytesConsumed = (d.data.drop d.offset).length → x.finConsumed = true) :
    Ordered ((s.settleFront p (d.data.drop d.offset).length fin x).streams p).outgoing := by
  have hlen : (s.streams p).outgoing.queuedBytes.length =
      (d.data.drop d.offset).length + (l.flatMap fun d => d.data.drop d.offset).length := by
    simp [Outgoing.queuedBytes, hq]
  have htold' : ∀ (l' : List PendingData) (n : ℕ), Told
      { (s.streams p).outgoing with queuedDataBytes := n, queuedData := l' }
      ((d.data.drop d.offset).drop x.bytesConsumed ++ l.flatMap fun d => d.data.drop d.offset) :=
    fun _ _ => ⟨htold.accepted, htold.length, htold.written, htold.inPlace, htold.beyondData⟩
  rw [hq] at hoffset
  unfold Session.settleFront
  rw [Session.streams_modifyOutgoing_self, hq]
  dsimp only
  by_cases hpop : x.bytesConsumed = (d.data.drop d.offset).length ∧ fin = x.finConsumed
  · rw [if_pos hpop]
    have hnone : (d.data.drop d.offset).drop x.bytesConsumed = [] :=
      List.drop_eq_nil_of_le hpop.1.ge
    refine ⟨?_, ?_, fun e he => hoffset e (List.mem_cons_of_mem _ he)⟩
    · have h := htold' l ((s.streams p).outgoing.queuedDataBytes - x.bytesConsumed)
      rw [hnone, List.nil_append] at h
      exact h
    · show (s.streams p).outgoing.queuedDataBytes - x.bytesConsumed =
        (l.flatMap fun d => d.data.drop d.offset).length
      omega
  · rw [if_neg hpop]
    refine ⟨?_, ?_, fun e he => ?_⟩
    · have h := htold' ({ d with offset := d.offset + x.bytesConsumed } :: l)
        ((s.streams p).outgoing.queuedDataBytes - x.bytesConsumed)
      rw [List.drop_drop] at h
      exact h
    · show (s.streams p).outgoing.queuedDataBytes - x.bytesConsumed =
        (d.data.drop (d.offset + x.bytesConsumed) ++ l.flatMap fun d => d.data.drop d.offset).length
      rw [List.length_append, ← List.drop_drop, List.length_drop]
      omega
    · rcases List.mem_cons.1 he with rfl | he
      · -- If bytes are consumed, and all of them, the FIN is consumed with them.
        show d.offset + x.bytesConsumed = 0 ∨ d.offset + x.bytesConsumed < d.data.length
        have hd := hoffset d (List.mem_cons_self ..)
        have hpart : x.bytesConsumed = 0 ∨ x.bytesConsumed < (d.data.drop d.offset).length := by
          by_contra hall
          have hx : x.bytesConsumed = (d.data.drop d.offset).length := by omega
          refine hpop ⟨hx, Bool.eq_iff_iff.2 ⟨fun hf => hcomplete hf ?_ hx, hfin⟩⟩
          omega
        rw [List.length_drop] at hpart
        omega
      · exact hoffset e (List.mem_cons_of_mem _ he)

end Ordered

/-- What is left to offer is what is queued, on every stream. -/
def AllOrdered (s : Session) : Prop := ∀ q, Ordered (s.streams q).outgoing

/-- Answers that consume a FIN with the last byte. -/
def WithFin (as : List Answer) : Prop := ∀ a ∈ as, 0 < a.bytes → a.fin = true

theorem AllOrdered.of_streams (h : AllOrdered s) (ht : t.streams = s.streams) : AllOrdered t :=
  fun q => by rw [ht]; exact h q

theorem indifferent_allOrdered : Indifferent AllOrdered where
  change := fun h hg q => (hg q).outgoing ▸ h q
  close := by
    intro s id b h q
    rw [(unsent_closeStreamInner.similar q).outgoing]
    exact h q
  disconnect := fun h => h.of_streams rfl
  drain := fun h _ => h.of_streams rfl

namespace AllOrdered

/-- A change of one stream. -/
theorem of_eq (h : AllOrdered s) (hp : Ordered (t.streams p).outgoing)
    (hother : ∀ q, q ≠ p → (t.streams q).outgoing = (s.streams q).outgoing) : AllOrdered t := by
  intro q
  rcases eq_or_ne q p with rfl | hne
  · exact hp
  · exact hother q hne ▸ h q

theorem recounts (h : AllOrdered s) (ht : Recounts p s t) : AllOrdered t := by
  obtain ⟨c, hc⟩ := ht.self
  exact h.of_eq (hc ▸ (h p).recount) ht.other

theorem writeOrBufferData (h : AllOrdered s) : AllOrdered (s.writeOrBufferData p data fin a) := by
  refine h.of_eq (h p).writeOrBufferData fun q hq => ?_
  have hmod : ∀ (u : Session) (f : Outgoing → Outgoing),
      ((u.modifyOutgoing p f).streams q).outgoing = (u.streams q).outgoing := by
    intro u f
    unfold Session.modifyOutgoing
    rw [Session.streams_modify_of_ne hq]
  have hbuffer : ∀ (u : Session) (x : ConsumedData),
      ((u.bufferData p data fin x).streams q).outgoing = (u.streams q).outgoing := by
    intro u x
    unfold Session.bufferData
    split_ifs
    · exact hmod u _
    · rfl
  unfold Session.writeOrBufferData
  split_ifs
  · rfl
  · rfl
  · rfl
  · dsimp only
    rw [hbuffer]
    have haccept : ((s.acceptData p data fin).streams q).outgoing = (s.streams q).outgoing :=
      hmod s _
    split_ifs
    · exact ((Passed.writevData _ p _ _ _).2 q hq).trans haccept
    · exact haccept

/-- **The loop of `OnCanWrite`**, by induction on the number of chunks it may write. -/
theorem writeQueued (fuel : ℕ) (as : List Answer) (h : AllOrdered s) (has : WithFin as) :
    AllOrdered (Session.writeQueued p fuel s as) := by
  induction fuel generalizing s as with
  | zero => exact h
  | succ fuel ih =>
    unfold Session.writeQueued
    dsimp only
    cases hq : (s.streams p).outgoing.queuedData with
    | nil => exact h
    | cons d l =>
      dsimp only
      have hd : ¬(0 < d.offset ∧ d.data.length ≤ d.offset) := by
        have := (h p).offset d (hq ▸ List.mem_cons_self ..)
        omega
      have hans : 0 < (as.headD .nothing).bytes → (as.headD .nothing).fin = true := by
        cases as with
        | nil => exact fun hpos => absurd hpos (Nat.lt_irrefl 0)
        | cons a as => exact has a (List.mem_cons_self ..)
      rw [if_neg hd]
      obtain ⟨hpass, hother⟩ := Passed.writevData s p (d.data.drop d.offset)
        (l.isEmpty && (s.streams p).outgoing.finBuffered) (as.headD .nothing)
      have htold : Told (s.streams p).outgoing
          (d.data.drop d.offset ++ l.flatMap fun d => d.data.drop d.offset) := by
        have := (h p).told
        rwa [Outgoing.queuedBytes, hq, List.flatMap_cons] at this
      have htold' := hpass.told _ htold fun hf => by
        obtain ⟨hl, hbuf⟩ := Bool.and_eq_true _ _ ▸ hf
        exact ⟨hbuf, by rw [List.isEmpty_iff.1 hl]; rfl⟩
      generalize s.writevData p (d.data.drop d.offset) _ _ = r at hpass hother htold' ⊢
      have hq' := hpass.queuedData.trans hq
      have hqb : (r.2.streams p).outgoing.queuedBytes = (s.streams p).outgoing.queuedBytes := by
        unfold Outgoing.queuedBytes
        rw [hpass.queuedData]
      have hsettle : AllOrdered (r.2.settleFront p (d.data.drop d.offset).length
          (l.isEmpty && (s.streams p).outgoing.finBuffered) r.1) := by
        refine h.of_eq (p := p) ?_ fun q hne => ?_
        · refine Ordered.settleFront hq' ?_ ?_ hpass.le htold' hpass.finConsumed
            (hpass.complete hans)
          · rw [hpass.queuedDataBytes, hqb]
            exact (h p).bytes
          · rw [hpass.queuedData]
            exact (h p).offset
        · rw [← hother q hne]
          unfold Session.settleFront Session.modifyOutgoing
          rw [Session.streams_modify_of_ne hne]
      split_ifs
      · exact ih _ hsettle fun a ha => has a (List.mem_of_mem_tail ha)
      · exact hsettle

theorem onCanWrite {as : List Answer} (h : AllOrdered s) (has : WithFin as) :
    AllOrdered (s.onCanWrite p as) := by
  have hloop := h.writeQueued (p := p) (s.streams p).outgoing.queuedData.length as has
  unfold Session.onCanWrite
  dsimp only
  split_ifs
  · exact indifferent_allOrdered.closeWriteSide hloop
  · exact hloop

theorem streamOnWindowUpdateFrame {as : List Answer} {offset : ℕ} (h : AllOrdered s)
    (has : WithFin as) : AllOrdered (s.streamOnWindowUpdateFrame p offset as) := by
  have hupdate : AllOrdered (s.modifyOutgoing p fun o => { o with flowController :=
      ((s.streams p).outgoing.flowController.updateSendWindowOffset offset).2 }) :=
    h.recounts (Recounts.modifyOutgoing fun o => ⟨_, rfl⟩)
  unfold Session.streamOnWindowUpdateFrame
  dsimp only
  split_ifs
  · exact hupdate.onCanWrite has
  · exact hupdate

/-! ## Making streams -/

/-- Nothing has been accepted on a new stream. -/
theorem newStream (c : Config) (id : ℕ) (b w : Bool) : Ordered (c.newStream id b w).outgoing where
  told :=
    { accepted := rfl
      length := rfl
      written := rfl
      inPlace := eachAfter_nil
      beyondData := rfl }
  bytes := rfl
  offset := fun _ hd => absurd hd List.not_mem_nil

theorem activateStream {id : ℕ} {w : Bool} (h : AllOrdered s) :
    AllOrdered (s.activateStream id w) := by
  intro q
  rcases eq_or_ne q s.numStreams with rfl | hne
  · rw [show (s.activateStream id w).streams s.numStreams = s.config.newStream id false w from
      Function.update_self ..]
    exact newStream ..
  · rw [show (s.activateStream id w).streams q = s.streams q from Function.update_of_ne hne ..]
    exact h q

theorem getOrCreateDynamicStream {id : ℕ} (h : AllOrdered s) :
    AllOrdered (s.getOrCreateDynamicStream id).2 := by
  have hadm := s.admission id
  generalize s.getOrCreateDynamicStream id = r at hadm ⊢
  cases hadm with
  | failed hid => exact h.of_streams rfl
  | known p hp => exact h
  | closed hf hc => exact h
  | foreign hf hi => exact indifferent_allOrdered.closeConnection h
  | tooFar hn hlt => exact indifferent_allOrdered.closeConnection (h.of_streams rfl)
  | refused hn hfit hmax => exact h.of_streams rfl
  | ignored hn hfit hg => exact h.of_streams rfl
  | wrongParity hn hfit => exact indifferent_allOrdered.closeConnection (h.of_streams rfl)
  | made hn hfit hc w =>
    have hnote : AllOrdered ((s.admitId id).noteCreated id) := h.of_streams rfl
    exact hnote.activateStream

theorem createOutgoingDynamicStream (h : AllOrdered s) :
    AllOrdered s.createOutgoingDynamicStream := by
  unfold Session.createOutgoingDynamicStream
  split_ifs
  · have htake : AllOrdered { s with tables :=
        { s.tables with nextOutgoingStreamId := s.tables.nextOutgoingStreamId + 2 } } :=
      h.of_streams rfl
    exact htake.activateStream
  · exact h

end AllOrdered

theorem framed_allOrdered : Framed WithFin AllOrdered where
  toIndifferent := indifferent_allOrdered
  final := by
    intro s id n h
    unfold Session.onFinalByteOffsetReceived
    cases valueAt id s.tables.locallyClosedStreams with
    | none => exact h
    | some recorded =>
      dsimp only
      split_ifs
      · exact indifferent_allOrdered.closeConnection (h.of_streams rfl)
      · exact h.of_streams rfl
  windowUpdate := fun h _ has => h.streamOnWindowUpdateFrame has
  sessionWindow := fun h => h.of_streams rfl
  goaway := fun h => h.of_streams rfl

/-! ## Runs -/

/-- In `OnCanWrite` the connection consumes a FIN that it is offered with the last byte. -/
def Op.consumesFin : Op → Bool
  | .canWrite _ as => as.all fun a => decide (a.bytes = 0) || a.fin
  | .windowUpdate _ _ as => as.all fun a => decide (a.bytes = 0) || a.fin
  | _ => true

theorem withFin_of_all {as : List Answer}
    (h : as.all (fun a => decide (a.bytes = 0) || a.fin) = true) : WithFin as := by
  intro a ha hpos
  have := List.all_eq_true.1 h a ha
  simpa [hpos.ne'] using this

/-- **One step.** -/
theorem AllOrdered.step {y : Op × Environment} (h : AllOrdered s) (hy : y.1.consumesFin = true)
    (ht : s.step y = some t) : AllOrdered t := by
  obtain ⟨op, e⟩ := y
  obtain ⟨-, ht⟩ := Session.step_eq_some ht
  have h' : AllOrdered (s.arrive op e) := h.of_streams rfl
  by_cases hop : op.isFrame = true
  · refine framed_allOrdered.step (fun _ => h') (fun _ _ _ => h')
      (fun _ _ => h'.getOrCreateDynamicStream) (fun id offset as heq => ?_) hop ht
    subst heq
    exact withFin_of_all hy
  · refine indifferent_allOrdered.local_step (fun p as heq _ => ?_)
      (fun _ _ => h'.writeOrBufferData) (fun h => h.recounts (p := 0) Recounts.markFinSent)
      h'.createOutgoingDynamicStream (Bool.eq_false_iff.2 hop) h' ht
    subst heq
    exact h'.onCanWrite (withFin_of_all hy)

/-- **What holds of a stream's data**: the bytes consumed are the first ones accepted, every
hand-over is in its place, what is consumed and what is queued is what was accepted, and
the branch of `OnCanWrite` for an impossible offset has not been taken. -/
structure InOrder (o : Outgoing) : Prop where
  consumed : consumedBytes o.handOvers = o.accepted.take o.streamBytesWritten
  inPlace : ∀ before h after, o.handOvers = before ++ h :: after →
    InPlace o.accepted o.finBuffered before h
  written : (o.handOvers.map HandOver.bytesConsumed).sum = o.streamBytesWritten
  total : o.streamBytesWritten + o.queuedDataBytes = o.accepted.length
  beyondData : o.beyondData = false

/-- **Data is handed over without loss, duplication or reordering**, in every run in which
the connection consumes a FIN with the last byte. -/
theorem always_in_order (c : Config) (e : Environment) (ys : List (Op × Environment))
    (hys : EachStep Session.step (fun _ y => y.1.consumesFin = true) (Session.new c e) ys) :
    Always Session.step (fun s => ∀ p, InOrder (s.streams p).outgoing) (Session.new c e) ys := by
  have hnew : AllOrdered (Session.new c e) :=
    fun p => AllOrdered.newStream c (if p = 0 then 1 else 3) true false
  have hall : Always Session.step AllOrdered (Session.new c e) ys :=
    always_of_eachStep (fun s y t h hy ht => h.step hy ht) hnew hys
  refine hall.mono fun s h p => ?_
  have htold := (h p).told
  refine ⟨htold.consumedBytes_eq, htold.inPlace, htold.written, ?_, htold.beyondData⟩
  rw [(h p).bytes]
  exact htold.length_accepted

/-- Data is written in two hand-overs, the second of them from the queue. -/
theorem in_order_of_two_hand_overs :
    let ys : List (Op × Environment) :=
      [(.createOutgoing, ⟨1, 1⟩),
       (.write 2 [1, 2, 3] true ⟨false, 1, false, false⟩, ⟨2, 1⟩),
       (.canWrite 2 [⟨false, 2, true, false⟩], ⟨3, 1⟩)]
    Always Session.step (fun s => ∀ p, InOrder (s.streams p).outgoing)
        (Session.new (.tool .client) ⟨0, 1⟩) ys ∧
      (run Session.step (Session.new (.tool .client) ⟨0, 1⟩) ys).map
        (fun s => (s.streams 2).outgoing.handOvers) =
          some [⟨0, [1, 2, 3], true, 1, false⟩, ⟨1, [2, 3], true, 2, true⟩] :=
  ⟨always_in_order (.tool .client) ⟨0, 1⟩ _ (by decide), by decide⟩

/-- **A FIN is lost**: in `OnCanWrite` the connection consumes both bytes and not the FIN,
and the next `OnCanWrite` finds the offset of the chunk behind its data. -/
theorem exists_offset_beyond_data : ∃ s,
    run Session.step (Session.new (.tool .client) ⟨0, 1⟩)
      [(.createOutgoing, ⟨1, 1⟩),
       (.write 2 [1, 2] true ⟨false, 0, false, false⟩, ⟨2, 1⟩),
       (.canWrite 2 [⟨false, 2, false, false⟩], ⟨3, 1⟩),
       (.canWrite 2 [⟨false, 0, true, false⟩], ⟨4, 1⟩)] = some s ∧
      s.connected = true ∧ (s.streams 2).outgoing.beyondData = true ∧
      (s.streams 2).finSent = false ∧ ¬ InOrder (s.streams 2).outgoing :=
  ⟨_, rfl, rfl, rfl, rfl, fun h => absurd h.beyondData (by decide)⟩

end Streams
end QuicNs3
