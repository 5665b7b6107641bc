/-
# The ledger of receive credit

Where the bytes that the peer has sent on a stream are counted depends on what has become
of it.  While the stream is open it is its highest offset that counts; when it has been
closed before its final offset was known, the one recorded in the table of locally closed
streams; and when the final offset is known, that one.  `Session.credit` is this number,
and `Ledger` says that the highest offset of the session is the sum of it over all streams.

`F` gives the final offset of each stream, as the peer will tell it, and `G` are the ids
whose final offset has been received.
-/

import QuicNs3.Streams.Handles
import QuicNs3.Streams.Limits

namespace QuicNs3
namespace Streams

open Lib

variable {F : ℕ → ℕ} {G G' : ℕ → Prop} {c : Config} {N M : Finset ℕ} {s t : Session}
  {st : Stream} {p q id n : ℕ} {d w : Bool}

/-! ## One stream -/

namespace Stream

/-- **A stream keeps to its final offset.** -/
structure Agrees (F : ℕ → ℕ) (dynamic : Bool) (st : Stream) : Prop where
  le : st.flowController.highestReceivedByteOffset ≤ F st.id
  reading : dynamic = true → st.readSideClosed = true →
    st.flowController.highestReceivedByteOffset = F st.id
  closeOffset : st.sequencer.closeOffset ≠ kMaxOffset → st.sequencer.closeOffset = F st.id
  rst : st.rstReceived = true → st.flowController.highestReceivedByteOffset = F st.id

/-- What the ledger looks at. -/
structure Holds (a b : Stream) : Prop where
  id : b.id = a.id
  isStatic : b.isStatic = a.isStatic
  highest : b.flowController.highestReceivedByteOffset = a.flowController.highestReceivedByteOffset
  closeOffset : b.sequencer.closeOffset = a.sequencer.closeOffset
  rstReceived : b.rstReceived = a.rstReceived
  finReceived : a.finReceived = true → b.finReceived = true

theorem Holds.refl (a : Stream) : Holds a a := ⟨rfl, rfl, rfl, rfl, rfl, fun h => h⟩

theorem Holds.of_marks {a b : Stream} (h : Marks a b) : Holds a b :=
  ⟨h.id, h.isStatic, by rw [h.flowController], h.closeOffset, h.rstReceived, h.finReceived⟩

theorem Holds.hasFinal {a b : Stream} (h : Holds a b)
    (ha : a.hasFinalReceivedByteOffset = true) : b.hasFinalReceivedByteOffset = true := by
  unfold hasFinalReceivedByteOffset at ha ⊢
  rw [Bool.or_eq_true] at ha ⊢
  exact ha.imp h.finReceived fun hr => h.rstReceived.trans hr

/-- The read side is closed only of a stream that has received all. -/
theorem Holds.agrees {a b : Stream} (h : Holds a b) (ha : a.Agrees F d)
    (hread : d = true → b.readSideClosed = true → a.readSideClosed = true ∨
      a.flowController.highestReceivedByteOffset = F a.id) : b.Agrees F d where
  le := by
    rw [h.highest, h.id]
    exact ha.le
  reading := by
    intro hd hr
    rw [h.highest, h.id]
    exact (hread hd hr).elim (ha.reading hd) fun heq => heq
  closeOffset := by
    rw [h.closeOffset, h.id]
    exact ha.closeOffset
  rst := by
    rw [h.highest, h.id, h.rstReceived]
    exact ha.rst

/-- **Where the read side is closed, all has been received.** -/
theorem Agrees.of_ended (h : st.Agrees F d) (hst : st.Intact)
    (he : st.sequencer.isClosed = true ∨ st.rstReceived = true) :
    st.flowController.highestReceivedByteOffset = F st.id := by
  rcases he with he | he
  · have hle := of_decide_eq_true he
    have htotal := hst.arranged.totalBytesRead_le
    have hlt := hst.arranged.lt
    have heq := h.closeOffset (by omega)
    have := h.le
    omega
  · exact h.rst he

end Stream

/-! ## The ledger -/

/-- **What a stream counts for** in the highest offset of the session. -/
def Session.credit (F : ℕ → ℕ) (s : Session) (p : ℕ) : ℕ :=
  if (s.streams p).isStatic then 0
  else if s.isDynamic p then (s.streams p).flowController.highestReceivedByteOffset
  else (valueAt (s.streams p).id s.tables.locallyClosedStreams).getD (F (s.streams p).id)

/-- **The final offset of a stream is known**: it is marked if the stream is open, and else
nothing is recorded any more, or the final offset itself. -/
structure Known (F : ℕ → ℕ) (s : Session) (id : ℕ) : Prop where
  hasStream : HasStream s id
  marked : ∀ p, (id, p) ∈ s.tables.dynamicStreams →
    (s.streams p).hasFinalReceivedByteOffset = true
  settled : ∀ offset, valueAt id s.tables.locallyClosedStreams = some offset → offset = F id

/-- **The ledger of an open connection.** -/
structure Ledger (F : ℕ → ℕ) (G : ℕ → Prop) (s : Session) : Prop where
  received : Received s
  stream : ∀ p, (s.streams p).isStatic = false → (s.streams p).Agrees F (s.isDynamic p)
  recorded : ∀ id offset, valueAt id s.tables.locallyClosedStreams = some offset →
    id ∉ s.tables.dynamicIds ∧ offset ≤ F id ∧ HasStream s id
  known : ∀ id, G id → Known F s id
  total : ∑ p ∈ Finset.range s.numStreams, s.credit F p =
    s.flowController.highestReceivedByteOffset

theorem HasStream.congr (h : HasStream s id) (hid : ∀ q, (t.streams q).id = (s.streams q).id)
    (hstatic : ∀ q, (t.streams q).isStatic = (s.streams q).isStatic) : HasStream t id := by
  obtain ⟨p, hp, rfl⟩ := h
  exact ⟨p, (hstatic p).trans hp, hid p⟩

theorem Known.congr (h : Known F s id) (hid : ∀ q, (t.streams q).id = (s.streams q).id)
    (hstatic : ∀ q, (t.streams q).isStatic = (s.streams q).isStatic)
    (hfinal : ∀ q, (s.streams q).hasFinalReceivedByteOffset = true →
      (t.streams q).hasFinalReceivedByteOffset = true)
    (hdyn : t.tables.dynamicStreams = s.tables.dynamicStreams)
    (hlc : t.tables.locallyClosedStreams = s.tables.locallyClosedStreams) : Known F t id where
  hasStream := h.hasStream.congr hid hstatic
  marked := fun q hq => hfinal q (h.marked q (hdyn ▸ hq))
  settled := hlc ▸ h.settled

namespace Ledger

/-- Nothing is counted, or counted otherwise. -/
theorem change (h : Ledger F G s) (hR : Received t)
    (hst : ∀ q, (s.streams q).Holds (t.streams q))
    (hread : ∀ q, (s.streams q).isStatic = false → s.isDynamic q = true →
      (t.streams q).readSideClosed = true → (s.streams q).readSideClosed = true ∨
        (s.streams q).flowController.highestReceivedByteOffset = F (s.streams q).id)
    (hdyn : t.tables.dynamicStreams = s.tables.dynamicStreams)
    (hlc : t.tables.locallyClosedStreams = s.tables.locallyClosedStreams)
    (hnum : t.numStreams = s.numStreams)
    (hhigh : t.flowController.highestReceivedByteOffset =
      s.flowController.highestReceivedByteOffset) : Ledger F G t where
  received := hR
  stream := by
    intro p hp
    rw [(hst p).isStatic] at hp
    rw [Session.isDynamic_congr hdyn]
    exact (hst p).agrees (h.stream p hp) (hread p hp)
  recorded := by
    intro id offset hval
    rw [hlc] at hval
    obtain ⟨hid, hle, hhas⟩ := h.recorded id offset hval
    unfold Tables.dynamicIds at hid ⊢
    rw [hdyn]
    exact ⟨hid, hle, hhas.congr (fun q => (hst q).id) fun q => (hst q).isStatic⟩
  known := fun id hG => (h.known id hG).congr (fun q => (hst q).id) (fun q => (hst q).isStatic)
    (fun q => (hst q).hasFinal) hdyn hlc
  total := by
    have hcredit : ∀ q, t.credit F q = s.credit F q := by
      intro q
      unfold Session.credit
      rw [(hst q).isStatic, (hst q).id, (hst q).highest, Session.isDynamic_congr hdyn, hlc]
    rw [hnum, hhigh, Finset.sum_congr rfl fun q _ => hcredit q]
    exact h.total

/-- **One stream is changed**, and the highest offset of the session with it. -/
theorem update (h : Ledger F G s) (hH : Handles c N M s) (hR : Received t)
    (hstreams : t.streams = Function.update s.streams p st)
    (hid : st.id = (s.streams p).id) (hstatic : st.isStatic = (s.streams p).isStatic)
    (hagrees : (s.streams p).isStatic = false → st.Agrees F (s.isDynamic p))
    (hfinal : (s.streams p).hasFinalReceivedByteOffset = true →
      st.hasFinalReceivedByteOffset = true)
    (hdyn : t.tables.dynamicStreams = s.tables.dynamicStreams)
    (hlc : t.tables.locallyClosedStreams = s.tables.locallyClosedStreams)
    (hnum : t.numStreams = s.numStreams)
    (htotal : if !(s.streams p).isStatic && s.isDynamic p then
        t.flowController.highestReceivedByteOffset +
            (s.streams p).flowController.highestReceivedByteOffset =
          s.flowController.highestReceivedByteOffset +
            st.flowController.highestReceivedByteOffset
      else t.flowController.highestReceivedByteOffset =
        s.flowController.highestReceivedByteOffset) : Ledger F G t := by
  have hself : t.streams p = st := by rw [hstreams, Function.update_self]
  have hother : ∀ q, q ≠ p → t.streams q = s.streams q :=
    fun q hq => by rw [hstreams, Function.update_of_ne hq]
  have hids : ∀ q, (t.streams q).id = (s.streams q).id ∧
      (t.streams q).isStatic = (s.streams q).isStatic := by
    intro q
    rcases eq_or_ne q p with rfl | hne
    · rw [hself]
      exact ⟨hid, hstatic⟩
    · rw [hother q hne]
      exact ⟨rfl, rfl⟩
  have hout : s.numStreams ≤ p → t.credit F p = s.credit F p := by
    intro hp
    have hs : (s.streams p).isStatic = true := by
      by_contra hs
      exact absurd (hH.lt p (Bool.eq_false_iff.2 hs)) (Nat.not_lt.2 hp)
    unfold Session.credit
    rw [hself, hstatic, hs]
    rfl
  have hcredit : t.flowController.highestReceivedByteOffset + s.credit F p =
      s.flowController.highestReceivedByteOffset + t.credit F p := by
    unfold Session.credit
    rw [hself, hstatic, hid, Session.isDynamic_congr hdyn, hlc]
    cases hs : (s.streams p).isStatic <;> cases hd : s.isDynamic p <;>
      simpa [hs, hd] using htotal
  have hsum := sum_range_change_of_le (n := s.numStreams) (f := s.credit F) (g := t.credit F) hout
    fun q hq => by
      unfold Session.credit
      rw [hother q hq, Session.isDynamic_congr hdyn, hlc]
  refine ⟨hR, fun q hq => ?_, fun x offset hval => ?_, fun x hG => ?_, ?_⟩
  · rw [Session.isDynamic_congr hdyn]
    rw [(hids q).2] at hq
    rcases eq_or_ne q p with rfl | hne
    · rw [hself]
      exact hagrees hq
    · rw [hother q hne]
      exact h.stream q hq
  · rw [hlc] at hval
    obtain ⟨hx, hle, hhas⟩ := h.recorded x offset hval
    unfold Tables.dynamicIds at hx ⊢
    rw [hdyn]
    exact ⟨hx, hle, hhas.congr (fun q => (hids q).1) fun q => (hids q).2⟩
  · refine (h.known x hG).congr (fun q => (hids q).1) (fun q => (hids q).2) (fun q hq => ?_) hdyn
      hlc
    rcases eq_or_ne q p with rfl | hne
    · rw [hself]
      exact hfinal hq
    · rw [hother q hne]
      exact hq
  · have := h.total
    rw [hnum]
    omega

/-- More final offsets are known. -/
theorem learn (h : Ledger F G s) (hG : ∀ x, G' x → G x ∨ Known F s x) : Ledger F G' s :=
  { h with known := fun x hx => (hG x hx).elim (h.known x) fun hx => hx }

end Ledger

/-! ## Closing -/

namespace Tables

variable {t : Tables} {o : Option ℕ} {x : ℕ}

theorem valueAt_closeStream_of_ne (h : x ≠ id) :
    valueAt x (t.closeStream id o).locallyClosedStreams = valueAt x t.locallyClosedStreams := by
  cases o with
  | none => rfl
  | some offset =>
    show valueAt x (without id t.locallyClosedStreams ++ [(id, offset)]) = _
    rw [valueAt_put, if_neg h]

theorem valueAt_closeStream_self {offset : ℕ} :
    valueAt id (t.closeStream id (some offset)).locallyClosedStreams = some offset := by
  show valueAt id (without id t.locallyClosedStreams ++ [(id, offset)]) = _
  rw [valueAt_put, if_pos rfl]

end Tables

theorem Leaves.id_eq (L : Leaves s t id q) (x : ℕ) : (t.streams x).id = (s.streams x).id := by
  rcases eq_or_ne x q with rfl | hne
  · exact L.stream.id
  · rw [L.other x hne]

theorem Leaves.isStatic (L : Leaves s t id q) (x : ℕ) :
    (t.streams x).isStatic = (s.streams x).isStatic := by
  rcases eq_or_ne x q with rfl | hne
  · exact L.stream.isStatic
  · rw [L.other x hne]

theorem Leaves.mem_dynamicIds (L : Leaves s t id q) {x : ℕ} (hx : x ∈ t.tables.dynamicIds) :
    x ∈ s.tables.dynamicIds ∧ x ≠ id := by
  rw [L.tables] at hx
  exact Tables.mem_dynamicIds_closeStream.1 hx

theorem Leaves.valueAt_of_ne (L : Leaves s t id q) {x : ℕ} (hx : x ≠ id) :
    valueAt x t.tables.locallyClosedStreams = valueAt x s.tables.locallyClosedStreams := by
  rw [L.tables, Tables.valueAt_closeStream_of_ne hx]

/-- The highest offset is recorded, unless the final one is known. -/
theorem Leaves.valueAt_self (L : Leaves s t id q)
    (hnone : valueAt id s.tables.locallyClosedStreams = none) :
    valueAt id t.tables.locallyClosedStreams =
      if (s.streams q).hasFinalReceivedByteOffset then none
        else some (s.streams q).flowController.highestReceivedByteOffset := by
  rw [L.tables]
  split_ifs
  · exact hnone
  · exact Tables.valueAt_closeStream_self

/-- A closed stream keeps to its final offset. -/
theorem Stream.Departs.agrees {a b : Stream} (h : a.Departs b) (ha : a.Agrees F d) :
    b.Agrees F false where
  le := by
    rw [h.highest, h.id]
    exact ha.le
  reading := fun hd => absurd hd (by decide)
  closeOffset := by
    rw [h.closeOffset, h.id]
    exact ha.closeOffset
  rst := by
    rw [h.rstReceived, h.highest, h.id]
    exact ha.rst

/-- The stream under an id is dynamic if the id is. -/
theorem Formed.mem_dynamicIds (hF : Formed s) (hd : s.isDynamic p = true) :
    (s.streams p).id ∈ s.tables.dynamicIds ∧ ((s.streams p).id, p) ∈ s.tables.dynamicStreams := by
  obtain ⟨e, he, rfl⟩ := List.mem_map.1 (of_decide_eq_true hd)
  rw [hF.id_eq e he]
  exact ⟨List.mem_map.2 ⟨e, he, rfl⟩, he⟩

/-- Nothing is recorded for a stream that is open. -/
theorem Ledger.valueAt_eq_none (h : Ledger F G s) (hmem : (id, q) ∈ s.tables.dynamicStreams) :
    valueAt id s.tables.locallyClosedStreams = none := by
  cases hval : valueAt id s.tables.locallyClosedStreams with
  | none => rfl
  | some offset => exact absurd (List.mem_map.2 ⟨_, hmem, rfl⟩) (h.recorded id offset hval).1

/-- **A stream that is closed counts for as much as before**, if all of it has been received
where its final offset is known. -/
theorem Ledger.credit_eq_of_leaves (h : Ledger F G s) (hH : Handles c N M s) (hF : Formed s)
    (hq : s.findDynamic id = some q) (L : Leaves s t id q)
    (hA : (s.streams q).hasFinalReceivedByteOffset = true →
      (s.streams q).flowController.highestReceivedByteOffset = F (s.streams q).id) (x : ℕ) :
    t.credit F x = s.credit F x := by
  have hd := isDynamic_of_findDynamic hq
  have hmem := mem_of_findDynamic hq
  have hid : (s.streams q).id = id := hF.id_eq _ hmem
  unfold Session.credit
  rw [L.id_eq, L.isStatic]
  by_cases hs : (s.streams x).isStatic = true
  · rw [if_pos hs, if_pos hs]
  rw [if_neg hs, if_neg hs]
  rcases eq_or_ne x q with rfl | hxq
  · rw [L.isDynamic_self, if_neg (by decide), if_pos hd, hid,
      L.valueAt_self (h.valueAt_eq_none hmem)]
    split_ifs with hfin
    · rw [hA hfin, hid]
      rfl
    · rfl
  · have hxid : (s.streams x).id ≠ id := fun hx =>
      hxq (hH.unique x q (Bool.eq_false_iff.2 hs) (hF.isStatic_of_isDynamic hd) (hx.trans hid.symm))
    rw [L.isDynamic x hxq, L.other x hxq, L.valueAt_of_ne hxid]

/-- A final offset that is known stays known when a stream is closed. -/
theorem Known.of_leaves {x : ℕ} (h : Known F s x) (hF : Formed s)
    (hmem : (id, q) ∈ s.tables.dynamicStreams)
    (hnone : valueAt id s.tables.locallyClosedStreams = none) (L : Leaves s t id q) :
    Known F t x where
  hasStream := h.hasStream.congr L.id_eq L.isStatic
  marked := by
    intro y hy
    rw [L.tables, Tables.dynamicStreams_closeStream] at hy
    obtain ⟨hy, hxid⟩ := mem_without.1 hy
    have hyq : y ≠ q := by
      rintro rfl
      exact hxid ((hF.id_eq _ hy).symm.trans (hF.id_eq _ hmem))
    rw [L.other y hyq]
    exact h.marked y hy
  settled := by
    intro offset hx
    rcases eq_or_ne x id with rfl | hxid
    · rw [L.valueAt_self hnone, if_pos (h.marked q hmem)] at hx
      exact absurd hx (by simp)
    · exact h.settled offset (L.valueAt_of_ne hxid ▸ hx)

/-- **A stream is closed**: its highest offset is recorded, unless the final one is known,
and then it is the highest one. -/
theorem Ledger.closeStreamInner {b : Bool} (h : Ledger F G s) (hH : Handles c N M s)
    (hF : Formed s)
    (hA : ∀ q, s.findDynamic id = some q → (s.streams q).hasFinalReceivedByteOffset = true →
      (s.streams q).flowController.highestReceivedByteOffset = F (s.streams q).id) :
    Ledger F G (s.closeStreamInner id b) := by
  have hR : Received (s.closeStreamInner id b) :=
    (h.received.tally.closeStreamInner hF).received
  cases hq : s.findDynamic id with
  | none =>
    unfold Session.closeStreamInner
    rw [hq]
    exact h
  | some q =>
    have L := leaves_closeStreamInner (b := b) h.received hF hq
    have hmem := mem_of_findDynamic hq
    have hid : (s.streams q).id = id := hF.id_eq _ hmem
    have hnone := h.valueAt_eq_none hmem
    generalize s.closeStreamInner id b = t at L hR ⊢
    refine ⟨hR, fun x hx => ?_, fun x offset hx => ?_,
      fun x hG => (h.known x hG).of_leaves hF hmem hnone L, ?_⟩
    · rw [L.isStatic] at hx
      have hagrees := h.stream x hx
      rcases eq_or_ne x q with rfl | hxq
      · rw [L.isDynamic_self]
        exact L.stream.agrees hagrees
      · rw [L.other x hxq, L.isDynamic x hxq]
        exact hagrees
    · rcases eq_or_ne x id with rfl | hxid
      · rw [L.valueAt_self hnone] at hx
        split_ifs at hx
        obtain rfl := Option.some.inj hx
        exact ⟨fun hd => (L.mem_dynamicIds hd).2 rfl, hid ▸ (h.stream q (hF.isStatic _ hmem)).le,
          (Handles.of_dynamic hF hmem).congr L.id_eq L.isStatic⟩
      · rw [L.valueAt_of_ne hxid] at hx
        obtain ⟨hd, hle, hhas⟩ := h.recorded x offset hx
        exact ⟨fun hd' => hd (L.mem_dynamicIds hd').1, hle, hhas.congr L.id_eq L.isStatic⟩
    · have hcredit : ∀ x, t.credit F x = s.credit F x :=
        h.credit_eq_of_leaves hH hF hq L (hA q hq)
      rw [L.numStreams, Finset.sum_congr rfl fun x _ => hcredit x, h.total, L.highest]

/-! ## Raising the highest offset -/

/-- A stream that can receive more has not been closed or reset by the peer. -/
theorem Stream.Agrees.raise {C : ReceiveController} (h : st.Agrees F d)
    (hlt : st.flowController.highestReceivedByteOffset < n) (hle : n ≤ F st.id)
    (hC : C.highestReceivedByteOffset = n) : (st.withController C).Agrees F d where
  le := hC.trans_le hle
  reading := fun hd hr => absurd (h.reading hd hr) (hlt.trans_le hle).ne
  closeOffset := h.closeOffset
  rst := fun hr => absurd (h.rst hr) (hlt.trans_le hle).ne

/-- **Raising the highest offset**, up to the final one. -/
theorem Ledger.raise (h : Ledger F G s) (hH : Handles c N M s) (hF : Formed s)
    (hd : (s.streams p).isStatic = false → s.isDynamic p = true)
    (hlt : (s.streams p).flowController.highestReceivedByteOffset < n) (hin : InWindows s p n)
    (hn : Below n) (hroom : Below s.flowController.receiveWindowOffset)
    (hle : (s.streams p).isStatic = false → n ≤ F (s.streams p).id) :
    Ledger F G (s.increaseHighestReceivedOffset p n) := by
  have hst := h.received.stream p
  have hR : Received (s.increaseHighestReceivedOffset p n) :=
    (h.received.tally.raise hF hd hlt hin hn hroom).received
  obtain ⟨C, D, heq, ⟨-, hC, -⟩, -, hD, -⟩ :=
    increaseHighestReceivedOffset_spec hst.sound h.received.session hlt hin hn hroom
  rw [heq] at hR ⊢
  refine h.update hH hR rfl rfl rfl (fun hs => (h.stream p hs).raise hlt (hle hs) hC)
    (fun hf => hf) rfl rfl rfl ?_
  show if _ then D.highestReceivedByteOffset + _ = _ + C.highestReceivedByteOffset
    else D.highestReceivedByteOffset = _
  rw [hC, hD]
  by_cases hs : (s.streams p).isStatic = true
  · simp [hs]
  · have hs' := Bool.eq_false_iff.2 hs
    rw [hs', hd hs', if_pos (by decide), if_neg (by decide)]
    omega

/-- **A reset of the peer** raises the offset to the final one. -/
theorem Ledger.peerReset (h : Ledger F G s) (hH : Handles c N M s) (hF : Formed s)
    (hd : s.isDynamic p = true) (hin : InWindows s p (F (s.streams p).id))
    (hwindow : Below (s.streams p).flowController.receiveWindowOffset)
    (hroom : Below s.flowController.receiveWindowOffset) :
    Ledger F G ((s.modify p fun st =>
      { st with rstReceived := true }).maybeIncreaseHighestReceivedOffset p
        (F (s.streams p).id)) := by
  have hR := (h.received.tally.peerReset hF hd hin hwindow hroom).received
  have hs := hF.isStatic_of_isDynamic hd
  have hagrees := h.stream p hs
  let u : Session := s.modify p fun st => { st with rstReceived := true }
  have hself : u.streams p = { s.streams p with rstReceived := true } :=
    Session.streams_modify_self
  unfold Session.maybeIncreaseHighestReceivedOffset at hR ⊢
  split_ifs at hR ⊢ with hle
  · change (u.streams p).flowController.highestReceivedByteOffset ≥ F (s.streams p).id at hle
    rw [hself] at hle
    have heq : (s.streams p).flowController.highestReceivedByteOffset = F (s.streams p).id :=
      le_antisymm hagrees.le hle
    refine h.update hH hR rfl rfl rfl (fun _ => ⟨hagrees.le, hagrees.reading, hagrees.closeOffset,
      fun _ => heq⟩) (fun _ => Bool.or_true _) rfl rfl rfl ?_
    rw [hs, hd, if_pos (by decide)]
    rfl
  · have hlt : (u.streams p).flowController.highestReceivedByteOffset < F (s.streams p).id :=
      Nat.lt_of_not_le hle
    have hin' : InWindows u p (F (s.streams p).id) := by
      unfold InWindows
      rw [hself]
      exact hin
    have hn : Below (F (s.streams p).id) := (Nat.add_le_add_right hin.1 _).trans_lt hwindow
    obtain ⟨C, D, heq, ⟨-, hC, -⟩, -, hD, -⟩ := increaseHighestReceivedOffset_spec (s := u) (p := p)
      (by rw [hself]; exact (h.received.stream p).sound) h.received.session hlt hin' hn hroom
    have hstreams : Function.update u.streams p ((u.streams p).withController C) =
        Function.update s.streams p
          (({ s.streams p with rstReceived := true } : Stream).withController C) := by
      rw [hself]
      exact Function.update_idem ..
    have hstatic : (u.streams p).isStatic = false := by
      rw [hself]
      exact hs
    rw [if_neg (by rw [hstatic]; decide), hself] at hD
    rw [hself] at hlt
    have hagrees' := hagrees.raise hlt le_rfl hC
    change Received (u.increaseHighestReceivedOffset p (F (s.streams p).id)) at hR
    show Ledger F G (u.increaseHighestReceivedOffset p (F (s.streams p).id))
    rw [heq] at hR ⊢
    refine h.update hH hR hstreams rfl rfl (fun _ => ⟨hagrees'.le, hagrees'.reading,
      hagrees'.closeOffset, fun _ => hC⟩) (fun _ => Bool.or_true _) rfl rfl rfl ?_
    rw [hs, hd, if_pos (by decide)]
    show D.highestReceivedByteOffset + _ = _ + C.highestReceivedByteOffset
    change D.highestReceivedByteOffset = s.flowController.highestReceivedByteOffset +
      (F (s.streams p).id - (s.streams p).flowController.highestReceivedByteOffset) at hD
    change (s.streams p).flowController.highestReceivedByteOffset < F (s.streams p).id at hlt
    rw [hC, hD]
    omega

/-! ## Final offsets of closed streams -/

/-- **The final offset of a closed stream** takes the place of the recorded one. -/
theorem Ledger.settle {recorded : ℕ} (h : Ledger F G s) (hH : Handles c N M s) (hF : Formed s)
    (hval : valueAt id s.tables.locallyClosedStreams = some recorded)
    (hle : s.flowController.highestReceivedByteOffset + (F id - recorded) ≤
      s.flowController.receiveWindowOffset)
    (hroom : Below s.flowController.receiveWindowOffset) :
    Ledger F G (s.settle id (F id) recorded) := by
  have hR : Received (s.settle id (F id) recorded) := (h.received.tally.settle hle hroom).received
  obtain ⟨-, -, hhigh⟩ := h.received.session.settle (e := s.environment) hle hroom
  obtain ⟨hid, hrec, q, hs, hqid⟩ := h.recorded id recorded hval
  have hne : ∀ x, x ≠ id →
      valueAt x (s.settle id (F id) recorded).tables.locallyClosedStreams =
        valueAt x s.tables.locallyClosedStreams := fun x hx => valueAt_without_of_ne hx
  have hnone : valueAt id (s.settle id (F id) recorded).tables.locallyClosedStreams = none :=
    valueAt_eq_none_iff.2 not_mem_keys_without
  have hsub : ∀ x offset,
      valueAt x (s.settle id (F id) recorded).tables.locallyClosedStreams = some offset →
      valueAt x s.tables.locallyClosedStreams = some offset := by
    intro x offset hx
    rcases eq_or_ne x id with rfl | hxid
    · exact absurd (hnone.symm.trans hx) (by simp)
    · rwa [hne x hxid] at hx
  refine ⟨hR, h.stream, fun x offset hx => h.recorded x offset (hsub x offset hx),
    fun x hG => ?_, ?_⟩
  · obtain ⟨hhas, hfinal, hoffset⟩ := h.known x hG
    exact ⟨hhas, hfinal, fun offset hx => hoffset offset (hsub x offset hx)⟩
  · have hd : s.isDynamic q = false := Bool.eq_false_iff.2 fun hd =>
      hid (hqid ▸ (hF.mem_dynamicIds hd).1)
    have hd' : (s.settle id (F id) recorded).isDynamic q = false := hd
    have hsum := sum_range_change (f := s.credit F)
      (g := (s.settle id (F id) recorded).credit F) (hH.lt q hs) fun x hx => by
        unfold Session.credit
        by_cases hxs : (s.streams x).isStatic = true
        · rw [if_pos hxs]
          exact if_pos hxs
        · have hxid : (s.streams x).id ≠ id := fun hxid =>
            hx (hH.unique x q (Bool.eq_false_iff.2 hxs) hs (hxid.trans hqid.symm))
          rw [show (s.settle id (F id) recorded).streams x = s.streams x from rfl, hne _ hxid]
          rfl
    have hold : s.credit F q = recorded := by
      unfold Session.credit
      rw [hs, hd, hqid, hval]
      rfl
    have hnew : (s.settle id (F id) recorded).credit F q = F id := by
      unfold Session.credit
      rw [hd', show (s.settle id (F id) recorded).streams q = s.streams q from rfl, hs, hqid, hnone]
      rfl
    have htotal := h.total
    refine Eq.trans ?_ hhigh.symm
    show ∑ x ∈ Finset.range s.numStreams, (s.settle id (F id) recorded).credit F x = _
    omega

/-! ## Making streams -/

/-- **A stream is made**, which counts for nothing. -/
theorem Ledger.make (h : Ledger F G s) (hH : Handles c N M s) (hF : Formed s) (hR : Received t)
    (hstreams : t.streams = Function.update s.streams s.numStreams (s.config.newStream id false w))
    (hnum : t.numStreams = s.numStreams + 1)
    (hdyn : t.tables.dynamicStreams = s.tables.dynamicStreams ++ [(id, s.numStreams)])
    (hlc : t.tables.locallyClosedStreams = s.tables.locallyClosedStreams)
    (hflow : t.flowController = s.flowController)
    (hfresh : ∀ p, (s.streams p).isStatic = false → (s.streams p).id ≠ id) : Ledger F G t := by
  have hnew : t.streams s.numStreams = s.config.newStream id false w := by
    rw [hstreams, Function.update_self]
  have hold : ∀ q, q ≠ s.numStreams → t.streams q = s.streams q :=
    fun q hq => by rw [hstreams, Function.update_of_ne hq]
  have hisDynamic : ∀ q, q ≠ s.numStreams → t.isDynamic q = s.isDynamic q := by
    intro q hq
    unfold Session.isDynamic
    rw [hdyn]
    simp [hq]
  have hhas : ∀ x, HasStream s x → HasStream t x ∧ x ≠ id := by
    rintro x ⟨p, hp, rfl⟩
    have hne := (hH.lt p hp).ne
    exact ⟨⟨p, by rw [hold p hne]; exact hp, by rw [hold p hne]⟩, hfresh p hp⟩
  have hmem : ∀ x q, (x, q) ∈ t.tables.dynamicStreams →
      (x, q) ∈ s.tables.dynamicStreams ∨ x = id ∧ q = s.numStreams := by
    intro x q hx
    rw [hdyn] at hx
    rcases List.mem_append.1 hx with hx | hx
    · exact .inl hx
    · exact .inr (Prod.mk.inj (List.mem_singleton.1 hx))
  refine ⟨hR, fun q hq => ?_, fun x offset hx => ?_, fun x hG => ?_, ?_⟩
  · rcases eq_or_ne q s.numStreams with rfl | hne
    · rw [hnew]
      exact ⟨Nat.zero_le _, fun _ hr => absurd hr Bool.false_ne_true, fun hmax => absurd rfl hmax,
        fun hr => absurd hr Bool.false_ne_true⟩
    · rw [hold q hne] at hq ⊢
      rw [hisDynamic q hne]
      exact h.stream q hq
  · rw [hlc] at hx
    obtain ⟨hid, hle, hx⟩ := h.recorded x offset hx
    refine ⟨fun hd => ?_, hle, (hhas x hx).1⟩
    obtain ⟨⟨y, q⟩, hy, rfl⟩ := List.mem_map.1 hd
    rcases hmem y q hy with hy | ⟨rfl, -⟩
    · exact hid (List.mem_map.2 ⟨_, hy, rfl⟩)
    · exact (hhas _ hx).2 rfl
  · obtain ⟨hx, hfinal, hoffset⟩ := h.known x hG
    refine ⟨(hhas x hx).1, fun q hq => ?_, hlc ▸ hoffset⟩
    rcases hmem x q hq with hq | ⟨rfl, -⟩
    · rw [hold q (hF.lt _ hq).ne]
      exact hfinal q hq
    · exact absurd rfl (hhas _ hx).2
  · have hsum := sum_range_extend (n := s.numStreams) (f := s.credit F) (g := t.credit F)
      fun q hq => by
        unfold Session.credit
        rw [hold q hq.ne, hisDynamic q hq.ne, hlc]
    have hzero : t.credit F s.numStreams = 0 := by
      have hd : t.isDynamic s.numStreams = true := by
        unfold Session.isDynamic
        rw [hdyn]
        simp
      unfold Session.credit
      rw [hnew, hd]
      rfl
    rw [hnum, hsum, hzero, hflow]
    exact h.total

end Streams
end QuicNs3
