/-
# Adding and dropping packets

The operations that change which packets are tracked.  `RemoveObsoletePackets`
takes packets off the front, and a packet in flight, or with frames to
retransmit, is not one of them.  `AddSentPacket` fills the gap to the new packet
number, moves the frames of a packet that is sent again, drops obsolete packets in
the middle of this, and adds the entry of the new packet at the back.

`addSentPacket_spec` says that all of it keeps the invariant, and every queued
retransmission except that of the packet sent again.
-/

import QuicNs3.Packets.Sound

namespace QuicNs3
namespace Packets

open Lib

variable {m m' : UnackedPacketMap} {n b : ℕ} {i : TransmissionInfo}
  {p : SerializedPacket} {q : ℕ × TransmissionType}

theorem Kept.mono {b' : ℕ} (h : Kept b m) (hb : b ≤ b') : Kept b' m where
  bytes_eq := h.bytes_eq
  linked := fun n i hi h0 =>
    let ⟨hlt, hle, hfr⟩ := h.linked n i hi h0
    ⟨hlt, hle.trans hb, hfr⟩
  not_strayed := h.not_strayed
  not_underflow := h.not_underflow
  popped_idle := h.popped_idle

/-! ## Obsolete packets -/

theorem inFlight_of_useless (h : m.isPacketUseless n i = true) : i.inFlight = false := by
  simp only [UnackedPacketMap.isPacketUseless,
    UnackedPacketMap.isPacketUsefulForCongestionControl, Bool.and_eq_true, Bool.not_eq_true'] at h
  exact h.1.2

theorem not_useless_of_frames (h : i.retransmittableFrames ≠ []) :
    m.isPacketUseless n i = false := by
  simp [UnackedPacketMap.isPacketUseless, UnackedPacketMap.isPacketUsefulForRetransmittableData, h]

/-- What is tracked afterwards was tracked before. -/
theorem get?_of_removeObsoletePackets (hi : m.removeObsoletePackets.packets.get? n = some i) :
    m.packets.get? n = some i := by
  have h := Window.get?_dropWhile (p := m.isPacketUseless) (m := n) (n := m.packets.base)
    m.packets.items
  change m.removeObsoletePackets.packets.get? n = _ at h
  rw [hi] at h
  split_ifs at h
  exact h.symm

/-- A packet that is not useless stays. -/
theorem get?_removeObsoletePackets (hi : m.packets.get? n = some i)
    (hu : m.isPacketUseless n i = false) :
    m.removeObsoletePackets.packets.get? n = some i := by
  have hb := Window.base_dropWhile_le (n := m.packets.base) (l := m.packets.items) hi hu
  have h := Window.get?_dropWhile (p := m.isPacketUseless) (m := n) (n := m.packets.base)
    m.packets.items
  rw [if_neg (Nat.not_lt.2 hb)] at h
  exact h.trans hi

theorem next_removeObsoletePackets : m.removeObsoletePackets.packets.next = m.packets.next :=
  Window.next_dropWhile _

/-- **Obsolete packets are not in flight**, so dropping them keeps the invariant. -/
theorem Kept.removeObsoletePackets (h : Kept b m) : Kept b m.removeObsoletePackets where
  bytes_eq := by
    refine h.bytes_eq.trans (Window.total_dropWhile fun j a _ hu => ?_).symm
    simp [inFlightBytes, inFlight_of_useless hu]
  linked := fun _ _ hi => h.linked _ _ (get?_of_removeObsoletePackets hi)
  not_strayed := h.not_strayed
  not_underflow := h.not_underflow
  popped_idle := by
    intro a ha
    rcases List.mem_append.1 ha with ha | ha
    · exact h.popped_idle a ha
    · obtain ⟨j, hu⟩ := Window.exists_of_mem_takeWhile ha
      exact inFlight_of_useless hu

theorem Sound.removeObsoletePackets (h : Sound m) : Sound m.removeObsoletePackets :=
  ⟨h.toKept.removeObsoletePackets, next_removeObsoletePackets.trans h.next_eq⟩

theorem Queued.removeObsoletePackets (h : Queued m q) : Queued m.removeObsoletePackets q := by
  obtain ⟨i, hi, hne, hfl⟩ := h
  exact ⟨i, get?_removeObsoletePackets hi (not_useless_of_frames hne), hne, hfl⟩

/-! ## The gap before a new packet -/

theorem get?_fillGap_of_lt (hn : n < m.packets.next) (k : ℕ) :
    (m.fillGap k).packets.get? n = m.packets.get? n := by
  show (m.packets.append _).get? n = _
  rw [Window.get?_append, if_pos hn]

theorem next_fillGap (h : m.packets.next ≤ n) : (m.fillGap n).packets.next = n := by
  show (m.packets.append _).next = n
  rw [Window.next_append, List.length_replicate]
  omega

theorem Kept.fillGap (h : Kept b m) (n : ℕ) : Kept b (m.fillGap n) where
  bytes_eq := by
    refine h.bytes_eq.trans ?_
    show _ = (m.packets.append _).total inFlightBytes
    rw [Window.total_append]
    simp [inFlightBytes, TransmissionInfo.gap]
  linked := by
    intro j a ha
    change (m.packets.append _).get? j = some a at ha
    rw [Window.get?_append] at ha
    split_ifs at ha
    · exact h.linked j a ha
    · obtain rfl := List.eq_of_mem_replicate (List.mem_of_getElem? ha)
      exact fun h0 => absurd rfl h0
  not_strayed := h.not_strayed
  not_underflow := h.not_underflow
  popped_idle := h.popped_idle

theorem Queued.fillGap (h : Queued m q) (n : ℕ) : Queued (m.fillGap n) q := by
  obtain ⟨i, hi, hq⟩ := h
  exact ⟨i, (get?_fillGap_of_lt (Window.lt_next_of_get? hi) n).trans hi, hq⟩

/-! ## The entry of the new packet -/

/-- **The new entry** counts for its bytes if it is in flight. -/
theorem pushSent_spec (h : Kept n m) (hnext : m.packets.next = n) (h0 : i.retransmission = 0)
    (fl : Bool) : Sound (m.pushSent n i fl) where
  bytes_eq := by
    show m.bytesInFlight + (if fl then i.bytesSent else 0) =
      (m.packets.append [{ i with inFlight := fl }]).total inFlightBytes
    rw [Window.total_append, h.bytes_eq]
    simp [inFlightBytes]
  linked := by
    intro j a ha
    change (m.packets.push { i with inFlight := fl }).get? j = some a at ha
    rw [Window.get?_push] at ha
    split_ifs at ha
    · obtain rfl := Option.some.inj ha
      exact fun hne => absurd h0 hne
    · exact h.linked j a ha
  not_strayed := h.not_strayed
  not_underflow := h.not_underflow
  popped_idle := h.popped_idle
  next_eq := by
    show (m.packets.append _).next = n + 1
    rw [Window.next_append, hnext]
    rfl

theorem Queued.pushSent (h : Queued m q) (hn : q.1 < m.packets.next) (fl : Bool) :
    Queued (m.pushSent n i fl) q := by
  obtain ⟨a, ha, hq⟩ := h
  refine ⟨a, ?_, hq⟩
  show (m.packets.push _).get? q.1 = some a
  rw [Window.get?_push, if_neg (by omega), ha]

/-! ## Sending a packet again -/

theorem Kept.transferred {old new : ℕ} (h : Kept b m) (hi : m.packets.get? old = some i)
    (hb : b ≤ new) (hlt : old < new) (type : TransmissionType) :
    Kept new (m.modify old (UnackedPacketMap.transferred new type)) := by
  refine (h.mono hb).change hi m.bytesInFlight ?_ ?_
  · simp [inFlightBytes, UnackedPacketMap.transferred]
  · intro h0
    refine ⟨?_, ?_, rfl⟩
    · unfold UnackedPacketMap.transferred at h0 ⊢
      dsimp only at h0 ⊢
      split_ifs at h0 ⊢
      · exact (h.linked old i hi h0).1
      · exact hlt
    · unfold UnackedPacketMap.transferred at h0 ⊢
      dsimp only at h0 ⊢
      split_ifs at h0 ⊢
      · exact (h.linked old i hi h0).2.1.trans hb
      · exact Nat.le_refl new

/-- What `TransferRetransmissionInfo` keeps, for a packet numbered `new` that is
not in the deque yet. -/
theorem transferRetransmissionInfo_spec (old : ℕ) {new : ℕ} (h : Kept b m)
    (hL : m.largestSentPacket ≤ b) (hb : b < new) (hnext : m.packets.next = new)
    (type : TransmissionType) :
    let r := m.transferRetransmissionInfo old new type i
    Kept new r.1 ∧ r.1.packets.next = new ∧ r.2.retransmission = i.retransmission ∧
      ∀ q, Queued m q → q.1 ≠ old → Queued r.1 q := by
  unfold UnackedPacketMap.transferRetransmissionInfo
  split_ifs with h₁ h₂
  · exact ⟨h.mono hb.le, hnext, rfl, fun _ hq _ => hq⟩
  · exact ⟨h.mono hb.le, hnext, rfl, fun _ hq _ => hq⟩
  · have hold : (m.packets.get? old).isSome :=
      Window.get?_isSome_iff.2 ⟨by omega, by omega⟩
    obtain ⟨a, ha⟩ := Option.isSome_iff_exists.1 hold
    rw [ha]
    refine ⟨(h.transferred ha hb.le (by omega) type).removeObsoletePackets, ?_, rfl, ?_⟩
    · rw [next_removeObsoletePackets]
      exact Window.next_modify.trans hnext
    · rintro q ⟨c, hc, hq⟩ hne
      exact Queued.removeObsoletePackets ⟨c, (Window.get?_modify_of_ne hne).trans hc, hq⟩

/-- **Sending a packet** keeps the invariant, and every queued retransmission
except that of the packet sent again. -/
theorem addSentPacket_spec (h : Sound m) (hn : m.largestSentPacket < p.packetNumber) (old : ℕ)
    (type : TransmissionType) (t : ℤ) (fl : Bool) :
    Sound (m.addSentPacket p old type t fl) ∧
      (m.addSentPacket p old type t fl).largestSentPacket = p.packetNumber ∧
      ∀ q, Queued m q → (old ≠ 0 → q.1 ≠ old) → Queued (m.addSentPacket p old type t fl) q := by
  have hK := h.toKept.fillGap p.packetNumber
  have hnext : (m.fillGap p.packetNumber).packets.next = p.packetNumber :=
    next_fillGap (by rw [h.next_eq]; omega)
  have hlt : ∀ q, Queued m q → q.1 < p.packetNumber := by
    rintro q ⟨a, ha, -⟩
    have := Window.lt_next_of_get? ha
    rw [h.next_eq] at this
    omega
  unfold UnackedPacketMap.addSentPacket
  dsimp only
  rcases Nat.eq_zero_or_pos old with h0 | h0
  · rw [if_pos h0]
    have hS := pushSent_spec (hK.mono hn.le) hnext (i := { UnackedPacketMap.sentInfo p type t with
      retransmittableFrames := p.retransmittableFrames }) rfl fl
    refine ⟨⟨⟨hS.bytes_eq, hS.linked, hS.not_strayed, hS.not_underflow, hS.popped_idle⟩,
      hS.next_eq⟩, rfl, fun q hq _ => ?_⟩
    obtain ⟨a, ha, hq'⟩ := (hq.fillGap p.packetNumber).pushSent
      (by rw [hnext]; exact hlt q hq) fl (n := p.packetNumber)
      (i := { UnackedPacketMap.sentInfo p type t with
        retransmittableFrames := p.retransmittableFrames })
    exact ⟨a, ha, hq'⟩
  · rw [if_neg h0.ne']
    obtain ⟨hK', hnext', hret, hqueue⟩ := transferRetransmissionInfo_spec old
      (i := UnackedPacketMap.sentInfo p type t) hK (Nat.le_refl _) hn hnext type
    refine ⟨pushSent_spec hK' hnext' hret fl, rfl, fun q hq hne => ?_⟩
    exact (hqueue q (hq.fillGap _) (hne h0.ne')).pushSent (by rw [hnext']; exact hlt q hq) fl

end Packets
end QuicNs3
