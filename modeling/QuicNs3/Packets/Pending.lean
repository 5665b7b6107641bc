/-
# Queued retransmissions

Model of `NextPendingRetransmission` of `quic_sent_packet_manager.cc`, which
serves the queue `pending_retransmissions_`: the packet at the front, or the first
crypto packet of the queue while crypto packets are pending.

The queue and the deque of packets are separate structures.  The invariant of the
manager relates them (`Queued`), and a packet that has been retransmitted has given
away its frames (`Linked`), so everything queued is live data
(`always_pending_live`), and what is taken from the queue is too.
-/

import QuicNs3.Packets.InFlight

namespace QuicNs3
namespace Packets

open Lib

/-- `QuicPendingRetransmission`. -/
structure PendingRetransmission where
  packetNumber : ℕ
  transmissionType : TransmissionType
  retransmittableFrames : List Frame
  hasCryptoHandshake : Bool
  numPaddingBytes : ℤ
  encryptionLevel : EncryptionLevel
  packetNumberLength : ℕ
  deriving Repr, DecidableEq

namespace SentPacketManager

variable {ρ : Type}

/-- The first crypto packet among queued retransmissions; `none` if a packet
outside the deque is looked at. -/
def firstCrypto (m : UnackedPacketMap) :
    List (ℕ × TransmissionType) → Option (Option (ℕ × TransmissionType))
  | [] => some none
  | q :: l =>
    match m.packets.get? q.1 with
    | none => none
    | some i => if i.hasCryptoHandshake then some (some q) else firstCrypto m l

/-- The entry of the queue that is served next. -/
def nextEntry (s : SentPacketManager ρ) : Option (ℕ × TransmissionType) :=
  match s.pendingRetransmissions with
  | [] => none
  | q :: _ =>
    if s.unackedPackets.hasPendingCryptoPackets then
      (firstCrypto s.unackedPackets s.pendingRetransmissions).map fun c => c.getD q
    else some q

/-- `NextPendingRetransmission`: `none` if the queue is empty, or a packet outside
the deque is looked at. -/
def nextPendingRetransmission (s : SentPacketManager ρ) : Option PendingRetransmission :=
  s.nextEntry.bind fun q =>
    (s.unackedPackets.packets.get? q.1).map fun i =>
      { packetNumber := q.1
        transmissionType := q.2
        retransmittableFrames := i.retransmittableFrames
        hasCryptoHandshake := i.hasCryptoHandshake
        numPaddingBytes := i.numPaddingBytes
        encryptionLevel := i.encryptionLevel
        packetNumberLength := i.packetNumberLength }

end SentPacketManager

open SentPacketManager (firstCrypto)

variable {ρ : Type} {s : SentPacketManager ρ} {m : UnackedPacketMap} {q : ℕ × TransmissionType}

/-- A queued packet is live: it is tracked, it has frames to send again, and it has
not been sent again yet. -/
def LivePacket (m : UnackedPacketMap) (n : ℕ) : Prop :=
  m.packets.base ≤ n ∧ n ≤ m.largestSentPacket ∧ ∃ i, m.packets.get? n = some i ∧
    i.retransmittableFrames ≠ [] ∧ i.retransmission = 0

/-- The queue refers to live data only, and so does what is taken from it, which is
a packet the peer may not have. -/
structure PendingLive (s : SentPacketManager ρ) : Prop where
  live : ∀ q ∈ s.pendingRetransmissions, LivePacket s.unackedPackets q.1
  next_live : s.pendingRetransmissions ≠ [] → ∃ r, s.nextPendingRetransmission = some r ∧
    (r.packetNumber, r.transmissionType) ∈ s.pendingRetransmissions ∧
    s.unackedPackets.isUnacked r.packetNumber = true ∧ r.retransmittableFrames ≠ []

theorem livePacket_of_queued (hS : Sound m) (h : Queued m q) : LivePacket m q.1 := by
  obtain ⟨i, hi, hne, -⟩ := h
  obtain ⟨hb, hle⟩ := hS.tracked_iff.1 (Option.isSome_iff_exists.2 ⟨i, hi⟩)
  refine ⟨hb, hle, i, hi, hne, ?_⟩
  by_contra h0
  exact hne (hS.linked q.1 i hi h0).2.2

/-- A packet with frames is not obsolete. -/
theorem isUnacked_of_queued (h : Queued m q) : m.isUnacked q.1 = true := by
  obtain ⟨i, hi, hne, -⟩ := h
  simp [UnackedPacketMap.isUnacked, hi, not_useless_of_frames hne]

/-- The search for a crypto packet stays inside the deque. -/
theorem firstCrypto_spec (l : List (ℕ × TransmissionType)) (h : ∀ q ∈ l, Queued m q) :
    ∃ c, firstCrypto m l = some c ∧ ∀ q, c = some q → q ∈ l := by
  induction l with
  | nil => exact ⟨none, rfl, fun q hq => absurd hq (by simp)⟩
  | cons p l ih =>
    obtain ⟨i, hi, -⟩ := h p (by simp)
    unfold firstCrypto
    rw [hi]
    dsimp only
    split_ifs
    · exact ⟨some p, rfl, fun q hq => Option.some.inj hq ▸ List.mem_cons_self ..⟩
    · obtain ⟨c, hc, hmem⟩ := ih fun q hq => h q (List.mem_cons_of_mem p hq)
      exact ⟨c, hc, fun q hq => List.mem_cons_of_mem p (hmem q hq)⟩

theorem exists_nextEntry (h : Inv s) (hne : s.pendingRetransmissions ≠ []) :
    ∃ q, s.nextEntry = some q ∧ q ∈ s.pendingRetransmissions := by
  obtain ⟨p, l, hl⟩ := List.exists_cons_of_ne_nil hne
  have hp : p ∈ s.pendingRetransmissions := hl ▸ List.mem_cons_self ..
  unfold SentPacketManager.nextEntry
  rw [hl]
  dsimp only
  rw [← hl]
  split_ifs
  · obtain ⟨c, hc, hmem⟩ := firstCrypto_spec s.pendingRetransmissions h.queued
    rw [hc]
    cases c with
    | none => exact ⟨p, rfl, hp⟩
    | some q => exact ⟨q, rfl, hmem q rfl⟩
  · exact ⟨p, rfl, hp⟩

theorem Inv.pendingLive (h : Inv s) : PendingLive s where
  live := fun q hq => livePacket_of_queued h.sound (h.queued q hq)
  next_live := by
    intro hne
    obtain ⟨q, hq, hmem⟩ := exists_nextEntry h hne
    have hlive := h.queued q hmem
    obtain ⟨i, hi, hfr, -⟩ := id hlive
    unfold SentPacketManager.nextPendingRetransmission
    rw [hq, Option.bind_some, hi]
    exact ⟨_, rfl, hmem, isUnacked_of_queued hlive, hfr⟩

/-- **Queued retransmissions refer to live data**, in every state of every run of
the manager. -/
theorem always_pending_live (R : RttStats ρ) (r : ρ) (lossType : LossDetectionType)
    (options : Options) (ops : List Op) :
    Always (SentPacketManager.step R) PendingLive
      (SentPacketManager.new r lossType options) ops := by
  have hB : Always (SentPacketManager.step R) Between (.new r lossType options) ops :=
    always_of_step (fun _ _ _ h hs => between_step h hs) (between_new r lossType options)
  exact hB.mono fun _ h => h.1.pendingLive

end Packets
end QuicNs3
