/-
# Chains of retransmissions

A packet that was sent again has the number of its retransmission, an absolute number in
a deque whose front moves.  `Chained` says that these links are well founded: each leads
to a later packet that is still tracked, so the three walks along them, those of
`GetNewestRetransmission`, `RecordSpuriousRetransmissions` and `RemoveRetransmittability`,
end and stay inside the deque.

That obsolete packets are dropped in the middle of `AddSentPacket`, between the link to
a new packet and the entry of that packet, is dealt with in `Kept`: there the links lead
up to a packet that is not in the deque yet.
-/

import QuicNs3.Packets.Keeping

namespace QuicNs3
namespace Packets

open Lib
open SentPacketManager (newestFrom retransmissions)

variable {ρ : Type} {m : UnackedPacketMap} {n : ℕ}

/-- The walks from a packet: `GetNewestRetransmission` finds the end, a tracked packet
without a link, `RecordSpuriousRetransmissions` passes later tracked packets only and
comes to the same end, and `RemoveRetransmittability` touches nothing outside the
deque. -/
structure WalksEnd (m : UnackedPacketMap) (n : ℕ) : Prop where
  newest : ∃ k i, newestFrom m (m.packets.items.length + 1) n = some k ∧
    m.packets.get? k = some i ∧ i.retransmission = 0 ∧
    (k = n ∨ k ∈ retransmissions m (m.packets.items.length + 1) n)
  passed : ∀ k ∈ retransmissions m (m.packets.items.length + 1) n,
    n < k ∧ (m.packets.get? k).isSome
  removed : (m.removeRetransmittability n).strayed = false

/-- Chains of retransmissions are well founded. -/
structure Chained (m : UnackedPacketMap) : Prop where
  linked : ∀ n i, m.packets.get? n = some i → i.retransmission = 0 ∨
    n < i.retransmission ∧ m.packets.base ≤ i.retransmission ∧
      i.retransmission ≤ m.largestSentPacket ∧ (m.packets.get? i.retransmission).isSome
  walks : ∀ n, (m.packets.get? n).isSome → WalksEnd m n
  not_strayed : m.strayed = false

theorem Sound.walksEnd (h : Sound m) (hn : (m.packets.get? n).isSome) : WalksEnd m n := by
  obtain ⟨k, i, hk, hi, h0⟩ := exists_newestFrom h hn (next_le_fuel hn)
  refine ⟨⟨k, i, hk, hi, h0, (newestFrom_cases hk).imp_left And.left⟩,
    fun j hj => tracked_of_mem_retransmissions h hn hj, ?_⟩
  exact (removeRetransmittability_spec h hn hk).1.not_strayed

theorem Sound.chained (h : Sound m) : Chained m where
  linked := by
    intro n i hi
    by_cases h0 : i.retransmission = 0
    · exact .inl h0
    · obtain ⟨hlt, hle, -⟩ := h.linked n i hi h0
      have hb : m.packets.base ≤ i.retransmission :=
        (Window.base_le_of_get? hi).trans hlt.le
      exact .inr ⟨hlt, hb, hle, h.tracked_iff.2 ⟨hb, hle⟩⟩
  walks := fun _ hn => h.walksEnd hn
  not_strayed := h.not_strayed

/-- **Chains of retransmissions are well founded**, in every state of every run of the
manager, and no walk along them has left the deque on the way. -/
theorem always_chained (R : RttStats ρ) (r : ρ) (lossType : LossDetectionType)
    (options : Options) (ops : List Op) :
    Always (SentPacketManager.step R) (fun s => Chained s.unackedPackets)
      (SentPacketManager.new r lossType options) ops := by
  have hB : Always (SentPacketManager.step R) Between (.new r lossType options) ops :=
    always_of_step (fun _ _ _ h hs => between_step h hs) (between_new r lossType options)
  exact hB.mono fun _ h => h.1.sound.chained

end Packets
end QuicNs3
