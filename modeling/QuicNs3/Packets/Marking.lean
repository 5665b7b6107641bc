/-
# What every operation of the manager keeps

`Inv` is the invariant of the sent packet manager: its map is sound, every queued
retransmission is one the map can serve, and the packet numbers it compares with
have been sent.

`Steady s s'` says that an operation that adds and drops no packet has led from
`s` to `s'`.  It is shown for the operations on one packet, marking, neutering
and handling an acknowledgement, and carries over to the loops that call them
(`forPackets_steady`).
-/

import QuicNs3.Packets.Sending

namespace QuicNs3
namespace Packets

open Lib

variable {ρ : Type} {s s' s'' : SentPacketManager ρ} {m : UnackedPacketMap} {n k : ℕ}
  {i : TransmissionInfo} {keep : ℕ → Prop}

/-- The invariant of the manager. -/
structure Inv (s : SentPacketManager ρ) : Prop where
  sound : Sound s.unackedPackets
  queued : ∀ q ∈ s.pendingRetransmissions, Queued s.unackedPackets q
  nodup : (s.pendingRetransmissions.map Prod.fst).Nodup
  newly : s.largestNewlyAcked ≤ s.unackedPackets.largestSentPacket
  acked : ∀ p ∈ s.packetsAcked, p.1 ≤ s.unackedPackets.largestSentPacket

/-- An operation that adds and drops no packet has been made. -/
structure Steady (s s' : SentPacketManager ρ) : Prop where
  inv : Inv s'
  eases : Eases (fun _ => False) s.unackedPackets s'.unackedPackets
  lost_eq : s'.packetsLost = s.packetsLost

/-- The invariant reads four fields of the manager. -/
theorem Inv.congr (h : Inv s) (hm : s'.unackedPackets = s.unackedPackets)
    (hp : s'.pendingRetransmissions = s.pendingRetransmissions)
    (hn : s'.largestNewlyAcked = s.largestNewlyAcked) (ha : s'.packetsAcked = s.packetsAcked) :
    Inv s' where
  sound := hm ▸ h.sound
  queued := hm ▸ hp ▸ h.queued
  nodup := hp ▸ h.nodup
  newly := hm ▸ hn ▸ h.newly
  acked := hm ▸ ha ▸ h.acked

theorem Steady.refl (h : Inv s) : Steady s s := ⟨h, Eases.refl _ _, rfl⟩

theorem Steady.trans (h : Steady s s') (h' : Steady s' s'') : Steady s s'' :=
  ⟨h'.inv, h.eases.trans h'.eases, h'.lost_eq.trans h.lost_eq⟩

theorem Steady.congr (h : Steady s s') (hm : s''.unackedPackets = s'.unackedPackets)
    (hp : s''.pendingRetransmissions = s'.pendingRetransmissions)
    (hn : s''.largestNewlyAcked = s'.largestNewlyAcked) (ha : s''.packetsAcked = s'.packetsAcked)
    (hl : s''.packetsLost = s'.packetsLost) : Steady s s'' :=
  ⟨h.inv.congr hm hp hn ha, hm ▸ h.eases, hl.trans h.lost_eq⟩

/-- A change of the map after which only retransmissions with their frames are
queued. -/
theorem Inv.steady (h : Inv s) (hS : Sound s'.unackedPackets)
    (hE : Eases keep s.unackedPackets s'.unackedPackets)
    (hsub : s'.pendingRetransmissions.Sublist s.pendingRetransmissions)
    (hkeep : ∀ q ∈ s'.pendingRetransmissions, keep q.1)
    (hnew : s'.largestNewlyAcked = s.largestNewlyAcked) (hack : s'.packetsAcked = s.packetsAcked)
    (hlost : s'.packetsLost = s.packetsLost) : Steady s s' where
  inv :=
    { sound := hS
      queued := fun q hq => (h.queued q (hsub.subset hq)).eases hE (hkeep q hq)
      nodup := h.nodup.sublist (hsub.map Prod.fst)
      newly := by rw [hnew, hE.largestSent_eq]; exact h.newly
      acked := by rw [hack, hE.largestSent_eq]; exact h.acked }
  eases := hE.mono fun _ h => h.elim
  lost_eq := hlost

/-! ## Queueing a retransmission -/

/-- After `RemoveFromInFlight` the packet has its frames and is not in flight. -/
theorem get?_removeFromInFlight (hi : m.packets.get? n = some i) :
    ∃ i', (m.removeFromInFlight n).packets.get? n = some i' ∧ i'.inFlight = false ∧
      i'.retransmittableFrames = i.retransmittableFrames := by
  unfold UnackedPacketMap.removeFromInFlight
  rw [hi]
  dsimp only
  split_ifs with hfl
  · exact ⟨{ i with inFlight := false }, Window.get?_modify_self hi, rfl, rfl⟩
  · exact ⟨i, hi, Bool.eq_false_iff.2 hfl, rfl⟩

/-- **A packet with frames can be marked for retransmission.** -/
theorem markForRetransmission_steady (h : Inv s)
    (hi : s.unackedPackets.packets.get? n = some i) (hne : i.retransmittableFrames ≠ [])
    (type : TransmissionType) : Steady s (s.markForRetransmission n type) := by
  have hn : (s.unackedPackets.packets.get? n).isSome := Option.isSome_iff_exists.2 ⟨i, hi⟩
  -- The map afterwards, and the packet in it.
  have hmap : Sound (s.markForRetransmission n type).unackedPackets ∧
      Eases (fun _ => True) s.unackedPackets (s.markForRetransmission n type).unackedPackets ∧
      Queued (s.markForRetransmission n type).unackedPackets (n, type) := by
    unfold SentPacketManager.markForRetransmission
    dsimp only
    split_ifs with ht
    · obtain ⟨hS, hE⟩ := removeFromInFlight_spec h.sound hn
      obtain ⟨i', hi', hfl, hfr⟩ := get?_removeFromInFlight hi
      exact ⟨hS, hE, i', hi', hfr ▸ hne, fun _ => hfl⟩
    · refine ⟨h.sound, Eases.refl _ _, i, hi, hne, fun hl => ?_⟩
      rcases not_and_or.1 ht with ht | ht
      · exact absurd (hl.symm.trans (not_not.1 ht)) (by decide)
      · exact absurd (hl.symm.trans (not_not.1 ht)) (by decide)
  obtain ⟨hS, hE, hq⟩ := hmap
  have hold : ∀ q ∈ s.pendingRetransmissions,
      Queued (s.markForRetransmission n type).unackedPackets q :=
    fun q hq => (h.queued q hq).eases hE trivial
  refine ⟨⟨hS, fun q hmem => ?_, ?_, ?_, ?_⟩, hE.mono fun _ h => h.elim, rfl⟩
  · change q ∈ (if _ then _ else _) at hmem
    split_ifs at hmem
    · exact hold q hmem
    · rcases List.mem_append.1 hmem with hmem | hmem
      · exact hold q hmem
      · exact List.mem_singleton.1 hmem ▸ hq
  · change ((if _ then _ else _ : List (ℕ × TransmissionType)).map Prod.fst).Nodup
    split_ifs with hany
    · exact h.nodup
    · rw [List.map_append, List.map_singleton, List.nodup_append]
      refine ⟨h.nodup, by simp, fun a ha b hb => ?_⟩
      obtain ⟨q, hq, rfl⟩ := List.mem_map.1 ha
      rintro rfl
      exact hany (List.any_eq_true.2 ⟨q, hq, by simpa using hb⟩)
  · exact hE.largestSent_eq ▸ h.newly
  · exact fun p hp => hE.largestSent_eq ▸ h.acked p hp

/-! ## Loops over the deque -/

/-- **A loop over the deque** is steady if its body is, and keeps what the body
keeps. -/
theorem forPackets_steady_and {P : SentPacketManager ρ → Prop}
    {f : SentPacketManager ρ → ℕ → TransmissionInfo → SentPacketManager ρ} (h : Inv s) (hP : P s)
    (hf : ∀ u n i, Steady s u → P u → u.unackedPackets.packets.get? n = some i →
      Steady u (f u n i) ∧ P (f u n i)) : Steady s (s.forPackets f) ∧ P (s.forPackets f) := by
  refine List.foldlRecOn (motive := fun u => Steady s u ∧ P u) _ _ ⟨Steady.refl h, hP⟩
    fun u hu n hn => ?_
  have htracked : (s.unackedPackets.packets.get? n).isSome :=
    Window.get?_isSome_iff.2 (Window.mem_numbers.1 hn)
  obtain ⟨i, hi⟩ := Option.isSome_iff_exists.1 (hu.1.eases.tracked htracked)
  rw [hi]
  obtain ⟨hsteady, hkept⟩ := hf u n i hu.1 hu.2 hi
  exact ⟨hu.1.trans hsteady, hkept⟩

theorem forPackets_steady
    {f : SentPacketManager ρ → ℕ → TransmissionInfo → SentPacketManager ρ} (h : Inv s)
    (hf : ∀ u n i, Inv u → u.unackedPackets.packets.get? n = some i → Steady u (f u n i)) :
    Steady s (s.forPackets f) :=
  (forPackets_steady_and (P := fun _ => True) h trivial fun u n i hu _ hi =>
    ⟨hf u n i hu.inv hi, trivial⟩).1

theorem retransmitUnackedPackets_steady (h : Inv s) (initialOnly : Bool) :
    Steady s (s.retransmitUnackedPackets initialOnly) := by
  refine forPackets_steady h fun u n i hu hi => ?_
  split_ifs with hc
  · exact markForRetransmission_steady hu hi hc.1 _
  · exact markForRetransmission_steady hu hi hc.1 _
  · exact Steady.refl hu

theorem retransmitCryptoPackets_steady (h : Inv s) : Steady s s.retransmitCryptoPackets := by
  have h₁ : Steady s { s with
      consecutiveCryptoRetransmissionCount := s.consecutiveCryptoRetransmissionCount + 1 } :=
    (Steady.refl h).congr rfl rfl rfl rfl rfl
  refine h₁.trans (forPackets_steady h₁.inv fun u n i hu hi => ?_)
  split_ifs with hc
  · exact (markForRetransmission_steady hu hi hc.2.1 _).congr rfl rfl rfl rfl rfl
  · exact Steady.refl hu

/-- Taking a packet out of flight. -/
theorem removeFromInFlight_steady (h : Inv s) (hn : (s.unackedPackets.packets.get? n).isSome) :
    Steady s (s.withMap fun m => m.removeFromInFlight n) := by
  obtain ⟨hS, hE⟩ := removeFromInFlight_spec h.sound hn
  exact h.steady hS hE (List.Sublist.refl _) (fun _ _ => trivial) rfl rfl rfl

theorem retransmitRtoPackets_steady (h : Inv s) : Steady s s.retransmitRtoPackets := by
  have hloop : Steady s (s.forPackets SentPacketManager.retransmitRtoAt) := by
    refine forPackets_steady h fun u n i hu hi => ?_
    unfold SentPacketManager.retransmitRtoAt
    split_ifs with hne
    · exact (markForRetransmission_steady hu hi hne _).congr rfl rfl rfl rfl rfl
    · exact Steady.refl hu
    · exact removeFromInFlight_steady hu (Option.isSome_iff_exists.2 ⟨i, hi⟩)
    · exact Steady.refl hu
  unfold SentPacketManager.retransmitRtoPackets
  dsimp only
  split_ifs
  · exact hloop.congr rfl rfl rfl rfl rfl
  · exact hloop.congr rfl rfl rfl rfl rfl
  · exact hloop

end Packets
end QuicNs3
