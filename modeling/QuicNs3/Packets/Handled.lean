/-
# Packets that are given up

Neutering, cancelling and acknowledging take a packet's frames away.  What they
clear are the frames at the end of the packet's walk along its retransmissions,
and each of them takes that packet off the queue of retransmissions first, or
takes the emptied ones off afterwards.  So what stays queued keeps its frames.
-/

import QuicNs3.Packets.Marking

namespace QuicNs3
namespace Packets

open Lib
open SentPacketManager (newestFrom)

variable {ρ : Type} {R : RttStats ρ} {s s' : SentPacketManager ρ} {m : UnackedPacketMap}
  {n k : ℕ} {i : TransmissionInfo} {keep : ℕ → Prop}

theorem Eases.length_eq {m' : UnackedPacketMap} (h : Eases keep m m') :
    m'.packets.items.length = m.packets.items.length := by
  have hb := h.base_eq
  have hn := h.next_eq
  unfold Window.next at hn
  omega

theorem sublist_erasePending (s : SentPacketManager ρ) (n : ℕ) :
    (s.erasePending n).pendingRetransmissions.Sublist s.pendingRetransmissions :=
  List.filter_sublist

theorem ne_of_mem_erasePending {q : ℕ × TransmissionType}
    (hq : q ∈ (s.erasePending n).pendingRetransmissions) : q.1 ≠ n := by
  simpa using (List.mem_filter.1 hq).2

theorem erasePending_steady (h : Inv s) (n : ℕ) : Steady s (s.erasePending n) :=
  h.steady h.sound (Eases.refl (fun _ => True) _) (sublist_erasePending s n)
    (fun _ _ => trivial) rfl rfl rfl

/-! ## Neutering -/

/-- A packet with frames can be given up. -/
theorem neuter_steady (h : Inv s) (hi : s.unackedPackets.packets.get? n = some i)
    (hne : i.retransmittableFrames ≠ []) :
    Steady s ((s.erasePending n).withMap fun m =>
      (m.removeFromInFlight n).removeRetransmittability n) := by
  have hn : (s.unackedPackets.packets.get? n).isSome := Option.isSome_iff_exists.2 ⟨i, hi⟩
  obtain ⟨hS, hE⟩ := removeFromInFlight_spec h.sound hn
  obtain ⟨i', hi', -, hfr⟩ := get?_removeFromInFlight hi
  have hk := newestFrom_of_frames hS hi' (hfr ▸ hne)
    (s.unackedPackets.removeFromInFlight n).packets.items.length
  obtain ⟨hS', hE'⟩ := removeRetransmittability_spec hS (hE.tracked hn) hk
  refine h.steady hS' ((hE.mono fun _ _ => trivial).trans hE') (sublist_erasePending s n) ?_
    rfl rfl rfl
  exact fun q hq => ne_of_mem_erasePending hq

theorem neuterUnencryptedPackets_steady (h : Inv s) : Steady s s.neuterUnencryptedPackets := by
  refine forPackets_steady h fun u n i hu hi => ?_
  split_ifs with hc
  · exact neuter_steady hu hi hc.1
  · exact Steady.refl hu

/-! ## Cancelling -/

/-- Only the frames of the packet in question go. -/
theorem cancelRetransmissionsAt_spec (h : Sound m) (hn : (m.packets.get? n).isSome) (streamId : ℕ) :
    Sound (m.cancelRetransmissionsAt streamId n) ∧
      Eases (fun j => j ≠ n) m (m.cancelRetransmissionsAt streamId n) := by
  obtain ⟨i, hi⟩ := Option.isSome_iff_exists.1 hn
  unfold UnackedPacketMap.cancelRetransmissionsAt
  rw [hi]
  dsimp only
  split_ifs with he he'
  · exact ⟨h, Eases.refl _ m⟩
  all_goals
    have h0 : i.retransmission = 0 := by
      by_contra h0
      exact he (List.isEmpty_iff.2 (h.linked n i hi h0).2.2)
    set m₁ := m.modify n fun i => { i with
      retransmittableFrames := removeFramesForStream i.retransmittableFrames streamId } with hm₁
    have hS : Sound m₁ := h.modify hi rfl fun hne => absurd h0 hne
    have hE : Eases (fun j => j ≠ n) m m₁ :=
      eases_of_modify hi rfl rfl rfl id fun hne => absurd rfl hne
  · have hk : newestFrom m₁ (m₁.packets.items.length + 1) n = some n := by
      have hi₁ : m₁.packets.get? n = some { i with
          retransmittableFrames := removeFramesForStream i.retransmittableFrames streamId } :=
        Window.get?_modify_self hi
      simp [newestFrom, hi₁, h0]
    obtain ⟨hS', hE'⟩ := removeRetransmittability_spec hS (hE.tracked hn) hk
    exact ⟨hS', hE.trans hE'⟩
  · exact ⟨hS, hE⟩

/-- **The rule for the loop over the packets**, for what its body keeps. -/
theorem cancelRetransmissionsForStream_rec {P : UnackedPacketMap → Prop} (h : Sound m) (hP : P m)
    (streamId : ℕ)
    (hstep : ∀ u n, Sound u → P u → (u.packets.get? n).isSome →
      P (u.cancelRetransmissionsAt streamId n)) :
    Sound (m.cancelRetransmissionsForStream streamId) ∧
      Eases (fun _ => False) m (m.cancelRetransmissionsForStream streamId) ∧
      P (m.cancelRetransmissionsForStream streamId) := by
  refine List.foldlRecOn (motive := fun u => Sound u ∧ Eases (fun _ => False) m u ∧ P u) _ _
    ⟨h, Eases.refl _ m, hP⟩ fun u hu n hn => ?_
  have htracked : (m.packets.get? n).isSome :=
    Window.get?_isSome_iff.2 (Window.mem_numbers.1 hn)
  obtain ⟨hS, hE⟩ := cancelRetransmissionsAt_spec hu.1 (hu.2.1.tracked htracked) streamId
  exact ⟨hS, hu.2.1.trans (hE.mono fun _ h => h.elim),
    hstep u n hu.1 hu.2.2 (hu.2.1.tracked htracked)⟩

theorem cancelRetransmissionsForStream_spec (h : Sound m) (streamId : ℕ) :
    Sound (m.cancelRetransmissionsForStream streamId) ∧
      Eases (fun _ => False) m (m.cancelRetransmissionsForStream streamId) := by
  obtain ⟨hS, hE, -⟩ := cancelRetransmissionsForStream_rec (P := fun _ => True) h trivial streamId
    fun _ _ _ _ _ => trivial
  exact ⟨hS, hE⟩

/-- What stays queued after a stream is cancelled still has frames. -/
theorem cancelRetransmissionsForStream_steady (h : Inv s) (streamId : ℕ) :
    Steady s (s.cancelRetransmissionsForStream streamId) := by
  obtain ⟨hS, hE⟩ := cancelRetransmissionsForStream_spec h.sound streamId
  set m' := s.unackedPackets.cancelRetransmissionsForStream streamId with hm'
  have hall : (s.pendingRetransmissions.all fun p => (m'.packets.get? p.1).isSome) = true := by
    refine List.all_eq_true.2 fun q hq => ?_
    obtain ⟨i, hi, -⟩ := h.queued q hq
    exact hE.tracked (Option.isSome_iff_exists.2 ⟨i, hi⟩)
  have hmap : (s.cancelRetransmissionsForStream streamId).unackedPackets = m' := if_pos hall
  have hsub : (s.cancelRetransmissionsForStream streamId).pendingRetransmissions.Sublist
      s.pendingRetransmissions := List.filter_sublist
  refine ⟨⟨hmap ▸ hS, fun q hq => ?_, h.nodup.sublist (hsub.map Prod.fst), ?_, ?_⟩,
    hmap ▸ hE, rfl⟩
  · obtain ⟨hq, hfr⟩ := List.mem_filter.1 hq
    obtain ⟨i, hi, -, hfl⟩ := h.queued q hq
    obtain ⟨i', hi', hfl', -⟩ := hE.get? q.1 i hi
    rw [hmap]
    refine ⟨i', hi', ?_, fun hl => ?_⟩
    · rw [← hm', UnackedPacketMap.hasRetransmittableFrames, hi'] at hfr
      simpa using hfr
    · cases hc : i'.inFlight with
      | false => rfl
      | true => exact absurd ((hfl hl).symm.trans (hfl' hc)) Bool.false_ne_true
  · exact (hmap ▸ hE.largestSent_eq) ▸ h.newly
  · exact fun p hp => (hmap ▸ hE.largestSent_eq) ▸ h.acked p hp

/-! ## Acknowledging -/

/-- What happens to the newest transmission of an acknowledged packet. -/
theorem handleNewest_steady (h : Inv s) (hk : (s.unackedPackets.packets.get? k).isSome)
    (n : ℕ) (i : TransmissionInfo) (now : ℤ) :
    Steady s (s.handleNewest R k n i now) ∧
      (s.handleNewest R k n i now).pendingRetransmissions = s.pendingRetransmissions ∧
      Eases (fun _ => True) s.unackedPackets (s.handleNewest R k n i now).unackedPackets ∧
      ∀ j, ((s.handleNewest R k n i now).unackedPackets.packets.get? j).map
          TransmissionInfo.retransmission =
        (s.unackedPackets.packets.get? j).map TransmissionInfo.retransmission := by
  unfold SentPacketManager.handleNewest
  split_ifs with hkn
  · exact ⟨Steady.refl h, rfl, Eases.refl _ _, fun _ => rfl⟩
  have hrec : Steady s (s.recordSpuriousRetransmissions R n i now) :=
    (Steady.refl h).congr rfl rfl rfl rfl rfl
  dsimp only
  split_ifs
  · obtain ⟨-, hE⟩ := removeFromInFlight_spec h.sound hk
    exact ⟨hrec.trans (removeFromInFlight_steady hrec.inv hk), rfl, hE,
      retransmission_removeFromInFlight _ k⟩
  · exact ⟨hrec, rfl, Eases.refl _ _, fun _ => rfl⟩

/-- **An acknowledged packet is done with**: it and its newest transmission lose
their frames, and the latter is not queued any more. -/
theorem markPacketHandled_steady (h : Inv s) (hi : s.unackedPackets.packets.get? n = some i)
    (now : ℤ) : Steady s (s.markPacketHandled R n i now) := by
  have hn : (s.unackedPackets.packets.get? n).isSome := Option.isSome_iff_exists.2 ⟨i, hi⟩
  obtain ⟨k, a, hk, ha, -⟩ := exists_newestFrom h.sound hn (next_le_fuel hn)
  have hkt : (s.unackedPackets.packets.get? k).isSome := Option.isSome_iff_exists.2 ⟨a, ha⟩
  unfold SentPacketManager.markPacketHandled
  rw [show s.getNewestRetransmission n = some k from hk]
  dsimp only
  have he := erasePending_steady h k
  obtain ⟨hw, hpend, hE, hret⟩ := handleNewest_steady (R := R) he.inv hkt n i now
  set u := (s.erasePending k).handleNewest R k n i now with hu
  -- The map after the acknowledged packet is taken out of flight.
  obtain ⟨hS₁, hE₁⟩ := removeFromInFlight_spec hw.inv.sound (hE.tracked hn)
  have hE₀ := hE.trans hE₁
  have hk₁ : newestFrom (u.unackedPackets.removeFromInFlight n)
      ((u.unackedPackets.removeFromInFlight n).packets.items.length + 1) n = some k := by
    rw [hE₀.length_eq, ← hk]
    exact newestFrom_congr h.sound _ fun j _ =>
      (retransmission_removeFromInFlight _ n j).trans (hret j)
  obtain ⟨hS₂, hE₂⟩ := removeRetransmittability_spec hS₁ (hE₀.tracked hn) hk₁
  have hE₁' : Eases (fun j => j ≠ k) u.unackedPackets (u.unackedPackets.removeFromInFlight n) :=
    hE₁.mono fun _ _ => trivial
  have hE₃ := hE₁'.trans hE₂
  obtain ⟨i', hi'⟩ := Option.isSome_iff_exists.1 (hE₃.tracked (hE.tracked hn))
  have hS₃ := hS₂.modify (f := fun i => { i with isUnackable := true }) hi' rfl
    (hS₂.linked n i' hi')
  refine (he.trans hw).trans (hw.inv.steady hS₃
    (hE₃.trans (eases_of_modify hi' rfl rfl rfl id fun _ => rfl)) (List.Sublist.refl _)
    (fun q hq => ?_) rfl rfl rfl)
  change q ∈ u.pendingRetransmissions at hq
  rw [hpend] at hq
  exact ne_of_mem_erasePending hq

/-- What is noted about a tracked packet is about a packet that was sent. -/
theorem recordAcked_steady (h : Inv s) (hi : s.unackedPackets.packets.get? n = some i) :
    Steady s (s.recordAcked n i) := by
  have hle : n ≤ s.unackedPackets.largestSentPacket :=
    (h.sound.tracked_iff.1 (Option.isSome_iff_exists.2 ⟨i, hi⟩)).2
  refine ⟨⟨h.sound, h.queued, h.nodup, ?_, fun p hp => ?_⟩, Eases.refl _ _, rfl⟩
  · change (if _ then n else s.largestNewlyAcked) ≤ s.unackedPackets.largestSentPacket
    split_ifs
    · exact hle
    · exact h.newly
  · change p ∈ (if _ then s.packetsAcked ++ [(n, i.bytesSent)] else s.packetsAcked) at hp
    split_ifs at hp
    · rcases List.mem_append.1 hp with hp | hp
      · exact h.acked p hp
      · exact List.mem_singleton.1 hp ▸ hle
    · exact h.acked p hp

theorem handleAckAt_steady (h : Inv s) (hi : s.unackedPackets.packets.get? n = some i)
    (ack : AckFrame) (now : ℤ) : Steady s (s.handleAckAt R ack now n i) := by
  unfold SentPacketManager.handleAckAt
  split_ifs
  · exact Steady.refl h
  · exact Steady.refl h
  · have hr := recordAcked_steady h hi
    exact hr.trans (markPacketHandled_steady hr.inv hi now)
  · exact Steady.refl h

theorem handleAckForSentPackets_steady (h : Inv s) (ack : AckFrame) (now : ℤ) :
    Steady s (s.handleAckForSentPackets R ack now) :=
  forPackets_steady h fun _ _ _ hu hi => handleAckAt_steady hu hi ack now

end Packets
end QuicNs3
