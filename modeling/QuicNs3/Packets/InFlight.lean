/-
# Bytes in flight

What is left of the operations: loss detection, the alarm, the undoing of queued
retransmissions, and `OnIncomingAck`, which drops obsolete packets between the
two.  With them every operation of the manager keeps its invariant
(`between_step`), and so does every run.

`always_accounted` is the accounting: in every state of a run `bytes_in_flight_` is
the number of bytes of the tracked packets that are in flight, no packet in
flight was taken off the deque, and the counter never went below zero.
-/

import QuicNs3.Packets.Handled
import QuicNs3.Lib.Run

namespace QuicNs3
namespace Packets

open Lib

variable {ρ : Type} {R : RttStats ρ} {s s' t : SentPacketManager ρ} {m : UnackedPacketMap}
  {n : ℕ} {i : TransmissionInfo}

/-! ## Loss detection -/

theorem verdict_ne_strayed (a : GeneralLossAlgorithm) (time : ℤ) (r : ρ) {acked : ℕ}
    (h : (m.packets.get? acked).isSome) (n : ℕ) (i : TransmissionInfo) :
    a.verdict R m time r acked n i ≠ .strayed := by
  obtain ⟨j, hj⟩ := Option.isSome_iff_exists.1 h
  unfold GeneralLossAlgorithm.verdict
  rw [hj]
  dsimp only
  split_ifs <;> exact Verdict.noConfusion

/-- The packets reported lost are tracked, and no packet outside the deque is
looked at. -/
theorem detectFrom_spec (a : GeneralLossAlgorithm) (time : ℤ) (r : ρ) {acked : ℕ}
    (hacked : ∀ j, m.packets.base ≤ j → j ≤ acked → (m.packets.get? acked).isSome)
    (l : List TransmissionInfo) (hn : m.packets.base ≤ n) :
    (∀ p ∈ (a.detectFrom R m time r acked n l).lost, n ≤ p.1 ∧ p.1 < n + l.length) ∧
      (a.detectFrom R m time r acked n l).strayed = false := by
  induction l generalizing n with
  | nil => exact ⟨fun p hp => absurd hp (by simp [GeneralLossAlgorithm.detectFrom]), rfl⟩
  | cons i l ih =>
    obtain ⟨hlost, hstray⟩ := ih (n := n + 1) (by omega)
    have hrest : ∀ p ∈ (a.detectFrom R m time r acked (n + 1) l).lost,
        n ≤ p.1 ∧ p.1 < n + (i :: l).length := by
      intro p hp
      have := hlost p hp
      rw [List.length_cons]
      omega
    unfold GeneralLossAlgorithm.detectFrom
    split_ifs with hlt hfl
    · exact ⟨fun p hp => absurd hp (by simp), rfl⟩
    · split
      · refine ⟨fun p hp => ?_, hstray⟩
        rcases List.mem_cons.1 hp with rfl | hp
        · exact ⟨Nat.le_refl n, by simp⟩
        · exact hrest p hp
      · exact ⟨hrest, hstray⟩
      · exact ⟨fun p hp => absurd hp (by simp), rfl⟩
      · rename_i hv
        exact absurd hv (verdict_ne_strayed a time r (hacked n hn (by omega)) n i)
    · exact ⟨hrest, hstray⟩

/-- One packet reported lost. -/
theorem markLost_steady (h : Inv s) {p : ℕ × ℕ}
    (hp : (s.unackedPackets.packets.get? p.1).isSome) : Steady s (s.markLost p) := by
  obtain ⟨i, hi⟩ := Option.isSome_iff_exists.1 hp
  have h₁ : Steady s { s with stats := { s.stats with packetsLost := s.stats.packetsLost + 1 } } :=
    (Steady.refl h).congr rfl rfl rfl rfl rfl
  unfold SentPacketManager.markLost
  dsimp only
  split_ifs with hfr
  · rw [UnackedPacketMap.hasRetransmittableFrames, hi] at hfr
    exact h₁.trans (markForRetransmission_steady h₁.inv hi (by simpa using hfr) _)
  · exact h₁.trans (removeFromInFlight_steady h₁.inv hp)

/-- **Loss detection** keeps the invariant: what it reports lost is marked for
retransmission, or taken out of flight. -/
theorem invokeLossDetection_inv (h : Inv s) (hl : s.packetsLost = []) (time : ℤ) :
    Inv (s.invokeLossDetection R time) := by
  unfold SentPacketManager.invokeLossDetection
  set acked := (s.packetsAcked.getLast?).elim s.largestNewlyAcked Prod.fst with hacked
  have hle : acked ≤ s.unackedPackets.largestSentPacket := by
    rw [hacked]
    cases hlast : s.packetsAcked.getLast? with
    | none => exact h.newly
    | some p => exact h.acked p (List.mem_of_getLast? hlast)
  obtain ⟨hlost, hstray⟩ := detectFrom_spec (R := R) s.lossAlgorithm time s.rttStats
    (fun j hb hj => h.sound.tracked_iff.2 ⟨hb.trans hj, hle⟩) s.unackedPackets.packets.items
    (Nat.le_refl _)
  set d := s.lossAlgorithm.detectLosses R s.unackedPackets time s.rttStats acked with hd
  set u : SentPacketManager ρ := { s with
    largestNewlyAcked := acked
    lossAlgorithm := d.2
    packetsLost := s.packetsLost ++ d.1.lost
    unackedPackets := if d.1.strayed then s.unackedPackets.stray else s.unackedPackets } with hu
  have hmap : u.unackedPackets = s.unackedPackets :=
    if_neg fun h => Bool.false_ne_true (hstray.symm.trans h)
  have hInv : Inv u :=
    ⟨hmap ▸ h.sound, hmap ▸ h.queued, h.nodup, hmap ▸ hle, hmap ▸ h.acked⟩
  have htracked : ∀ p ∈ u.packetsLost, (u.unackedPackets.packets.get? p.1).isSome := by
    intro p hp
    change p ∈ s.packetsLost ++ d.1.lost at hp
    rw [hl, List.nil_append] at hp
    rw [hmap]
    exact Window.get?_isSome_iff.2 (hlost p hp)
  have hloop : Steady u (u.packetsLost.foldl SentPacketManager.markLost u) :=
    List.foldlRecOn (motive := Steady u) _ _ (Steady.refl hInv) fun v hv p hp =>
      hv.trans (markLost_steady hv.inv (hv.eases.tracked (htracked p hp)))
  exact hloop.inv

theorem packetsLost_maybeInvokeCongestionEvent (updated : Bool) :
    (s.maybeInvokeCongestionEvent updated).packetsLost = [] := by
  unfold SentPacketManager.maybeInvokeCongestionEvent
  split_ifs with he
  · simp only [Bool.and_eq_true, List.isEmpty_iff] at he
    exact he.2
  · rfl

theorem maybeInvokeCongestionEvent_inv (h : Inv s) (updated : Bool) :
    Inv (s.maybeInvokeCongestionEvent updated) := by
  unfold SentPacketManager.maybeInvokeCongestionEvent
  split_ifs
  · exact h
  · exact ⟨h.sound, h.queued, h.nodup, h.newly, fun p hp => absurd hp (by simp)⟩

/-! ## Acknowledgements -/

/-- **Undoing queued retransmissions.**  Only packets queued as lost are put back
in flight, and those are not in flight. -/
theorem undoFrom_inv (hS : Sound s.unackedPackets) (l : List (ℕ × TransmissionType))
    (hq : ∀ q ∈ l, Queued s.unackedPackets q) (hnd : (l.map Prod.fst).Nodup)
    (hnew : s.largestNewlyAcked ≤ s.unackedPackets.largestSentPacket)
    (hack : ∀ p ∈ s.packetsAcked, p.1 ≤ s.unackedPackets.largestSentPacket) :
    Inv (s.undoFrom l) ∧ (s.undoFrom l).packetsLost = s.packetsLost := by
  induction l generalizing s with
  | nil => exact ⟨⟨hS, by simp [SentPacketManager.undoFrom], List.nodup_nil, hnew, hack⟩, rfl⟩
  | cons p l ih =>
    unfold SentPacketManager.undoFrom
    split_ifs with hc
    · obtain ⟨i, hi, -, hfl⟩ := hq p (by simp)
      obtain ⟨hS', hlargest, hget⟩ := restoreToInFlight_spec hS hi (hfl hc.2.2)
      obtain ⟨hpl, hnd'⟩ := List.nodup_cons.1 hnd
      refine ih hS' (fun q hql => ?_) hnd' (hlargest.symm ▸ hnew) (hlargest.symm ▸ hack)
      have hne : q.1 ≠ p.1 := fun he => hpl (he ▸ List.mem_map_of_mem hql)
      obtain ⟨a, ha, hq'⟩ := hq q (List.mem_cons_of_mem p hql)
      exact ⟨a, (hget q.1 hne).trans ha, hq'⟩
    · exact ⟨⟨hS, hq, hnd, hnew, hack⟩, rfl⟩

/-- The invariant between two operations. -/
def Between (s : SentPacketManager ρ) : Prop := Inv s ∧ s.packetsLost = []

/-- `OnIncomingAck` up to its loop over the packets: only `largest_observed_` changes
in the map. -/
theorem observed_eq (s : SentPacketManager ρ) (ack : AckFrame) (time : ℤ) :
    ∃ r, ((s.updatePacketInformationReceivedByPeer ack).maybeUpdateRtt R ack time).withMap
        (fun m => m.increaseLargestObserved ack.largestObserved) =
      { s with
        rttStats := r
        leastPacketAwaitedByPeer := (ack.packets.min?).getD (ack.largestObserved + 1)
        unackedPackets := s.unackedPackets.increaseLargestObserved ack.largestObserved } := by
  unfold SentPacketManager.maybeUpdateRtt
  split
  · exact ⟨s.rttStats, rfl⟩
  · split_ifs
    · exact ⟨_, rfl⟩
    · exact ⟨s.rttStats, rfl⟩

/-- `largest_observed_` is no part of the invariant. -/
theorem observed_inv (h : Inv s) (ack : AckFrame) (time : ℤ) :
    Inv (((s.updatePacketInformationReceivedByPeer ack).maybeUpdateRtt R ack time).withMap
        fun m => m.increaseLargestObserved ack.largestObserved) ∧
      (((s.updatePacketInformationReceivedByPeer ack).maybeUpdateRtt R ack time).withMap
        fun m => m.increaseLargestObserved ack.largestObserved).packetsLost = s.packetsLost := by
  obtain ⟨r, hr⟩ := observed_eq (R := R) s ack time
  rw [hr]
  exact ⟨⟨⟨⟨h.sound.bytes_eq, h.sound.linked, h.sound.not_strayed, h.sound.not_underflow,
    h.sound.popped_idle⟩, h.sound.next_eq⟩, h.queued, h.nodup, h.newly, h.acked⟩, rfl⟩

theorem processAck_between (h : Between s) (ack : AckFrame) (time now : ℤ) :
    Between (s.processAck R ack time now) := by
  obtain ⟨h, hl⟩ := h
  obtain ⟨h₁, hl₁⟩ := observed_inv (R := R) h ack time
  have h₂ := handleAckForSentPackets_steady (R := R) h₁ ack now
  have h₃ := invokeLossDetection_inv (R := R) h₂.inv (h₂.lost_eq.trans (hl₁.trans hl)) time
  unfold SentPacketManager.processAck
  refine ⟨maybeInvokeCongestionEvent_inv ?_ _, packetsLost_maybeInvokeCongestionEvent _⟩
  exact h₃.congr rfl rfl rfl rfl

theorem onIncomingAck_between (h : Between s) (ack : AckFrame) (time now : ℤ) :
    Between (s.onIncomingAck R ack time now) := by
  obtain ⟨h₁, hl₁⟩ := processAck_between (R := R) h ack time now
  set u := (s.processAck R ack time now).withMap .removeObsoletePackets with hu
  have h₂ : Inv u :=
    ⟨h₁.sound.removeObsoletePackets, fun q hq => (h₁.queued q hq).removeObsoletePackets,
      h₁.nodup, h₁.newly, h₁.acked⟩
  unfold SentPacketManager.onIncomingAck
  dsimp only
  split_ifs
  · obtain ⟨hI, hlost⟩ := undoFrom_inv (s := u.resetCounters R ack) h₂.sound
      u.pendingRetransmissions h₂.queued h₂.nodup h₂.newly h₂.acked
    exact ⟨hI, hlost.trans hl₁⟩
  · obtain ⟨hI, hlost⟩ := undoFrom_inv h₂.sound u.pendingRetransmissions h₂.queued h₂.nodup
      h₂.newly h₂.acked
    exact ⟨hI, hlost.trans hl₁⟩

/-! ## The other operations -/

theorem Steady.between (h : Steady s s') (hl : s.packetsLost = []) : Between s' :=
  ⟨h.inv, h.lost_eq.trans hl⟩

theorem onRetransmissionTimeout_between (h : Between s) (now : ℤ) :
    Between (s.onRetransmissionTimeout R now) := by
  obtain ⟨h, hl⟩ := h
  unfold SentPacketManager.onRetransmissionTimeout
  split
  · refine (retransmitCryptoPackets_steady ?_).between hl
    exact h.congr rfl rfl rfl rfl
  · refine ⟨maybeInvokeCongestionEvent_inv ?_ false, packetsLost_maybeInvokeCongestionEvent false⟩
    refine invokeLossDetection_inv ?_ ?_ now
    · exact h.congr rfl rfl rfl rfl
    · exact hl
  · exact ⟨h.congr rfl rfl rfl rfl, hl⟩
  · refine (retransmitRtoPackets_steady ?_).between hl
    exact h.congr rfl rfl rfl rfl

theorem maybeRetransmitTailLossProbe_between (h : Between s) :
    Between s.maybeRetransmitTailLossProbe.2 := by
  unfold SentPacketManager.maybeRetransmitTailLossProbe
  split_ifs
  · exact h
  · split
    · exact h
    · rename_i n hn
      have hfound := List.find?_some hn
      obtain ⟨i, hi, hfr⟩ := (Option.any_eq_true _ _).1 hfound
      refine (markForRetransmission_steady h.1 hi ?_ _).between h.2
      simp only [Bool.and_eq_true, Bool.not_eq_true', List.isEmpty_eq_false_iff] at hfr
      exact hfr.2

theorem onPacketSent_between (h : Between s) {p : SerializedPacket}
    (hp : s.unackedPackets.largestSentPacket < p.packetNumber) (old : ℕ) (time : ℤ)
    (type : TransmissionType) (fl : Bool) : Between (s.onPacketSent p old time type fl) := by
  obtain ⟨h, hl⟩ := h
  obtain ⟨hS, hlargest, hq⟩ := addSentPacket_spec h.sound hp old type time fl
  have hle : s.unackedPackets.largestSentPacket ≤
      (s.unackedPackets.addSentPacket p old type time fl).largestSentPacket := by
    rw [hlargest]
    exact hp.le
  unfold SentPacketManager.onPacketSent
  dsimp only
  split_ifs with h0
  · refine ⟨⟨hS, fun q hmem => ?_, h.nodup.sublist ((sublist_erasePending s old).map Prod.fst),
      h.newly.trans hle, fun p hp => (h.acked p hp).trans hle⟩, hl⟩
    exact hq q (h.queued q ((sublist_erasePending s old).subset hmem)) fun _ =>
      ne_of_mem_erasePending hmem
  · exact ⟨⟨hS, fun q hmem => hq q (h.queued q hmem) fun hne => absurd hne h0, h.nodup,
      h.newly.trans hle, fun p hp => (h.acked p hp).trans hle⟩, hl⟩

/-- **Every operation keeps the invariant.** -/
theorem between_step {o : Op} (h : Between s) (hs : s.step R o = some t) : Between t := by
  cases o with
  | send p old time type fl =>
    simp only [SentPacketManager.step] at hs
    split_ifs at hs with hp
    exact Option.some.inj hs ▸ onPacketSent_between h hp.1 old time type fl
  | ack frame time now =>
    simp only [SentPacketManager.step] at hs
    split_ifs at hs
    exact Option.some.inj hs ▸ onIncomingAck_between h frame time now
  | retransmissionTimeout now =>
    exact Option.some.inj hs ▸ onRetransmissionTimeout_between h now
  | tailLossProbe => exact Option.some.inj hs ▸ maybeRetransmitTailLossProbe_between h
  | neuterUnencryptedPackets =>
    exact Option.some.inj hs ▸ (neuterUnencryptedPackets_steady h.1).between h.2
  | retransmitUnackedPackets initialOnly =>
    exact Option.some.inj hs ▸ (retransmitUnackedPackets_steady h.1 initialOnly).between h.2
  | cancelRetransmissionsForStream streamId =>
    exact Option.some.inj hs ▸ (cancelRetransmissionsForStream_steady h.1 streamId).between h.2
  | setHandshakeConfirmed =>
    exact Option.some.inj hs ▸ ⟨h.1.congr rfl rfl rfl rfl, h.2⟩

theorem between_new (r : ρ) (lossType : LossDetectionType) (options : Options) :
    Between (SentPacketManager.new r lossType options) := by
  refine ⟨⟨⟨⟨rfl, ?_, rfl, rfl, ?_⟩, rfl⟩, ?_, List.nodup_nil, Nat.le_refl 0, ?_⟩, rfl⟩
  · intro n i hi
    simp [SentPacketManager.new, UnackedPacketMap.new, Window.get?] at hi
  all_goals
    intro _ h
    simp [SentPacketManager.new, UnackedPacketMap.new] at h

/-- The weight of the deque, as a sum over the packets in flight. -/
theorem total_inFlightBytes (w : Window TransmissionInfo) :
    w.total inFlightBytes =
      ((w.items.filter TransmissionInfo.inFlight).map TransmissionInfo.bytesSent).sum := by
  unfold Window.total
  induction w.items with
  | nil => rfl
  | cons i l ih =>
    cases h : i.inFlight <;> simp [inFlightBytes, h, ih]

/-- Bytes in flight are accounted exactly: `bytes_in_flight_` is the sum over the
tracked packets in flight, none of the packets taken off the deque was in flight,
the counter has never been made smaller than zero, and nothing outside the deque
has been touched. -/
structure Accounted (m : UnackedPacketMap) : Prop where
  bytes_eq : m.bytesInFlight =
    ((m.packets.items.filter TransmissionInfo.inFlight).map TransmissionInfo.bytesSent).sum
  popped_idle : ∀ i ∈ m.popped, i.inFlight = false
  not_underflow : m.underflow = false
  not_strayed : m.strayed = false

/-- **Bytes in flight are accounted exactly**, in every state of every run of the
manager: for any loss detection, options and round trip times, any packets sent
with increasing numbers, in flight or not and as retransmissions of any others,
any valid acks, alarms, probes, neutering, retransmission of everything and
cancellation of streams. -/
theorem always_accounted (R : RttStats ρ) (r : ρ) (lossType : LossDetectionType)
    (options : Options) (ops : List Op) :
    Always (SentPacketManager.step R) (fun s => Accounted s.unackedPackets)
      (SentPacketManager.new r lossType options) ops := by
  have hB : Always (SentPacketManager.step R) Between (.new r lossType options) ops :=
    always_of_step (fun _ _ _ h hs => between_step h hs) (between_new r lossType options)
  refine hB.mono fun s h => ?_
  have hS := h.1.sound
  exact ⟨hS.bytes_eq.trans (total_inFlightBytes _), hS.popped_idle, hS.not_underflow,
    hS.not_strayed⟩

/-- Five packets of 1000 bytes.  An ack of the fifth loses the first two; an ack of
the first, with the option to undo, puts the second back in flight. -/
example :
    ((run (SentPacketManager.step
        (⟨fun r _ _ _ => r, id, fun _ => 0, fun _ => 0, fun _ => 0⟩ : RttStats Unit))
      (.new () .nack ⟨false, true, 2, true, false, false⟩)
      [.send ⟨1, 1, 1000, [.stream 3], false, 0, .initial, 0⟩ 0 10 .notRetransmission true,
        .send ⟨2, 1, 1000, [.stream 3], false, 0, .initial, 0⟩ 0 10 .notRetransmission true,
        .send ⟨3, 1, 1000, [.stream 5], false, 0, .initial, 0⟩ 0 10 .notRetransmission true,
        .send ⟨4, 1, 1000, [.stream 5], false, 0, .initial, 0⟩ 0 10 .notRetransmission true,
        .send ⟨5, 1, 1000, [.stream 5], false, 0, .initial, 0⟩ 0 10 .notRetransmission true,
        .ack ⟨5, 0, [5]⟩ 20 20, .ack ⟨5, 0, [1, 5]⟩ 30 30]).map fun s =>
      (s.unackedPackets.bytesInFlight, s.pendingRetransmissions)) = some (3000, []) := by
  decide

end Packets
end QuicNs3
