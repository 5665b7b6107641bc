/-
# What the congestion controller hears

`OnCongestionEvent` is called with the packets newly acknowledged and the packets
newly lost.  Both are packets in flight: acknowledging one, or detecting its loss,
takes it out of flight, and only the undoing of losses puts a packet back.  So
without that option a packet is reported once.  With it a lost packet can be
reported again, but an acknowledged one has no frames left, and only packets with
frames are queued and put back.

`Settled P L m` is the invariant for a list `L` of packet numbers: they are
different, they were sent, and those that are still tracked have the property `P`,
of being out of flight (`Idle`) or also without frames (`Spent`).
-/

import QuicNs3.Packets.Fading

namespace QuicNs3
namespace Packets

open Lib

/-- Out of flight. -/
def Idle (i : TransmissionInfo) : Prop := i.inFlight = false

/-- Out of flight, and without frames to send again. -/
def Spent (i : TransmissionInfo) : Prop := i.inFlight = false ∧ i.retransmittableFrames = []

/-- The packets `L` are different, were sent, and have `P` if they are tracked. -/
structure Settled (P : TransmissionInfo → Prop) (L : List ℕ) (m : UnackedPacketMap) : Prop where
  nodup : L.Nodup
  sent : ∀ n ∈ L, n ≤ m.largestSentPacket
  settled : ∀ n ∈ L, ∀ i, m.packets.get? n = some i → P i

/-- A property between `Spent` and `Idle` that a packet keeps as long as it is not
put in flight. -/
structure Persistent (P : TransmissionInfo → Prop) : Prop where
  of_spent : ∀ i, Spent i → P i
  idle : ∀ i, P i → i.inFlight = false
  kept : ∀ i i', Fades i i' → (i'.inFlight = true → i.inFlight = true) → P i → P i'

/-- The packet numbers in the vectors that `OnCongestionEvent` was called with. -/
def reportedNumbers {ρ : Type} (s : SentPacketManager ρ) : List ℕ :=
  s.reported.flatMap fun v => (v.1 ++ v.2).map Prod.fst

/-- Those of them that were reported as acknowledged. -/
def reportedAcked {ρ : Type} (s : SentPacketManager ρ) : List ℕ :=
  s.reported.flatMap fun v => v.1.map Prod.fst

/-- With the vectors that are being filled. -/
def heard {ρ : Type} (s : SentPacketManager ρ) : List ℕ :=
  reportedNumbers s ++ (s.packetsAcked ++ s.packetsLost).map Prod.fst

/-- With the vector of acknowledged packets that is being filled. -/
def heardAcked {ρ : Type} (s : SentPacketManager ρ) : List ℕ :=
  reportedAcked s ++ s.packetsAcked.map Prod.fst

/-- The invariant: each packet has been heard of once, or, where losses are undone,
has been acknowledged once. -/
structure ToldOnce {ρ : Type} (s : SentPacketManager ρ) : Prop where
  all : s.options.undoPendingRetransmits = false → Settled Idle (heard s) s.unackedPackets
  acked : Settled Spent (heardAcked s) s.unackedPackets

variable {ρ : Type} {R : RttStats ρ} {s s' t : SentPacketManager ρ} {m m' : UnackedPacketMap}
  {n : ℕ} {i : TransmissionInfo} {P : TransmissionInfo → Prop} {L L' : List ℕ}

theorem not_inFlight {i i' : TransmissionInfo} (h : i.inFlight = false)
    (h' : i'.inFlight = true → i.inFlight = true) : i'.inFlight = false := by
  cases hc : i'.inFlight with
  | false => rfl
  | true => exact absurd (h.symm.trans (h' hc)) Bool.false_ne_true

theorem persistent_idle : Persistent Idle :=
  ⟨fun _ h => h.1, fun _ h => h, fun _ _ _ hfl h => not_inFlight h hfl⟩

theorem persistent_spent : Persistent Spent :=
  ⟨fun _ h => h, fun _ h => h.1, fun _ _ hf hfl h => ⟨not_inFlight h.1 hfl, hf.frames h.2⟩⟩

theorem Settled.sublist (h : Settled P L m) (hs : L'.Sublist L) : Settled P L' m :=
  ⟨h.nodup.sublist hs, fun n hn => h.sent n (hs.subset hn), fun n hn =>
    h.settled n (hs.subset hn)⟩

theorem Settled.carries (hP : Persistent P) (h : Settled P L m) (hc : Carries Lands m m') :
    Settled P L m' := by
  refine ⟨h.nodup, fun n hn => hc.largestSent_eq ▸ h.sent n hn, fun n hn i' hi' => ?_⟩
  obtain ⟨i, hi, hl⟩ := hc.get? n i' hi'
  exact hP.kept i i' hl.toFades hl.inFlight (h.settled n hn i hi)

/-- **Packets in flight can be told of**, if they are out of flight afterwards. -/
theorem Settled.append (hP : Persistent P) (h : Settled P L m) (hc : Carries Lands m m')
    (hnd : L'.Nodup) (hfl : ∀ n ∈ L', ∃ i, m.packets.get? n = some i ∧ i.inFlight = true)
    (hle : ∀ n ∈ L', n ≤ m.largestSentPacket)
    (hsettled : ∀ n ∈ L', ∀ i, m'.packets.get? n = some i → P i) : Settled P (L ++ L') m' := by
  have h' := h.carries hP hc
  refine ⟨List.nodup_append.2 ⟨h.nodup, hnd, ?_⟩, fun n hn => ?_, fun n hn => ?_⟩
  · rintro a ha b hb rfl
    obtain ⟨i, hi, hfl⟩ := hfl a hb
    exact absurd ((hP.idle i (h.settled a ha i hi)).symm.trans hfl) Bool.false_ne_true
  · rcases List.mem_append.1 hn with hn | hn
    · exact h'.sent n hn
    · exact hc.largestSent_eq ▸ hle n hn
  · rcases List.mem_append.1 hn with hn | hn
    · exact h'.settled n hn
    · exact hsettled n hn

/-- **A new packet has not been told of.** -/
theorem Settled.send (hP : Persistent P) (hS : Sound m) (h : Settled P L m) {p : SerializedPacket}
    (hp : m.largestSentPacket < p.packetNumber) (old : ℕ) (type : TransmissionType) (time : ℤ)
    (fl : Bool) : Settled P L (m.addSentPacket p old type time fl) := by
  have hL := (addSentPacket_spec hS hp old type time fl).2.1
  refine ⟨h.nodup, fun n hn => ?_, fun n hn i' hi' => ?_⟩
  · have := h.sent n hn
    omega
  · rcases addSentPacket_entries hS hp old type time fl hi' with
      ⟨i, hi, hf, hfl⟩ | ⟨-, hf, hfl⟩ | ⟨rfl, -, -⟩
    · exact hP.kept i i' hf (fun h => hfl ▸ h) (h.settled n hn i hi)
    · exact hP.of_spent i' ⟨hfl, hf.frames rfl⟩
    · exact absurd (h.sent _ hn) (by omega)

theorem Quiet.heard_eq (h : Quiet s s') : heard s' = heard s := by
  simp only [heard, reportedNumbers, h.reported_eq, h.acked_eq, h.lost_eq]

theorem Quiet.heardAcked_eq (h : Quiet s s') : heardAcked s' = heardAcked s := by
  simp only [heardAcked, reportedAcked, h.reported_eq, h.acked_eq]

theorem ToldOnce.quiet (h : ToldOnce s) (hq : Quiet s s') : ToldOnce s' := by
  refine ⟨fun hu => ?_, ?_⟩
  · rw [hq.heard_eq]
    exact (h.all (hq.options_eq ▸ hu)).carries persistent_idle hq.carries
  · rw [hq.heardAcked_eq]
    exact h.acked.carries persistent_spent hq.carries

/-! ## Acknowledged packets -/

theorem idle_removeFromInFlight (h : (m.removeFromInFlight n).packets.get? n = some i) :
    i.inFlight = false := by
  cases hi : m.packets.get? n with
  | none =>
    unfold UnackedPacketMap.removeFromInFlight at h
    rw [hi] at h
    exact absurd (hi.symm.trans h) (by simp)
  | some a =>
    obtain ⟨a', ha', hfl, -⟩ := get?_removeFromInFlight hi
    exact Option.some.inj (ha'.symm.trans h) ▸ hfl

/-- A packet that is linked has no frames, and one that is not loses them. -/
theorem frames_removeRetransmittability {a : TransmissionInfo} (ha : m.packets.get? n = some a)
    (hl : a.retransmission ≠ 0 → a.retransmittableFrames = [])
    (h : (m.removeRetransmittability n).packets.get? n = some i) :
    i.retransmittableFrames = [] := by
  unfold UnackedPacketMap.removeRetransmittability
    UnackedPacketMap.removeRetransmittabilityFrom at h
  rw [ha] at h
  dsimp only at h
  split_ifs at h with h0
  · obtain ⟨b, hb, hlands⟩ := (removeRetransmittabilityFrom_carries _ _ _).get? n i h
    change (m.packets.modify n _).get? n = some b at hb
    rw [Window.get?_modify_self ha] at hb
    obtain rfl := Option.some.inj hb
    exact hlands.frames (hl h0)
  · change (m.packets.modify n _).get? n = some i at h
    rw [Window.get?_modify_self ha] at h
    obtain rfl := Option.some.inj h
    rfl

/-- **An acknowledged packet is spent.** -/
theorem markPacketHandled_spent (h : Inv s) (hi : s.unackedPackets.packets.get? n = some i)
    (now : ℤ) {i' : TransmissionInfo}
    (hi' : (s.markPacketHandled R n i now).unackedPackets.packets.get? n = some i') :
    Spent i' := by
  have hn : (s.unackedPackets.packets.get? n).isSome := Option.isSome_iff_exists.2 ⟨i, hi⟩
  obtain ⟨k, a, hk, ha, -⟩ := exists_newestFrom h.sound hn (next_le_fuel hn)
  unfold SentPacketManager.markPacketHandled at hi'
  rw [show s.getNewestRetransmission n = some k from hk] at hi'
  dsimp only at hi'
  have he := erasePending_steady h k
  obtain ⟨hw, -⟩ := handleNewest_steady (R := R) he.inv
    (Option.isSome_iff_exists.2 ⟨a, ha⟩) n i now
  set u := (s.erasePending k).handleNewest R k n i now with hu
  -- The packet before its frames go, then after they are gone.
  obtain ⟨b, hb⟩ := Option.isSome_iff_exists.1 (hw.eases.tracked hn)
  obtain ⟨c, hc, hfl, -⟩ := get?_removeFromInFlight hb
  have hS := (removeFromInFlight_spec hw.inv.sound (Option.isSome_iff_exists.2 ⟨b, hb⟩)).1
  change (((u.unackedPackets.removeFromInFlight n).removeRetransmittability n).packets.modify
    n _).get? n = some i' at hi'
  rw [Window.get?_modify, if_pos rfl] at hi'
  obtain ⟨d, hd, rfl⟩ := Option.map_eq_some_iff.1 hi'
  obtain ⟨c', hc', hlands⟩ := (removeRetransmittability_carries _ n).get? n d hd
  obtain rfl := Option.some.inj (hc.symm.trans hc')
  have hfr := frames_removeRetransmittability hc (fun h0 => (hS.linked n c hc h0).2.2) hd
  exact ⟨not_inFlight hfl hlands.inFlight, hfr⟩

/-- **One acknowledged packet** is told of if it is in flight. -/
theorem markPacketHandled_toldOnce (h : Inv s) (hl : s.packetsLost = []) (ht : ToldOnce s)
    (hi : s.unackedPackets.packets.get? n = some i) (now : ℤ) :
    ToldOnce ((s.recordAcked n i).markPacketHandled R n i now) := by
  have hq := markPacketHandled_quiet (R := R) (s.recordAcked n i) n i now
  cases hfl : i.inFlight with
  | false =>
    have hr : Quiet s (s.recordAcked n i) :=
      ⟨carries_refl _, rfl, by simp [SentPacketManager.recordAcked, hfl], rfl, rfl⟩
    exact ht.quiet (hr.trans hq)
  | true =>
    have hvec : (s.recordAcked n i).packetsAcked = s.packetsAcked ++ [(n, i.bytesSent)] := by
      simp [SentPacketManager.recordAcked, hfl]
    have hle : n ≤ s.unackedPackets.largestSentPacket :=
      (h.sound.tracked_iff.1 (Option.isSome_iff_exists.2 ⟨i, hi⟩)).2
    have hadd : ∀ {P L}, Persistent P → Settled P L s.unackedPackets → Settled P (L ++ [n])
        ((s.recordAcked n i).markPacketHandled R n i now).unackedPackets := by
      intro P L hP hset
      refine hset.append hP hq.carries (by simp) (fun k hk => ?_) (fun k hk => ?_)
        fun k hk a ha => ?_
      · exact List.mem_singleton.1 hk ▸ ⟨i, hi, hfl⟩
      · exact List.mem_singleton.1 hk ▸ hle
      · obtain rfl := List.mem_singleton.1 hk
        exact hP.of_spent a (markPacketHandled_spent (recordAcked_steady h hi).inv hi now ha)
    refine ⟨fun hundo => ?_, ?_⟩
    · have hheard : heard (s.recordAcked n i) = heard s ++ [n] := by
        rw [heard, heard, hvec, show (s.recordAcked n i).packetsLost = [] from hl, hl]
        simp [reportedNumbers, SentPacketManager.recordAcked]
      rw [hq.heard_eq, hheard]
      exact hadd persistent_idle (ht.all (hq.options_eq ▸ hundo))
    · have hheard : heardAcked (s.recordAcked n i) = heardAcked s ++ [n] := by
        rw [heardAcked, heardAcked, hvec]
        simp [reportedAcked, SentPacketManager.recordAcked]
      rw [hq.heardAcked_eq, hheard]
      exact hadd persistent_spent ht.acked

theorem handleAckForSentPackets_toldOnce (h : Inv s) (hl : s.packetsLost = []) (ht : ToldOnce s)
    (ack : AckFrame) (now : ℤ) : ToldOnce (s.handleAckForSentPackets R ack now) := by
  refine (forPackets_steady_and (P := ToldOnce) h ht fun u n i hu htu hi => ?_).2
  refine ⟨handleAckAt_steady hu.inv hi ack now, ?_⟩
  unfold SentPacketManager.handleAckAt
  split_ifs
  · exact htu
  · exact htu
  · exact markPacketHandled_toldOnce hu.inv (hu.lost_eq.trans hl) htu hi now
  · exact htu

/-! ## Lost packets -/

/-- The packets reported lost are in flight, and in increasing order. -/
theorem detectFrom_inFlight (a : GeneralLossAlgorithm) (time : ℤ) (r : ρ) (acked : ℕ)
    (l : List TransmissionInfo) (n : ℕ) :
    (∀ p ∈ (a.detectFrom R m time r acked n l).lost,
        ∃ k i, p.1 = n + k ∧ l[k]? = some i ∧ i.inFlight = true) ∧
      ((a.detectFrom R m time r acked n l).lost.map Prod.fst).Pairwise (· < ·) := by
  induction l generalizing n with
  | nil => exact ⟨fun p hp => absurd hp (by simp [GeneralLossAlgorithm.detectFrom]), .nil⟩
  | cons i l ih =>
    obtain ⟨hlost, hsorted⟩ := ih (n + 1)
    have hrest : ∀ p ∈ (a.detectFrom R m time r acked (n + 1) l).lost,
        ∃ k i', p.1 = n + k ∧ (i :: l)[k]? = some i' ∧ i'.inFlight = true := by
      intro p hp
      obtain ⟨k, i', hk, hi', hfl⟩ := hlost p hp
      exact ⟨k + 1, i', by omega, by simpa using hi', hfl⟩
    unfold GeneralLossAlgorithm.detectFrom
    split_ifs with hlt hfl
    · exact ⟨fun p hp => absurd hp (by simp), .nil⟩
    · split
      · refine ⟨fun p hp => ?_, List.Pairwise.cons (fun b hb => ?_) hsorted⟩
        · rcases List.mem_cons.1 hp with rfl | hp
          · exact ⟨0, i, rfl, rfl, hfl⟩
          · exact hrest p hp
        · obtain ⟨p, hp, rfl⟩ := List.mem_map.1 hb
          obtain ⟨k, -, hk, -⟩ := hlost p hp
          omega
      · exact ⟨hrest, hsorted⟩
      · exact ⟨fun p hp => absurd hp (by simp), .nil⟩
      · exact ⟨fun p hp => absurd hp (by simp), .nil⟩
    · exact ⟨hrest, hsorted⟩

theorem markLost_idle {p : ℕ × ℕ}
    (h : (s.markLost p).unackedPackets.packets.get? p.1 = some i) : i.inFlight = false := by
  unfold SentPacketManager.markLost at h
  dsimp only at h
  split_ifs at h
  · exact idle_removeFromInFlight h
  · exact idle_removeFromInFlight h

/-- The loop over the lost packets takes each of them out of flight. -/
theorem foldl_markLost (s : SentPacketManager ρ) (l : List (ℕ × ℕ)) :
    Quiet s (l.foldl SentPacketManager.markLost s) ∧
      ∀ p ∈ l, ∀ i, (l.foldl SentPacketManager.markLost s).unackedPackets.packets.get? p.1 =
        some i → i.inFlight = false := by
  induction l generalizing s with
  | nil => exact ⟨Quiet.refl s, fun p hp => absurd hp (by simp)⟩
  | cons p l ih =>
    obtain ⟨hq, hidle⟩ := ih (s.markLost p)
    refine ⟨(markLost_quiet s p).trans hq, fun q hq' i hi => ?_⟩
    rcases List.mem_cons.1 hq' with rfl | hq'
    · obtain ⟨a, ha, hlands⟩ := hq.carries.get? _ i hi
      exact not_inFlight (markLost_idle ha) hlands.inFlight
    · exact hidle q hq' i hi

/-- **Loss detection tells of packets in flight**, and takes them out of it. -/
theorem invokeLossDetection_toldOnce (h : Inv s) (hl : s.packetsLost = []) (ht : ToldOnce s)
    (time : ℤ) : ToldOnce (s.invokeLossDetection R time) := by
  unfold SentPacketManager.invokeLossDetection
  set acked := (s.packetsAcked.getLast?).elim s.largestNewlyAcked Prod.fst with hacked
  obtain ⟨hfl, hsorted⟩ := detectFrom_inFlight (R := R) (m := s.unackedPackets) s.lossAlgorithm
    time s.rttStats acked s.unackedPackets.packets.items s.unackedPackets.packets.base
  set d := s.lossAlgorithm.detectLosses R s.unackedPackets time s.rttStats acked with hd
  set u : SentPacketManager ρ := { s with
    largestNewlyAcked := acked
    lossAlgorithm := d.2
    packetsLost := s.packetsLost ++ d.1.lost
    unackedPackets := if d.1.strayed then s.unackedPackets.stray else s.unackedPackets } with hu
  have hcarries : Carries Lands s.unackedPackets u.unackedPackets := by
    change Carries Lands s.unackedPackets (if _ then _ else _)
    split_ifs
    · exact ⟨rfl, fun _ i hi => ⟨i, hi, Lands.refl i⟩⟩
    · exact carries_refl _
  have hlost : u.packetsLost = d.1.lost := by
    show s.packetsLost ++ d.1.lost = d.1.lost
    rw [hl, List.nil_append]
  have hheard : heard u = heard s ++ d.1.lost.map Prod.fst := by
    rw [heard, heard, hlost, hl]
    simp [reportedNumbers, hu]
  obtain ⟨hq, hidle⟩ := foldl_markLost u u.packetsLost
  refine ⟨fun hundo => ?_, ?_⟩
  · rw [hq.heard_eq, hheard]
    have htracked : ∀ n ∈ d.1.lost.map Prod.fst, ∃ i,
        s.unackedPackets.packets.get? n = some i ∧ i.inFlight = true := by
      intro n hn
      obtain ⟨p, hp, rfl⟩ := List.mem_map.1 hn
      obtain ⟨k, i, hk, hi, hfl⟩ := hfl p hp
      refine ⟨i, ?_, hfl⟩
      rw [hk, Window.get?, if_neg (by omega), Nat.add_sub_cancel_left]
      exact hi
    refine (ht.all (hq.options_eq ▸ hundo)).append persistent_idle (hcarries.trans hq.carries)
      (hsorted.imp Nat.ne_of_lt) htracked (fun n hn => ?_) fun n hn i hi => ?_
    · obtain ⟨i, hi, -⟩ := htracked n hn
      exact (h.sound.tracked_iff.1 (Option.isSome_iff_exists.2 ⟨i, hi⟩)).2
    · obtain ⟨p, hp, rfl⟩ := List.mem_map.1 hn
      exact hidle p (hlost ▸ hp) i hi
  · rw [hq.heardAcked_eq]
    exact ht.acked.carries persistent_spent (hcarries.trans hq.carries)

/-! ## Reporting, and undoing losses -/

theorem maybeInvokeCongestionEvent_toldOnce (ht : ToldOnce s) (updated : Bool) :
    ToldOnce (s.maybeInvokeCongestionEvent updated) := by
  unfold SentPacketManager.maybeInvokeCongestionEvent
  split_ifs
  · exact ht
  · refine ⟨fun hundo => ?_, ?_⟩
    · have hheard : heard { s with
          reported := s.reported ++ [(s.packetsAcked, s.packetsLost)]
          packetsAcked := []
          packetsLost := [] } = heard s := by
        simp [heard, reportedNumbers]
      rw [hheard]
      exact ht.all hundo
    · have hheard : heardAcked { s with
          reported := s.reported ++ [(s.packetsAcked, s.packetsLost)]
          packetsAcked := []
          packetsLost := [] } = heardAcked s := by
        simp [heardAcked, reportedAcked]
      rw [hheard]
      exact ht.acked

theorem packetsAcked_maybeInvokeCongestionEvent (updated : Bool) :
    (s.maybeInvokeCongestionEvent updated).packetsAcked = [] := by
  unfold SentPacketManager.maybeInvokeCongestionEvent
  split_ifs with he
  · simp only [Bool.and_eq_true, List.isEmpty_iff] at he
    exact he.1.2
  · rfl

theorem undoFrom_eq (hundo : s.options.undoPendingRetransmits = false)
    (l : List (ℕ × TransmissionType)) :
    s.undoFrom l = { s with pendingRetransmissions := l } := by
  cases l with
  | nil => rfl
  | cons p l =>
    unfold SentPacketManager.undoFrom
    rw [if_neg fun h => Bool.false_ne_true (hundo.symm.trans h.1)]

/-- **A packet that was acknowledged is not put back in flight**: it has no frames. -/
theorem Settled.restoreToInFlight (h : Settled Spent L m)
    (hn : ∀ i, m.packets.get? n = some i → i.retransmittableFrames ≠ []) :
    Settled Spent L (m.restoreToInFlight n) := by
  refine ⟨h.nodup, fun k hk => ?_, fun k hk i' hi' => ?_⟩
  · exact (restoreToInFlight_carries m n).largestSent_eq.symm ▸ h.sent k hk
  · rw [get?_restoreToInFlight] at hi'
    split_ifs at hi' with hkn
    · obtain ⟨i, hi, -⟩ := Option.map_eq_some_iff.1 hi'
      exact absurd (h.settled k hk i (hkn ▸ hi)).2 (hn i hi)
    · exact h.settled k hk i' hi'

theorem undoFrom_toldOnce (ht : ToldOnce s) (l : List (ℕ × TransmissionType))
    (hq : ∀ q ∈ l, Queued s.unackedPackets q) : ToldOnce (s.undoFrom l) := by
  obtain ⟨hopt, hrep, hack, -⟩ := undoFrom_vectors s l
  refine ⟨fun hundo => ?_, ?_⟩
  · rw [hopt] at hundo
    rw [undoFrom_eq hundo]
    exact ht.all hundo
  · have hheard : heardAcked (s.undoFrom l) = heardAcked s := by
      simp only [heardAcked, reportedAcked, hrep, hack]
    rw [hheard]
    exact undoFrom_rec (fun _ _ h hn => h.restoreToInFlight hn) ht.acked l (frames_of_queued hq)

/-! ## Runs -/

/-- The invariant between two operations. -/
structure Told (s : SentPacketManager ρ) : Prop where
  between : Between s
  acked_nil : s.packetsAcked = []
  once : ToldOnce s

theorem Told.of_quiet (h : Told s) (hb : Between s') (hq : Quiet s s') : Told s' :=
  ⟨hb, hq.acked_eq.trans h.acked_nil, h.once.quiet hq⟩

theorem processAck_told (h : Told s) (ack : AckFrame) (time now : ℤ) :
    Told (s.processAck R ack time now) := by
  obtain ⟨⟨hI, hl⟩, hnil, ht⟩ := h
  refine ⟨processAck_between ⟨hI, hl⟩ ack time now, packetsAcked_maybeInvokeCongestionEvent _, ?_⟩
  obtain ⟨h₁, hl₁⟩ := observed_inv (R := R) hI ack time
  set u := ((s.updatePacketInformationReceivedByPeer ack).maybeUpdateRtt R ack time).withMap
    fun m => m.increaseLargestObserved ack.largestObserved with hu
  have hq : Quiet s u := observed_quiet s ack time
  have h₂ := handleAckForSentPackets_steady (R := R) h₁ ack now
  have ht₂ := handleAckForSentPackets_toldOnce (R := R) h₁ (hl₁.trans hl) (ht.quiet hq) ack now
  have ht₃ := invokeLossDetection_toldOnce (R := R) h₂.inv (h₂.lost_eq.trans (hl₁.trans hl)) ht₂
    time
  unfold SentPacketManager.processAck
  refine maybeInvokeCongestionEvent_toldOnce ?_ _
  -- Losses found while an RTO is being recovered from are not told of.
  set v := (u.handleAckForSentPackets R ack now).invokeLossDetection R time with hv
  refine ⟨fun hundo => (ht₃.all hundo).sublist ?_, ht₃.acked⟩
  refine List.Sublist.append_left ?_ _
  refine (List.Sublist.append_left ?_ _).map Prod.fst
  change (if _ then [] else v.packetsLost).Sublist v.packetsLost
  split_ifs
  · exact List.nil_sublist _
  · exact List.Sublist.refl _

theorem onIncomingAck_told (h : Told s) (ack : AckFrame) (time now : ℤ) :
    Told (s.onIncomingAck R ack time now) := by
  have hB := onIncomingAck_between (R := R) h.between ack time now
  obtain ⟨⟨hI, hl⟩, hnil, ht⟩ := processAck_told (R := R) h ack time now
  set u := (s.processAck R ack time now).withMap .removeObsoletePackets with hu
  have hqueued : ∀ q ∈ u.pendingRetransmissions, Queued u.unackedPackets q :=
    fun q hq => (hI.queued q hq).removeObsoletePackets
  have ht₁ : ToldOnce u := ht.quiet (quiet_withMap _ (removeObsoletePackets_carries _))
  unfold SentPacketManager.onIncomingAck at hB ⊢
  dsimp only at hB ⊢
  split_ifs at hB ⊢
  · have ht₂ : ToldOnce (u.resetCounters R ack) := ⟨ht₁.all, ht₁.acked⟩
    refine ⟨hB, ?_, undoFrom_toldOnce ht₂ u.pendingRetransmissions hqueued⟩
    exact (undoFrom_vectors (u.resetCounters R ack) u.pendingRetransmissions).2.2.1.trans hnil
  · refine ⟨hB, ?_, undoFrom_toldOnce ht₁ u.pendingRetransmissions hqueued⟩
    exact (undoFrom_vectors u u.pendingRetransmissions).2.2.1.trans hnil

theorem onRetransmissionTimeout_told (h : Told s) (now : ℤ) :
    Told (s.onRetransmissionTimeout R now) := by
  have hB := onRetransmissionTimeout_between (R := R) h.between now
  unfold SentPacketManager.onRetransmissionTimeout at hB ⊢
  split at hB
  · refine h.of_quiet hB (Quiet.trans ?_ (retransmitCryptoPackets_quiet _))
    exact ⟨carries_refl _, rfl, rfl, rfl, rfl⟩
  · refine ⟨hB, packetsAcked_maybeInvokeCongestionEvent _,
      maybeInvokeCongestionEvent_toldOnce (invokeLossDetection_toldOnce ?_ ?_ ?_ now) false⟩
    · exact h.between.1.congr rfl rfl rfl rfl
    · exact h.between.2
    · exact ⟨h.once.all, h.once.acked⟩
  · exact h.of_quiet hB ⟨carries_refl _, rfl, rfl, rfl, rfl⟩
  · refine h.of_quiet hB (Quiet.trans ?_ (retransmitRtoPackets_quiet _))
    exact ⟨carries_refl _, rfl, rfl, rfl, rfl⟩

theorem onPacketSent_told (h : Told s) {p : SerializedPacket}
    (hp : s.unackedPackets.largestSentPacket < p.packetNumber) (old : ℕ) (time : ℤ)
    (type : TransmissionType) (fl : Bool) : Told (s.onPacketSent p old time type fl) := by
  have hB := onPacketSent_between h.between hp old time type fl
  have hall := fun hundo => (h.once.all hundo).send persistent_idle h.between.1.sound hp old type
    time fl
  have hacked := h.once.acked.send persistent_spent h.between.1.sound hp old type time fl
  unfold SentPacketManager.onPacketSent at hB ⊢
  dsimp only at hB ⊢
  split_ifs at hB ⊢
  · exact ⟨hB, h.acked_nil, hall, hacked⟩
  · exact ⟨hB, h.acked_nil, hall, hacked⟩

/-- **Every operation keeps the invariant.** -/
theorem told_step {o : Op} (h : Told s) (hs : s.step R o = some t) : Told t := by
  have hB := between_step h.between hs
  cases o with
  | send p old time type fl =>
    simp only [SentPacketManager.step] at hs
    split_ifs at hs with hp
    exact Option.some.inj hs ▸ onPacketSent_told h hp.1 old time type fl
  | ack frame time now =>
    simp only [SentPacketManager.step] at hs
    split_ifs at hs
    exact Option.some.inj hs ▸ onIncomingAck_told h frame time now
  | retransmissionTimeout now => exact Option.some.inj hs ▸ onRetransmissionTimeout_told h now
  | tailLossProbe =>
    exact h.of_quiet hB (Option.some.inj hs ▸ maybeRetransmitTailLossProbe_quiet s)
  | neuterUnencryptedPackets =>
    exact h.of_quiet hB (Option.some.inj hs ▸ neuterUnencryptedPackets_quiet s)
  | retransmitUnackedPackets initialOnly =>
    exact h.of_quiet hB (Option.some.inj hs ▸ retransmitUnackedPackets_quiet s initialOnly)
  | cancelRetransmissionsForStream streamId =>
    exact h.of_quiet hB (Option.some.inj hs ▸ cancelRetransmissionsForStream_quiet s streamId)
  | setHandshakeConfirmed =>
    exact h.of_quiet hB (Option.some.inj hs ▸ ⟨carries_refl _, rfl, rfl, rfl, rfl⟩)

theorem told_new (r : ρ) (lossType : LossDetectionType) (options : Options) :
    Told (SentPacketManager.new r lossType options) := by
  refine ⟨between_new r lossType options, rfl, fun _ => ⟨List.nodup_nil, ?_, ?_⟩,
    List.nodup_nil, ?_, ?_⟩
  all_goals exact fun n hn => absurd hn List.not_mem_nil

/-! ## The options do not change -/

theorem options_handleAckForSentPackets (s : SentPacketManager ρ) (ack : AckFrame) (now : ℤ) :
    (s.handleAckForSentPackets R ack now).options = s.options := by
  refine forPackets_rec (P := fun u => u.options = s.options) rfl (fun _ hu => hu)
    fun u n i hu _ => ?_
  unfold SentPacketManager.handleAckAt
  split_ifs
  · exact hu
  · exact hu
  · exact (markPacketHandled_quiet (u.recordAcked n i) n i now).options_eq.trans hu
  · exact hu

theorem options_maybeInvokeCongestionEvent (s : SentPacketManager ρ) (updated : Bool) :
    (s.maybeInvokeCongestionEvent updated).options = s.options := by
  unfold SentPacketManager.maybeInvokeCongestionEvent
  split_ifs <;> rfl

theorem options_invokeLossDetection (s : SentPacketManager ρ) (time : ℤ) :
    (s.invokeLossDetection R time).options = s.options :=
  (foldl_markLost _ _).1.options_eq

theorem options_onIncomingAck (s : SentPacketManager ρ) (ack : AckFrame) (time now : ℤ) :
    (s.onIncomingAck R ack time now).options = s.options := by
  have hprocess : (s.processAck R ack time now).options = s.options := by
    unfold SentPacketManager.processAck
    rw [options_maybeInvokeCongestionEvent]
    refine (options_invokeLossDetection _ time).trans ?_
    refine (options_handleAckForSentPackets _ ack now).trans ?_
    exact (observed_quiet s ack time).options_eq
  unfold SentPacketManager.onIncomingAck
  dsimp only
  split_ifs
  · exact (undoFrom_vectors _ _).1.trans hprocess
  · exact (undoFrom_vectors _ _).1.trans hprocess

theorem options_step {o : Op} (hs : s.step R o = some t) : t.options = s.options := by
  cases o with
  | send p old time type fl =>
    simp only [SentPacketManager.step] at hs
    split_ifs at hs
    obtain rfl := Option.some.inj hs
    unfold SentPacketManager.onPacketSent
    dsimp only
    split_ifs <;> rfl
  | ack frame time now =>
    simp only [SentPacketManager.step] at hs
    split_ifs at hs
    exact Option.some.inj hs ▸ options_onIncomingAck s frame time now
  | retransmissionTimeout now =>
    obtain rfl := Option.some.inj hs
    unfold SentPacketManager.onRetransmissionTimeout
    split
    · exact (retransmitCryptoPackets_quiet _).options_eq
    · rw [options_maybeInvokeCongestionEvent, options_invokeLossDetection]
    · rfl
    · exact (retransmitRtoPackets_quiet _).options_eq
  | tailLossProbe => exact Option.some.inj hs ▸ (maybeRetransmitTailLossProbe_quiet s).options_eq
  | neuterUnencryptedPackets =>
    exact Option.some.inj hs ▸ (neuterUnencryptedPackets_quiet s).options_eq
  | retransmitUnackedPackets initialOnly =>
    exact Option.some.inj hs ▸ (retransmitUnackedPackets_quiet s initialOnly).options_eq
  | cancelRetransmissionsForStream streamId =>
    exact Option.some.inj hs ▸ (cancelRetransmissionsForStream_quiet s streamId).options_eq
  | setHandshakeConfirmed => exact Option.some.inj hs ▸ rfl

/-- **The congestion controller hears of each packet at most once.**  In every state
of every run of a manager without the option to undo losses, the vectors that
`OnCongestionEvent` was called with hold no packet number twice, neither in one of
them nor in two; with the option, no packet has been reported acknowledged twice. -/
theorem always_reported_once (R : RttStats ρ) (r : ρ) (lossType : LossDetectionType)
    (options : Options) (ops : List Op) :
    Always (SentPacketManager.step R)
      (fun s => (options.undoPendingRetransmits = false → (reportedNumbers s).Nodup) ∧
        (reportedAcked s).Nodup)
      (SentPacketManager.new r lossType options) ops := by
  have hT : Always (SentPacketManager.step R) (fun s => Told s ∧ s.options = options)
      (.new r lossType options) ops :=
    always_of_step
      (fun _ _ _ h hs => ⟨told_step h.1 hs, (options_step hs).trans h.2⟩)
      ⟨told_new r lossType options, rfl⟩
  refine hT.mono fun s ⟨h, ho⟩ => ⟨fun hundo => ?_, ?_⟩
  · exact ((h.once.all (ho ▸ hundo)).sublist (List.sublist_append_left _ _)).nodup
  · exact (h.once.acked.sublist (List.sublist_append_left _ _)).nodup

/-- With the option to undo losses, the second packet is reported lost and, after it
has been put back in flight, acknowledged. -/
example :
    ((run (SentPacketManager.step
        (⟨fun r _ _ _ => r, id, fun _ => 0, fun _ => 0, fun _ => 0⟩ : RttStats Unit))
      (.new () .nack ⟨false, true, 2, true, false, false⟩)
      [.send ⟨1, 1, 1000, [.stream 3], false, 0, .initial, 0⟩ 0 10 .notRetransmission true,
        .send ⟨2, 1, 1000, [.stream 3], false, 0, .initial, 0⟩ 0 10 .notRetransmission true,
        .send ⟨3, 1, 1000, [.stream 5], false, 0, .initial, 0⟩ 0 10 .notRetransmission true,
        .send ⟨4, 1, 1000, [.stream 5], false, 0, .initial, 0⟩ 0 10 .notRetransmission true,
        .send ⟨5, 1, 1000, [.stream 5], false, 0, .initial, 0⟩ 0 10 .notRetransmission true,
        .ack ⟨5, 0, [5]⟩ 20 20, .ack ⟨5, 0, [1, 5]⟩ 30 30, .ack ⟨5, 0, [1, 2, 5]⟩ 40 40]).map
      fun s => (reportedNumbers s, reportedAcked s)) = some ([5, 1, 2, 2], [5, 2]) := by
  decide

end Packets
end QuicNs3
