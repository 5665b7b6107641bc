/-
# Spurious retransmissions

When a packet is acked that has been sent again, its retransmissions were spurious.
Acked packets stay tracked and come up with every later ack, and a walk may start at any
packet of a chain.  That none of them is counted twice is a matter of the links: a packet
is linked from one packet only, it is counted when that link is cut, and it is never
linked anew, since links are made to packets that are just being sent.

`Tallied` is this invariant, and `always_spurious_once` compares the count with the
retransmissions that the connection has written.
-/

import QuicNs3.Packets.Keeping
import QuicNs3.Packets.Writing

namespace QuicNs3
namespace Packets

open Lib

/-- The packets `L` counted as spurious, `c` of them, are different retransmissions, and
none of them is linked any more; of the retransmissions `T`, each is linked from at most
one packet. -/
structure Tallied (T : List ℕ) (m : UnackedPacketMap) (L : List ℕ) (c : ℕ) : Prop where
  count_eq : c = L.length
  nodup : L.Nodup
  written : ∀ k ∈ L, k ∈ T
  sent : ∀ k ∈ T, k ≤ m.largestSentPacket
  linked : ∀ n i, m.packets.get? n = some i → i.retransmission ≠ 0 →
    i.retransmission ∈ T ∧ i.retransmission ∉ L
  unique : ∀ n n' i i', m.packets.get? n = some i → m.packets.get? n' = some i' →
    i.retransmission ≠ 0 → i.retransmission = i'.retransmission → n = n'

variable {ρ : Type} {R : RttStats ρ} {T L : List ℕ} {c n old : ℕ} {m m' : UnackedPacketMap}
  {i : TransmissionInfo} {f : TransmissionInfo → TransmissionInfo} {p : SerializedPacket}

/-! ## Where packets are not sent -/

/-- The links of `m'` are links of `m`. -/
theorem Tallied.of_links (h : Tallied T m L c)
    (hsent : m'.largestSentPacket = m.largestSentPacket)
    (hlinks : ∀ n i', m'.packets.get? n = some i' → i'.retransmission ≠ 0 →
      ∃ i, m.packets.get? n = some i ∧ i.retransmission = i'.retransmission) :
    Tallied T m' L c where
  count_eq := h.count_eq
  nodup := h.nodup
  written := h.written
  sent := hsent ▸ h.sent
  linked := by
    intro n i' hi' h0
    obtain ⟨i, hi, he⟩ := hlinks n i' hi' h0
    rw [← he] at h0 ⊢
    exact h.linked n i hi h0
  unique := by
    intro n n' a' b' ha' hb' h0 heq
    obtain ⟨a, ha, hea⟩ := hlinks n a' ha' h0
    obtain ⟨b, hb, heb⟩ := hlinks n' b' hb' (heq ▸ h0)
    exact h.unique n n' a b ha hb (hea ▸ h0) ((hea.trans heq).trans heb.symm)

/-- A change that leaves the link of a packet as it is. -/
theorem Tallied.modify (h : Tallied T m L c) (hf : ∀ a, (f a).retransmission = a.retransmission) :
    Tallied T (m.modify n f) L c := by
  refine h.of_links rfl fun j a ha _ => ?_
  change (m.packets.modify n f).get? j = some a at ha
  rw [Window.get?_modify] at ha
  split_ifs at ha with hj
  · obtain ⟨b, hb, rfl⟩ := Option.map_eq_some_iff.1 ha
    exact ⟨b, hj ▸ hb, (hf b).symm⟩
  · exact ⟨a, ha, rfl⟩

/-- **A link is cut, and the packet it led to is counted.** -/
theorem Tallied.cut (h : Tallied T m L c) (hi : m.packets.get? n = some i)
    (h0 : i.retransmission ≠ 0) :
    Tallied T (m.modify n cutLink) (L ++ [i.retransmission]) (c + 1) := by
  obtain ⟨hwritten, hnew⟩ := h.linked n i hi h0
  -- What is still linked is linked from another packet.
  have hlinks : ∀ j a', (m.modify n cutLink).packets.get? j = some a' → a'.retransmission ≠ 0 →
      j ≠ n ∧ m.packets.get? j = some a' := by
    intro j a' ha' hne
    change (m.packets.modify n cutLink).get? j = some a' at ha'
    rw [Window.get?_modify] at ha'
    split_ifs at ha' with hj
    · obtain ⟨b, -, rfl⟩ := Option.map_eq_some_iff.1 ha'
      exact absurd rfl hne
    · exact ⟨hj, ha'⟩
  refine ⟨?_, ?_, fun k hk => ?_, h.sent, fun j a ha hne => ?_, fun j j' a a' ha ha' hne heq => ?_⟩
  · rw [h.count_eq, List.length_append, List.length_singleton]
  · refine List.nodup_append.2 ⟨h.nodup, List.nodup_cons.2 ⟨List.not_mem_nil, List.nodup_nil⟩, ?_⟩
    exact fun a ha b hb he => hnew (List.mem_singleton.1 hb ▸ he ▸ ha)
  · rcases List.mem_append.1 hk with hk | hk
    · exact h.written k hk
    · exact List.mem_singleton.1 hk ▸ hwritten
  · obtain ⟨hj, ha⟩ := hlinks j a ha hne
    obtain ⟨hT, hL⟩ := h.linked j a ha hne
    refine ⟨hT, fun hmem => ?_⟩
    rcases List.mem_append.1 hmem with hmem | hmem
    · exact hL hmem
    · exact hj (h.unique j n a i ha hi hne (List.mem_singleton.1 hmem))
  · obtain ⟨-, ha⟩ := hlinks j a ha hne
    obtain ⟨-, ha'⟩ := hlinks j' a' ha' (heq ▸ hne)
    exact h.unique j j' a a' ha ha' hne heq

theorem maintained_tallied (T : List ℕ) : Maintained (Tallied T) where
  alike := by
    intro m m' L c h ha
    refine h.of_links ha.largestSent_eq fun n i' hi' _ => ?_
    obtain ⟨i, hi, he⟩ := ha.exists_get? hi'
    exact ⟨i, hi, (congrArg (fun x => x.2.2) he).symm⟩
  obsolete := fun h => h.of_links rfl fun n i hi _ => ⟨i, get?_of_removeObsoletePackets hi, rfl⟩
  cut := fun _ hi h0 h => h.cut hi h0
  clear := fun {m _ _ n i} _ _ _ h => by
    have hm := h.modify (n := n)
      (f := fun i => { i with retransmittableFrames := [], hasCryptoHandshake := false })
      fun _ => rfl
    exact hm.of_links rfl fun n i hi _ => ⟨i, hi, rfl⟩
  shrink := fun _ _ _ h => h.modify fun _ => rfl

/-! ## Sending -/

/-- An entry of the map after a transfer: as it was, or the packet that is sent again. -/
theorem get?_of_transferRetransmissionInfo {new : ℕ} {type : TransmissionType}
    {info : TransmissionInfo}
    (hi : (m.transferRetransmissionInfo old new type info).1.packets.get? n = some i) :
    m.packets.get? n = some i ∨
      ∃ a, m.packets.get? n = some a ∧ n = old ∧ i = UnackedPacketMap.transferred new type a := by
  unfold UnackedPacketMap.transferRetransmissionInfo at hi
  split_ifs at hi
  · exact .inl hi
  · exact .inl hi
  · split at hi
    · exact .inl hi
    · have ha := get?_of_removeObsoletePackets hi
      change (m.packets.modify old _).get? n = some i at ha
      rw [Window.get?_modify] at ha
      split_ifs at ha with hn
      · obtain ⟨a, ha', rfl⟩ := Option.map_eq_some_iff.1 ha
        exact .inr ⟨a, hn ▸ ha', hn, rfl⟩
      · exact .inl ha

/-- What is transferred to the new packet is not a link. -/
theorem retransmission_transferRetransmissionInfo (m : UnackedPacketMap) (old new : ℕ)
    (type : TransmissionType) (info : TransmissionInfo) :
    (m.transferRetransmissionInfo old new type info).2.retransmission = info.retransmission := by
  unfold UnackedPacketMap.transferRetransmissionInfo
  split_ifs
  · rfl
  · rfl
  · split <;> rfl

/-- The numbers that are skipped have no links. -/
theorem link_fillGap {k : ℕ} (hi : (m.fillGap k).packets.get? n = some i)
    (h0 : i.retransmission ≠ 0) : m.packets.get? n = some i := by
  change (m.packets.append _).get? n = some i at hi
  rw [Window.get?_append] at hi
  split_ifs at hi with hn
  · exact hi
  · obtain rfl := List.eq_of_mem_replicate (List.mem_of_getElem? hi)
    exact absurd rfl h0

/-- The links after a packet is sent: those before, and the one from its original. -/
theorem link_addSentPacket {type : TransmissionType} {time : ℤ} {fl : Bool}
    (hi : (m.addSentPacket p old type time fl).packets.get? n = some i)
    (h0 : i.retransmission ≠ 0) :
    (∃ a, m.packets.get? n = some a ∧ a.retransmission = i.retransmission) ∨
      old ≠ 0 ∧ n = old ∧ i.retransmission = p.packetNumber := by
  unfold UnackedPacketMap.addSentPacket at hi
  dsimp only at hi
  rcases Nat.eq_zero_or_pos old with hold | hold
  · rw [if_pos hold] at hi
    rcases get?_pushSent (k := p.packetNumber) hi with hi | ⟨-, rfl⟩
    · exact .inl ⟨i, link_fillGap hi h0, rfl⟩
    · exact absurd rfl h0
  · rw [if_neg hold.ne'] at hi
    rcases get?_pushSent hi with hi | ⟨-, rfl⟩
    · rcases get?_of_transferRetransmissionInfo hi with hi | ⟨a, ha, hn, rfl⟩
      · exact .inl ⟨i, link_fillGap hi h0, rfl⟩
      · by_cases htype : type = .allInitialRetransmission ∨ type = .allUnackedRetransmission
        · have hlink : (UnackedPacketMap.transferred p.packetNumber type a).retransmission =
              a.retransmission := if_pos htype
          exact .inl ⟨a, link_fillGap ha (hlink ▸ h0), hlink.symm⟩
        · exact .inr ⟨hold.ne', hn, if_neg htype⟩
    · exact absurd (retransmission_transferRetransmissionInfo ..) h0

/-- **Sending a packet** makes at most one link, to the packet itself. -/
theorem Tallied.addSentPacket (h : Tallied T m L c) (hp : m.largestSentPacket < p.packetNumber)
    {type : TransmissionType} (hw : Serialized p old type) (time : ℤ) (fl : Bool)
    (hlargest : (m.addSentPacket p old type time fl).largestSentPacket = p.packetNumber) :
    Tallied (if type ≠ .notRetransmission then T ++ [p.packetNumber] else T)
      (m.addSentPacket p old type time fl) L c := by
  have hsub : ∀ k ∈ T, k ∈ if type ≠ .notRetransmission then T ++ [p.packetNumber] else T := by
    intro k hk
    split_ifs
    · exact List.mem_append_left _ hk
    · exact hk
  -- Nothing is linked to the new packet before it is sent.
  have hfresh : ∀ j a, m.packets.get? j = some a → a.retransmission ≠ p.packetNumber := by
    intro j a ha he
    have hT := (h.linked j a ha (by omega)).1
    have := h.sent _ hT
    omega
  refine ⟨h.count_eq, h.nodup, fun k hk => hsub k (h.written k hk), fun k hk => ?_,
    fun j a ha h0 => ?_, fun j j' a a' ha ha' h0 heq => ?_⟩
  · rw [hlargest]
    split_ifs at hk
    · rcases List.mem_append.1 hk with hk | hk
      · exact (h.sent k hk).trans hp.le
      · exact (List.mem_singleton.1 hk).le
    · exact (h.sent k hk).trans hp.le
  · rcases link_addSentPacket ha h0 with ⟨b, hb, he⟩ | ⟨hold, -, he⟩
    · obtain ⟨hT, hL⟩ := h.linked j b hb (he ▸ h0)
      exact ⟨hsub _ (he ▸ hT), he ▸ hL⟩
    · refine ⟨?_, fun hL => ?_⟩
      · rw [he, if_pos (hw.retransmission hold)]
        exact List.mem_append_right _ (List.mem_singleton_self _)
      · have := h.sent _ (h.written _ (he ▸ hL))
        omega
  · rcases link_addSentPacket ha h0 with ⟨b, hb, he⟩ | ⟨-, hj, he⟩
    all_goals
      rcases link_addSentPacket ha' (heq ▸ h0) with ⟨b', hb', he'⟩ | ⟨-, hj', he'⟩
    · exact h.unique j j' b b' hb hb' (he ▸ h0) ((he.trans heq).trans he'.symm)
    · exact absurd ((he.trans heq).trans he') (hfresh j b hb)
    · exact absurd ((he'.trans heq.symm).trans he) (hfresh j' b' hb')
    · exact hj.trans hj'.symm

/-! ## Runs -/

/-- The packets counted as spurious are different, and were written as retransmissions;
so there are no more of them. -/
structure SpuriousOnce (c : Connection ρ) : Prop where
  nodup : c.manager.spurious.Nodup
  count_eq : c.manager.stats.packetsSpuriouslyRetransmitted = c.manager.spurious.length
  written : ∀ k ∈ c.manager.spurious, k ∈ c.retransmitted
  written_eq : c.packetsRetransmitted = c.retransmitted.length
  le : c.manager.stats.packetsSpuriouslyRetransmitted ≤ c.packetsRetransmitted

/-- The invariant of a connection. -/
structure Consistent (c : Connection ρ) : Prop where
  between : Between c.manager
  tallied : Upheld (Tallied c.retransmitted) c.manager
  written_eq : c.packetsRetransmitted = c.retransmitted.length

theorem Consistent.spuriousOnce {c : Connection ρ} (h : Consistent c) : SpuriousOnce c where
  nodup := h.tallied.nodup
  count_eq := h.tallied.count_eq
  written := h.tallied.written
  written_eq := h.written_eq
  le := by
    rw [h.tallied.count_eq, h.written_eq]
    exact (List.subperm_of_subset h.tallied.nodup h.tallied.written).length_le

theorem consistent_new (r : ρ) (lossType : LossDetectionType) (options : Options) :
    Consistent (.new (.new r lossType options)) where
  between := between_new r lossType options
  tallied := by
    have hnone : ∀ n i, (UnackedPacketMap.new).packets.get? n ≠ some i := by
      intro n i hi
      simp [UnackedPacketMap.new, Window.get?] at hi
    exact ⟨rfl, List.nodup_nil, fun k hk => hk, fun k hk => absurd hk List.not_mem_nil,
      fun n i hi => absurd hi (hnone n i), fun n _ i _ hi => absurd hi (hnone n i)⟩
  written_eq := rfl

/-- **One operation.** -/
theorem Consistent.step {s t : Connection ρ} {o : Op} (h : Consistent s) (hw : o.Written)
    (hs : s.step R o = some t) : Consistent t := by
  obtain ⟨manager, hm, rfl⟩ := Option.map_eq_some_iff.1 hs
  have hB := between_step h.between hm
  cases o with
  | send p old time type fl =>
    refine ⟨hB, upheld_of_send hm fun hp => ?_, ?_⟩
    · exact h.tallied.addSentPacket hp hw time fl
        (addSentPacket_spec h.between.1.sound hp old type time fl).2.1
    · show s.packetsRetransmitted + _ = List.length (if _ then _ else _)
      rw [h.written_eq]
      split_ifs
      · rw [List.length_append, List.length_singleton]
      · rfl
  | _ =>
    refine ⟨hB, (maintained_tallied _).step h.between h.tallied hm ?_, h.written_eq⟩
    intro p old time type fl he
    cases he

/-- **No retransmission is counted as spurious twice**, so there are never more spurious
retransmissions than retransmissions written. -/
theorem always_spurious_once (R : RttStats ρ) (r : ρ) (lossType : LossDetectionType)
    (options : Options) (ops : List Op) (hops : ∀ o ∈ ops, o.Written) :
    Always (Connection.step R) SpuriousOnce (.new (.new r lossType options)) ops := by
  have h : Always (Connection.step R) Consistent (.new (.new r lossType options)) ops :=
    always_of_eachStep (C := fun _ o => o.Written) (fun _ _ _ h ho hs => h.step ho hs)
      (consistent_new r lossType options) (eachStep_of_forall hops)
  exact h.mono fun _ => Consistent.spuriousOnce

/-- A packet is sent three times; first the original is acked, then the others, and the
acks are repeated.  Two retransmissions were spurious, and two are counted. -/
theorem spurious_once_of_repeated_acks :
    let R : RttStats Unit := ⟨fun r _ _ _ => r, id, fun _ => 0, fun _ => 0, fun _ => 0⟩
    let packet (n : ℕ) (save : Bool) : SerializedPacket :=
      (⟨n, 1, 1000, [], false, 0, .initial, 0⟩ : SerializedPacket).withFrames save
        [.retransmittable (.stream 5)]
    let ops : List Op :=
      [.send (packet 1 true) 0 10 .notRetransmission true, .retransmissionTimeout 20,
        .send (packet 2 false) 1 30 .rtoRetransmission true, .retransmissionTimeout 40,
        .send (packet 3 false) 2 50 .rtoRetransmission true, .ack ⟨1, 0, [1]⟩ 60 60,
        .ack ⟨3, 0, [1, 3]⟩ 70 70, .ack ⟨3, 0, [1, 2, 3]⟩ 80 80]
    Always (Connection.step R) SpuriousOnce
        (.new (.new () .nack ⟨false, false, 2, true, false, false⟩)) ops ∧
      (run (Connection.step R) (.new (.new () .nack ⟨false, false, 2, true, false, false⟩)) ops).map
        (fun c => (c.manager.spurious, c.retransmitted)) = some ([2, 3], [2, 3]) := by
  refine ⟨always_spurious_once _ _ _ _ _ fun o ho => ?_, by decide⟩
  simp only [List.mem_cons, List.not_mem_nil, or_false] at ho
  rcases ho with rfl | rfl | rfl | rfl | rfl | rfl | rfl | rfl
  · exact .flush _ _
  · trivial
  · exact .reserialize _ _ (by decide) (by decide)
  · trivial
  · exact .reserialize _ _ (by decide) (by decide)
  · trivial
  · trivial
  · trivial

end Packets
end QuicNs3
