/-
# The count of crypto packets

`pending_crypto_packet_count_` goes up where a new crypto packet is sent and down where
the frames of one are cleared.  The flag it counts is set at the first, moves from a
packet to its retransmission, and is taken away at the second.  `Crypto` says that the
two agree.

A crypto packet has frames, so it is not dropped as obsolete.  A retransmission whose
original has been dropped is sent with the flag that its own packet carries, and no
crypto packet is counted for it: what keeps the count exact there is that the creator
does not set the flag of a retransmission (`Serialized.crypto`).
-/

import QuicNs3.Packets.Keeping
import QuicNs3.Packets.Writing

namespace QuicNs3
namespace Packets

open Lib

/-- What a packet counts for. -/
def cryptoWeight (i : TransmissionInfo) : ℕ := if i.hasCryptoHandshake then 1 else 0

/-- A crypto packet has frames to retransmit. -/
def Framed (m : UnackedPacketMap) : Prop :=
  ∀ n i, m.packets.get? n = some i → i.hasCryptoHandshake = true → i.retransmittableFrames ≠ []

/-- The invariant: the count is that of the flags, and was not taken below zero. -/
structure Crypto (m : UnackedPacketMap) : Prop where
  count_eq : m.pendingCryptoPacketCount = m.packets.total cryptoWeight
  framed : Framed m
  not_underflow : m.cryptoUnderflow = false

variable {ρ : Type} {m m' : UnackedPacketMap} {n : ℕ} {i : TransmissionInfo}
  {f : TransmissionInfo → TransmissionInfo}

/-! ## Where packets are not sent -/

theorem Framed.modify (h : Framed m) (hi : m.packets.get? n = some i)
    (hf : (f i).hasCryptoHandshake = true → (f i).retransmittableFrames ≠ []) :
    Framed (m.modify n f) := by
  intro j a ha
  change (m.packets.modify n f).get? j = some a at ha
  rw [Window.get?_modify] at ha
  split_ifs at ha
  · rw [hi] at ha
    exact Option.some.inj ha ▸ hf
  · exact h j a ha

/-- **A crypto packet is not dropped.** -/
theorem total_removeObsoletePackets (h : Framed m) :
    m.removeObsoletePackets.packets.total cryptoWeight = m.packets.total cryptoWeight := by
  refine Window.total_dropWhile fun j a ha hu => ?_
  obtain ⟨k, hk⟩ := Window.exists_get?_of_mem (w := m.packets) ha
  by_contra hw
  have hc : a.hasCryptoHandshake = true := by
    by_contra hc
    exact hw (if_neg hc)
  rw [not_useless_of_frames (h k a hk hc)] at hu
  exact Bool.false_ne_true hu

theorem Framed.removeObsoletePackets (h : Framed m) : Framed m.removeObsoletePackets :=
  fun j a ha => h j a (get?_of_removeObsoletePackets ha)

/-- A change that leaves the flag of a packet as it is. -/
theorem Crypto.modify (h : Crypto m) (hi : m.packets.get? n = some i)
    (hc : (f i).hasCryptoHandshake = i.hasCryptoHandshake)
    (hf : (f i).hasCryptoHandshake = true → (f i).retransmittableFrames ≠ []) :
    Crypto (m.modify n f) := by
  refine ⟨?_, h.framed.modify hi hf, h.not_underflow⟩
  have ht : (m.packets.modify n f).total cryptoWeight + cryptoWeight i =
      m.packets.total cryptoWeight + cryptoWeight (f i) := Window.total_modify hi
  have hw : cryptoWeight (f i) = cryptoWeight i := by rw [cryptoWeight, cryptoWeight, hc]
  have hcount := h.count_eq
  show m.pendingCryptoPacketCount = (m.packets.modify n f).total cryptoWeight
  omega

theorem Crypto.alike (h : Crypto m) (ha : Alike m m') : Crypto m' where
  count_eq := by
    have htotal : ∀ w : Window TransmissionInfo, w.total cryptoWeight =
        (w.map content).total fun x => if x.2.1 then 1 else 0 :=
      fun w => (Window.total_map (g := content) (ν := fun x => if x.2.1 then 1 else 0)).symm
    rw [ha.count_eq, h.count_eq, htotal, htotal, ha.packets_eq]
  framed := by
    intro n i' hi' hc
    obtain ⟨i, hi, he⟩ := ha.exists_get? hi'
    obtain ⟨hfr, he⟩ := Prod.ext_iff.1 he
    obtain ⟨hcrypto, -⟩ := Prod.ext_iff.1 he
    exact fun hnil => h.framed n i hi (hcrypto.symm.trans hc) (hfr.symm.trans hnil)
  not_underflow := ha.underflow_eq.trans h.not_underflow

/-- **Clearing the frames of a packet** takes one off the count if it is a crypto packet,
and then there is one to take off. -/
theorem Crypto.clearFrames (h : Crypto m) (hi : m.packets.get? n = some i) :
    Crypto (m.clearFrames n i) := by
  have ht : (m.packets.modify n fun i =>
      { i with retransmittableFrames := [], hasCryptoHandshake := false }).total cryptoWeight +
        cryptoWeight i = m.packets.total cryptoWeight + 0 := Window.total_modify hi
  have hle : cryptoWeight i ≤ m.packets.total cryptoWeight := Window.le_total hi
  have hcount := h.count_eq
  refine ⟨?_, h.framed.modify hi fun hc => absurd hc Bool.false_ne_true, ?_⟩
  all_goals
    by_cases hc : i.hasCryptoHandshake = true
  · have hw : cryptoWeight i = 1 := if_pos hc
    show (if i.hasCryptoHandshake then _ else _) = (m.packets.modify n _).total cryptoWeight
    rw [if_pos hc, if_neg (by omega)]
    omega
  · have hw : cryptoWeight i = 0 := if_neg hc
    show (if i.hasCryptoHandshake then _ else _) = (m.packets.modify n _).total cryptoWeight
    rw [if_neg hc]
    omega
  · have hw : cryptoWeight i = 1 := if_pos hc
    show (m.cryptoUnderflow || (i.hasCryptoHandshake && _)) = false
    rw [h.not_underflow, hc]
    exact decide_eq_false (by omega)
  · show (m.cryptoUnderflow || (i.hasCryptoHandshake && _)) = false
    rw [h.not_underflow, Bool.eq_false_iff.2 hc]
    rfl

theorem maintained_crypto : Maintained fun m _ _ => Crypto m where
  alike := fun h ha => h.alike ha
  obsolete := fun {m} _ _ h =>
    ⟨h.count_eq.trans (total_removeObsoletePackets h.framed).symm,
      h.framed.removeObsoletePackets, h.not_underflow⟩
  cut := by
    intro m _ _ n i _ hi _ h
    exact h.modify hi rfl (h.framed n i hi)
  clear := fun _ hi _ h => h.clearFrames hi
  shrink := fun hi _ hne h => h.modify hi rfl fun _ => hne

/-! ## Sending -/

theorem Crypto.fillGap (h : Crypto m) (n : ℕ) : Crypto (m.fillGap n) where
  count_eq := by
    refine h.count_eq.trans ?_
    show _ = (m.packets.append _).total cryptoWeight
    rw [Window.total_append]
    simp [cryptoWeight, TransmissionInfo.gap]
  framed := by
    intro j a ha
    change (m.packets.append _).get? j = some a at ha
    rw [Window.get?_append] at ha
    split_ifs at ha
    · exact h.framed j a ha
    · obtain rfl := List.eq_of_mem_replicate (List.mem_of_getElem? ha)
      exact fun hc => absurd hc Bool.false_ne_true
  not_underflow := h.not_underflow

/-- The new entry counts for its flag. -/
theorem Framed.pushSent (h : Framed m) (n : ℕ) (fl : Bool)
    (hi : i.hasCryptoHandshake = true → i.retransmittableFrames ≠ []) :
    Framed (m.pushSent n i fl) ∧ (m.pushSent n i fl).packets.total cryptoWeight =
      m.packets.total cryptoWeight + cryptoWeight i := by
  constructor
  · intro j a ha
    rcases get?_pushSent ha with ha | ⟨-, rfl⟩
    · exact h j a ha
    · exact hi
  · show (m.packets.append [{ i with inFlight := fl }]).total cryptoWeight = _
    rw [Window.total_append]
    simp [cryptoWeight]

/-- **The flag moves with the frames** from a packet to its retransmission. -/
theorem transferRetransmissionInfo_crypto (h : Crypto m) (old new : ℕ) (type : TransmissionType)
    (hi : i.hasCryptoHandshake = false) :
    let r := m.transferRetransmissionInfo old new type i
    Framed r.1 ∧ (r.2.hasCryptoHandshake = true → r.2.retransmittableFrames ≠ []) ∧
      r.1.packets.total cryptoWeight + cryptoWeight r.2 = m.packets.total cryptoWeight ∧
      r.1.pendingCryptoPacketCount = m.pendingCryptoPacketCount ∧
      r.1.cryptoUnderflow = m.cryptoUnderflow := by
  have hw : cryptoWeight i = 0 := if_neg (by simp [hi])
  have hno : i.hasCryptoHandshake = true → i.retransmittableFrames ≠ [] :=
    fun hc => absurd (hi.symm.trans hc) Bool.false_ne_true
  unfold UnackedPacketMap.transferRetransmissionInfo
  split_ifs
  · exact ⟨h.framed, hno, by rw [hw]; rfl, rfl, rfl⟩
  · exact ⟨h.framed, hno, by rw [hw]; rfl, rfl, rfl⟩
  · cases ha : m.packets.get? old with
    | none => exact ⟨h.framed, hno, by rw [hw]; rfl, rfl, rfl⟩
    | some a =>
      have hframed : Framed (m.modify old (UnackedPacketMap.transferred new type)) :=
        h.framed.modify ha fun hc => absurd hc Bool.false_ne_true
      refine ⟨hframed.removeObsoletePackets, h.framed old a ha, ?_, rfl, rfl⟩
      have ht : (m.packets.modify old (UnackedPacketMap.transferred new type)).total cryptoWeight +
          cryptoWeight a = m.packets.total cryptoWeight + 0 := Window.total_modify ha
      dsimp only
      rw [total_removeObsoletePackets hframed]
      exact ht

/-- **Sending a packet that the creator made** keeps the count. -/
theorem Crypto.addSentPacket (h : Crypto m) {p : SerializedPacket} {old : ℕ}
    {type : TransmissionType} (hp : Serialized p old type) (time : ℤ) (fl : Bool) :
    Crypto (m.addSentPacket p old type time fl) := by
  have hgap := h.fillGap p.packetNumber
  unfold UnackedPacketMap.addSentPacket
  dsimp only
  rcases Nat.eq_zero_or_pos old with h0 | h0
  · rw [if_pos h0]
    obtain ⟨hframed, htotal⟩ := hgap.framed.pushSent (i := { UnackedPacketMap.sentInfo p type time
      with retransmittableFrames := p.retransmittableFrames }) p.packetNumber fl
      fun hc => (hp.crypto hc).2
    refine ⟨?_, hframed, hgap.not_underflow⟩
    refine (congrArg (· + _) hgap.count_eq).trans (htotal.trans ?_).symm
    rfl
  · rw [if_neg h0.ne']
    have hno : (UnackedPacketMap.sentInfo p type time).hasCryptoHandshake = false := by
      by_contra hc
      exact h0.ne' (hp.crypto (Bool.not_eq_false _ ▸ hc)).1
    obtain ⟨hframed, hi, htotal, hcount, hunder⟩ :=
      transferRetransmissionInfo_crypto hgap old p.packetNumber type hno
    obtain ⟨hframed', htotal'⟩ := hframed.pushSent p.packetNumber fl hi
    exact ⟨(hcount.trans hgap.count_eq).trans (htotal'.trans htotal).symm, hframed',
      hunder.trans hgap.not_underflow⟩

/-! ## Runs -/

/-- The count is exact: it is the number of tracked crypto packets, and no decrement has
taken it below zero. -/
structure CryptoCounted (m : UnackedPacketMap) : Prop where
  count_eq : m.pendingCryptoPacketCount = m.packets.items.countP TransmissionInfo.hasCryptoHandshake
  not_underflow : m.cryptoUnderflow = false

/-- The weight of the deque, as a number of packets. -/
theorem total_cryptoWeight (w : Window TransmissionInfo) :
    w.total cryptoWeight = w.items.countP TransmissionInfo.hasCryptoHandshake := by
  unfold Window.total
  induction w.items with
  | nil => rfl
  | cons i l ih =>
    cases h : i.hasCryptoHandshake <;> simp [cryptoWeight, h, ih, Nat.add_comm]

/-- **The count of crypto packets is exact**, in every state of every run of the manager in
which the packets are made by the creator: new ones, and retransmissions of any packets,
tracked or dropped long ago. -/
theorem always_crypto_counted (R : RttStats ρ) (r : ρ) (lossType : LossDetectionType)
    (options : Options) (ops : List Op) (hops : ∀ o ∈ ops, o.Written) :
    Always (SentPacketManager.step R) (fun s => CryptoCounted s.unackedPackets)
      (SentPacketManager.new r lossType options) ops := by
  have h : Always (SentPacketManager.step R) (fun s => Between s ∧ Crypto s.unackedPackets)
      (.new r lossType options) ops := by
    refine always_of_eachStep (C := fun _ o => o.Written) (fun s o t hs ho ht => ?_)
      ⟨between_new r lossType options, ?_⟩ (eachStep_of_forall hops)
    · refine ⟨between_step hs.1 ht, maintained_crypto.step hs.1 hs.2 ht ?_⟩
      rintro p old time type fl rfl -
      exact hs.2.addSentPacket ho time fl
    · refine ⟨rfl, fun n i hi => ?_, rfl⟩
      simp [SentPacketManager.new, UnackedPacketMap.new, Window.get?] at hi
  exact h.mono fun s hs => ⟨hs.2.count_eq.trans (total_cryptoWeight _), hs.2.not_underflow⟩

/-- A crypto packet is sent, marked for retransmission by the alarm and acked before its
retransmission is written; the retransmission then goes out, and is acked too. -/
theorem crypto_counted_of_late_retransmission :
    Always (SentPacketManager.step
        (⟨fun r _ _ _ => r, id, fun _ => 0, fun _ => 0, fun _ => 0⟩ : RttStats Unit))
      (fun s => CryptoCounted s.unackedPackets)
      (.new () .nack ⟨false, false, 2, true, false, false⟩)
      [.send ((⟨1, 1, 1000, [], false, 0, .initial, 0⟩ : SerializedPacket).withFrames true
          [.retransmittable (.stream kCryptoStreamId)]) 0 10 .notRetransmission true,
        .retransmissionTimeout 20, .ack ⟨1, 0, [1]⟩ 30 30,
        .send ((⟨2, 1, 1000, [], false, 0, .initial, 0⟩ : SerializedPacket).withFrames false
          [.retransmittable (.stream kCryptoStreamId)]) 1 40 .handshakeRetransmission true,
        .ack ⟨2, 0, [1, 2]⟩ 50 50] := by
  refine always_crypto_counted _ _ _ _ _ fun o ho => ?_
  simp only [List.mem_cons, List.not_mem_nil, or_false] at ho
  rcases ho with rfl | rfl | rfl | rfl | rfl
  · exact .flush _ _
  · trivial
  · trivial
  · exact .reserialize _ _ (by decide) (by decide)
  · trivial

end Packets
end QuicNs3
