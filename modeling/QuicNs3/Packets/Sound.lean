/-
# What every operation of the map keeps

`Sound` is the invariant of the map of unacknowledged packets: the counter
`bytes_in_flight_` is the weight of the packets in flight, a retransmission is a
later packet that is still tracked, and nothing undefined has happened.

An operation that neither adds nor removes packets is also compared with the map
before it: `Eases keep m m'` says that the same packets are tracked, that none of
them is put in flight, and that the frames of those in `keep` are still there.
That is what a queued retransmission needs (`Queued`).
-/

import QuicNs3.Packets.Manager

namespace QuicNs3
namespace Packets

open Lib

/-- The bytes a packet counts for. -/
def inFlightBytes (i : TransmissionInfo) : ℕ := if i.inFlight then i.bytesSent else 0

/-- A packet is linked at most to a later one, up to `b`, and then has given away
its frames. -/
def Linked (b n : ℕ) (i : TransmissionInfo) : Prop :=
  i.retransmission ≠ 0 → n < i.retransmission ∧ i.retransmission ≤ b ∧
    i.retransmittableFrames = []

/-- The invariant of the map, also in the middle of `AddSentPacket`, where packets
may be linked to a packet `b` that is not in the deque yet. -/
structure Kept (b : ℕ) (m : UnackedPacketMap) : Prop where
  bytes_eq : m.bytesInFlight = m.packets.total inFlightBytes
  linked : ∀ n i, m.packets.get? n = some i → Linked b n i
  not_strayed : m.strayed = false
  not_underflow : m.underflow = false
  popped_idle : ∀ i ∈ m.popped, i.inFlight = false

/-- The invariant of the map. -/
structure Sound (m : UnackedPacketMap) : Prop extends Kept m.largestSentPacket m where
  next_eq : m.packets.next = m.largestSentPacket + 1

/-- The same packets are tracked, none of them is put in flight, and those in
`keep` have the frames they had. -/
structure Eases (keep : ℕ → Prop) (m m' : UnackedPacketMap) : Prop where
  base_eq : m'.packets.base = m.packets.base
  next_eq : m'.packets.next = m.packets.next
  largestSent_eq : m'.largestSentPacket = m.largestSentPacket
  largestObserved_eq : m'.largestObserved = m.largestObserved
  get? : ∀ n i, m.packets.get? n = some i → ∃ i', m'.packets.get? n = some i' ∧
    (i'.inFlight = true → i.inFlight = true) ∧
    (keep n → i'.retransmittableFrames = i.retransmittableFrames)

/-- An entry of `pending_retransmissions_` refers to a tracked packet that has
frames, and that is not in flight if it was queued as lost. -/
def Queued (m : UnackedPacketMap) (p : ℕ × TransmissionType) : Prop :=
  ∃ i, m.packets.get? p.1 = some i ∧ i.retransmittableFrames ≠ [] ∧
    (p.2 = .lossRetransmission → i.inFlight = false)

variable {m m' m'' : UnackedPacketMap} {n k : ℕ} {i : TransmissionInfo}
  {f : TransmissionInfo → TransmissionInfo} {keep keep' : ℕ → Prop}

theorem Eases.refl (keep : ℕ → Prop) (m : UnackedPacketMap) : Eases keep m m :=
  ⟨rfl, rfl, rfl, rfl, fun _ i h => ⟨i, h, id, fun _ => rfl⟩⟩

theorem Eases.trans (h : Eases keep m m') (h' : Eases keep m' m'') : Eases keep m m'' := by
  refine ⟨h'.base_eq.trans h.base_eq, h'.next_eq.trans h.next_eq,
    h'.largestSent_eq.trans h.largestSent_eq, h'.largestObserved_eq.trans h.largestObserved_eq, ?_⟩
  intro n i hi
  obtain ⟨i', hi', hfl, hfr⟩ := h.get? n i hi
  obtain ⟨i'', hi'', hfl', hfr'⟩ := h'.get? n i' hi'
  exact ⟨i'', hi'', hfl ∘ hfl', fun hk => (hfr' hk).trans (hfr hk)⟩

theorem Eases.mono (h : Eases keep m m') (hk : ∀ n, keep' n → keep n) : Eases keep' m m' := by
  refine ⟨h.base_eq, h.next_eq, h.largestSent_eq, h.largestObserved_eq, ?_⟩
  intro n i hi
  obtain ⟨i', hi', hfl, hfr⟩ := h.get? n i hi
  exact ⟨i', hi', hfl, fun hn => hfr (hk n hn)⟩

theorem Eases.tracked (h : Eases keep m m') (hn : (m.packets.get? n).isSome) :
    (m'.packets.get? n).isSome := by
  obtain ⟨i, hi⟩ := Option.isSome_iff_exists.1 hn
  obtain ⟨i', hi', -⟩ := h.get? n i hi
  exact Option.isSome_iff_exists.2 ⟨i', hi'⟩

/-- A queued retransmission stays one where its frames are kept. -/
theorem Queued.eases {p : ℕ × TransmissionType} (hp : Queued m p) (h : Eases keep m m')
    (hk : keep p.1) : Queued m' p := by
  obtain ⟨i, hi, hne, hfl⟩ := hp
  obtain ⟨i', hi', hfl', hfr⟩ := h.get? p.1 i hi
  refine ⟨i', hi', hfr hk ▸ hne, fun hloss => ?_⟩
  cases h' : i'.inFlight with
  | false => rfl
  | true => exact absurd ((hfl hloss).symm.trans (hfl' h')) Bool.false_ne_true

/-- A change of one packet, for a function that does not put it in flight. -/
theorem eases_of_modify (hi : m.packets.get? n = some i) (hp : m'.packets = m.packets.modify n f)
    (hs : m'.largestSentPacket = m.largestSentPacket)
    (ho : m'.largestObserved = m.largestObserved)
    (hfl : (f i).inFlight = true → i.inFlight = true)
    (hfr : keep n → (f i).retransmittableFrames = i.retransmittableFrames) :
    Eases keep m m' := by
  refine ⟨by rw [hp, Window.base_modify], by rw [hp, Window.next_modify], hs, ho,
    fun j a ha => ?_⟩
  rw [hp]
  by_cases hj : j = n
  · subst hj
    obtain rfl := Option.some.inj (hi.symm.trans ha)
    exact ⟨f i, Window.get?_modify_self hi, hfl, hfr⟩
  · exact ⟨a, (Window.get?_modify_of_ne hj).trans ha, id, fun _ => rfl⟩

/-- The invariant after a change of one packet, with the counter adjusted. -/
theorem Kept.change {b : ℕ} (h : Kept b m) (hi : m.packets.get? n = some i) (bytes : ℕ)
    (hb : bytes + inFlightBytes i = m.bytesInFlight + inFlightBytes (f i))
    (hl : Linked b n (f i)) : Kept b { m.modify n f with bytesInFlight := bytes } where
  bytes_eq := by
    have ht : (m.packets.modify n f).total inFlightBytes + inFlightBytes i =
        m.packets.total inFlightBytes + inFlightBytes (f i) := Window.total_modify hi
    have hm := h.bytes_eq
    show bytes = (m.packets.modify n f).total inFlightBytes
    omega
  linked := by
    intro j a ha
    change (m.packets.modify n f).get? j = some a at ha
    rw [Window.get?_modify] at ha
    split_ifs at ha with hj
    · subst hj
      rw [hi] at ha
      obtain rfl : f i = a := Option.some.inj ha
      exact hl
    · exact h.linked j a ha
  not_strayed := h.not_strayed
  not_underflow := h.not_underflow
  popped_idle := h.popped_idle

/-- A change that leaves the weight of the packet as it is. -/
theorem Sound.modify (h : Sound m) (hi : m.packets.get? n = some i)
    (hb : inFlightBytes (f i) = inFlightBytes i) (hl : Linked m.largestSentPacket n (f i)) :
    Sound (m.modify n f) :=
  ⟨h.change hi m.bytesInFlight (by rw [hb]) hl, Window.next_modify.trans h.next_eq⟩

theorem Sound.tracked_iff (h : Sound m) :
    (m.packets.get? n).isSome ↔ m.packets.base ≤ n ∧ n ≤ m.largestSentPacket := by
  rw [Window.get?_isSome_iff, h.next_eq, Nat.lt_succ_iff]

/-! ## In flight and not -/

/-- **Taking a packet out of flight.** -/
theorem removeFromInFlight_spec (h : Sound m) (hn : (m.packets.get? n).isSome) :
    Sound (m.removeFromInFlight n) ∧ Eases (fun _ => True) m (m.removeFromInFlight n) := by
  obtain ⟨i, hi⟩ := Option.isSome_iff_exists.1 hn
  unfold UnackedPacketMap.removeFromInFlight
  rw [hi]
  dsimp only
  split_ifs with hfl
  · have hw : inFlightBytes i = i.bytesSent := if_pos hfl
    have hle : i.bytesSent ≤ m.bytesInFlight := by
      rw [h.bytes_eq, ← hw]
      exact Window.le_total hi
    have hK := h.change (f := fun i => { i with inFlight := false }) hi
      (m.bytesInFlight - i.bytesSent) (by rw [hw]; simp [inFlightBytes]; omega) (h.linked n i hi)
    refine ⟨⟨⟨hK.bytes_eq, hK.linked, hK.not_strayed, ?_, hK.popped_idle⟩,
      Window.next_modify.trans h.next_eq⟩, eases_of_modify hi rfl rfl rfl
      (fun h => absurd h Bool.false_ne_true) fun _ => rfl⟩
    show (m.underflow || decide (m.bytesInFlight < i.bytesSent)) = false
    rw [h.not_underflow, decide_eq_false (Nat.not_lt.2 hle)]
    rfl
  · exact ⟨h, Eases.refl _ m⟩

/-- The links between packets do not change with it. -/
theorem retransmission_removeFromInFlight (m : UnackedPacketMap) (n j : ℕ) :
    ((m.removeFromInFlight n).packets.get? j).map TransmissionInfo.retransmission =
      (m.packets.get? j).map TransmissionInfo.retransmission := by
  unfold UnackedPacketMap.removeFromInFlight
  split
  · rfl
  · rename_i i hi
    split_ifs
    · show ((m.packets.modify n _).get? j).map _ = _
      rw [Window.get?_modify]
      split_ifs with hj
      · subst hj
        simp [hi]
      · rfl
    · rfl

/-- **Putting a packet back in flight**, which must not be in flight. -/
theorem restoreToInFlight_spec (h : Sound m) (hi : m.packets.get? n = some i)
    (hfl : i.inFlight = false) :
    Sound (m.restoreToInFlight n) ∧
      (m.restoreToInFlight n).largestSentPacket = m.largestSentPacket ∧
      ∀ j, j ≠ n → (m.restoreToInFlight n).packets.get? j = m.packets.get? j := by
  unfold UnackedPacketMap.restoreToInFlight
  rw [hi]
  refine ⟨⟨h.change hi _ ?_ (h.linked n i hi), Window.next_modify.trans h.next_eq⟩, rfl,
    fun j hj => Window.get?_modify_of_ne hj⟩
  simp [inFlightBytes, hfl]

/-! ## Walks along retransmissions -/

open SentPacketManager (newestFrom)

/-- A walk from `n` only reads the links from `n` on. -/
theorem newestFrom_congr (h : Sound m) (fuel : ℕ)
    (hm : ∀ j, n ≤ j → (m'.packets.get? j).map TransmissionInfo.retransmission =
      (m.packets.get? j).map TransmissionInfo.retransmission) :
    newestFrom m' fuel n = newestFrom m fuel n := by
  induction fuel generalizing n with
  | zero => rfl
  | succ fuel ih =>
    unfold newestFrom
    have hn := hm n (Nat.le_refl n)
    cases hi : m.packets.get? n with
    | none =>
      rw [hi, Option.map_none, Option.map_eq_none_iff] at hn
      rw [hn]
    | some i =>
      rw [hi, Option.map_some, Option.map_eq_some_iff] at hn
      obtain ⟨i', hi', hr⟩ := hn
      rw [hi']
      dsimp only
      rw [hr]
      split_ifs with h0
      · exact ih fun j hj => hm j (Nat.le_trans (h.linked n i hi h0).1.le hj)
      · rfl

/-- **A walk ends**, at a tracked packet that has not been retransmitted. -/
theorem exists_newestFrom (h : Sound m) (hn : (m.packets.get? n).isSome) {fuel : ℕ}
    (hf : m.packets.next ≤ n + fuel) :
    ∃ k i, newestFrom m fuel n = some k ∧ m.packets.get? k = some i ∧ i.retransmission = 0 := by
  induction fuel generalizing n with
  | zero => exact absurd (Window.get?_isSome_iff.1 hn).2 (by omega)
  | succ fuel ih =>
    obtain ⟨i, hi⟩ := Option.isSome_iff_exists.1 hn
    unfold newestFrom
    rw [hi]
    dsimp only
    split_ifs with h0
    · obtain ⟨hlt, hle, -⟩ := h.linked n i hi h0
      refine ih (h.tracked_iff.2 ⟨?_, hle⟩) (by omega)
      exact Nat.le_trans (Window.base_le_of_get? hi) hlt.le
    · exact ⟨n, i, rfl, hi, not_not.1 h0⟩

/-- The invariant without the frames of one packet. -/
theorem clearFrames_spec (h : Sound m) (hi : m.packets.get? n = some i)
    (h0 : i.retransmission = 0) :
    Sound (m.clearFrames n i) ∧ Eases (fun j => j ≠ n) m (m.clearFrames n i) := by
  have hS := h.modify
    (f := fun i => { i with retransmittableFrames := [], hasCryptoHandshake := false }) hi rfl
    fun h => absurd h0 h
  exact ⟨⟨⟨hS.bytes_eq, hS.linked, hS.not_strayed, hS.not_underflow, hS.popped_idle⟩, hS.next_eq⟩,
    eases_of_modify hi rfl rfl rfl id fun h => absurd rfl h⟩

/-- **Removing retransmittability** clears the frames at the end of the walk, and
no others. -/
theorem removeRetransmittabilityFrom_spec (h : Sound m) (hn : (m.packets.get? n).isSome)
    {fuel : ℕ} (hf : m.packets.next ≤ n + fuel) (hk : newestFrom m fuel n = some k) :
    Sound (UnackedPacketMap.removeRetransmittabilityFrom fuel m n) ∧
      Eases (fun j => j ≠ k) m (UnackedPacketMap.removeRetransmittabilityFrom fuel m n) := by
  induction fuel generalizing m n with
  | zero => exact absurd (Window.get?_isSome_iff.1 hn).2 (by omega)
  | succ fuel ih =>
    obtain ⟨i, hi⟩ := Option.isSome_iff_exists.1 hn
    unfold newestFrom at hk
    unfold UnackedPacketMap.removeRetransmittabilityFrom
    rw [hi] at hk ⊢
    dsimp only at hk ⊢
    split_ifs at hk ⊢ with h0
    · obtain ⟨hlt, hle, -⟩ := h.linked n i hi h0
      have hb := Window.base_le_of_get? hi
      set m₁ := m.modify n fun i => { i with retransmission := 0 } with hm₁
      have hS : Sound m₁ := h.modify hi rfl fun h => absurd rfl h
      have hE : Eases (fun j => j ≠ k) m m₁ := eases_of_modify hi rfl rfl rfl id fun _ => rfl
      have hk₁ : newestFrom m₁ fuel i.retransmission = some k := by
        rw [← hk]
        refine newestFrom_congr h fuel fun j hj => ?_
        rw [show m₁.packets.get? j = m.packets.get? j from
          Window.get?_modify_of_ne (by omega : j ≠ n)]
      have hnext : m₁.packets.next ≤ i.retransmission + fuel := by
        rw [hE.next_eq]
        omega
      obtain ⟨hS', hE'⟩ := ih hS (hE.tracked (h.tracked_iff.2 ⟨by omega, hle⟩)) hnext hk₁
      exact ⟨hS', hE.trans hE'⟩
    · obtain rfl : n = k := Option.some.inj hk
      exact clearFrames_spec h hi (not_not.1 h0)

/-- The number of packets is fuel enough for every walk. -/
theorem next_le_fuel (hn : (m.packets.get? n).isSome) :
    m.packets.next ≤ n + (m.packets.items.length + 1) := by
  have hb := (Window.get?_isSome_iff.1 hn).1
  unfold Window.next
  omega

theorem removeRetransmittability_spec (h : Sound m) (hn : (m.packets.get? n).isSome)
    (hk : newestFrom m (m.packets.items.length + 1) n = some k) :
    Sound (m.removeRetransmittability n) ∧
      Eases (fun j => j ≠ k) m (m.removeRetransmittability n) :=
  removeRetransmittabilityFrom_spec h hn (next_le_fuel hn) hk

/-- A packet that has frames is the newest transmission of them. -/
theorem newestFrom_of_frames (h : Sound m) (hi : m.packets.get? n = some i)
    (hne : i.retransmittableFrames ≠ []) (fuel : ℕ) : newestFrom m (fuel + 1) n = some n := by
  have h0 : i.retransmission = 0 := by
    by_contra h0
    exact hne (h.linked n i hi h0).2.2
  simp [newestFrom, hi, h0]

end Packets
end QuicNs3
