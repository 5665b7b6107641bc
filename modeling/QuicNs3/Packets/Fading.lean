/-
# What a tracked packet can lose

While a packet is tracked, its size, its send time and its encryption level stay
as they were, and frames it has given away do not come back (`Fades`).  Except
where a packet is sent again or a loss is undone, it is not put in flight either,
and its link to a retransmission is kept or cut (`Lands`).

`Carries r m m'` says that every packet tracked in `m'` is one of `m` that has
changed by `r`, and `Quiet` that an operation of the manager did no more than that
and noted nothing for the congestion controller.  Unlike `Eases`, neither needs the
invariant: they are about the packets one by one.
-/

import QuicNs3.Packets.InFlight

namespace QuicNs3
namespace Packets

open Lib

/-- What is fixed when a packet is sent, and what it does not get back. -/
structure Fades (i i' : TransmissionInfo) : Prop where
  bytesSent_eq : i'.bytesSent = i.bytesSent
  sentTime_eq : i'.sentTime = i.sentTime
  encryptionLevel_eq : i'.encryptionLevel = i.encryptionLevel
  frames : i.retransmittableFrames = [] → i'.retransmittableFrames = []

/-- A packet that is not put in flight, and not linked anew. -/
structure Lands (i i' : TransmissionInfo) : Prop extends Fades i i' where
  inFlight : i'.inFlight = true → i.inFlight = true
  retransmission : i'.retransmission = i.retransmission ∨ i'.retransmission = 0

/-- What is tracked in `m'` was tracked in `m` and has changed by `r`. -/
structure Carries (r : TransmissionInfo → TransmissionInfo → Prop) (m m' : UnackedPacketMap) :
    Prop where
  largestSent_eq : m'.largestSentPacket = m.largestSentPacket
  get? : ∀ n i', m'.packets.get? n = some i' → ∃ i, m.packets.get? n = some i ∧ r i i'

variable {ρ : Type} {R : RttStats ρ} {s s' s'' : SentPacketManager ρ}
  {m m' m'' : UnackedPacketMap} {n k : ℕ} {i i' i'' : TransmissionInfo}
  {f : TransmissionInfo → TransmissionInfo} {r : TransmissionInfo → TransmissionInfo → Prop}

theorem Fades.refl (i : TransmissionInfo) : Fades i i := ⟨rfl, rfl, rfl, id⟩

theorem Fades.trans (h : Fades i i') (h' : Fades i' i'') : Fades i i'' where
  bytesSent_eq := h'.bytesSent_eq.trans h.bytesSent_eq
  sentTime_eq := h'.sentTime_eq.trans h.sentTime_eq
  encryptionLevel_eq := h'.encryptionLevel_eq.trans h.encryptionLevel_eq
  frames := h'.frames ∘ h.frames

theorem Lands.refl (i : TransmissionInfo) : Lands i i := ⟨Fades.refl i, id, .inl rfl⟩

theorem Lands.trans (h : Lands i i') (h' : Lands i' i'') : Lands i i'' where
  toFades := h.toFades.trans h'.toFades
  inFlight := h.inFlight ∘ h'.inFlight
  retransmission := by
    rcases h'.retransmission with he | he
    · rw [he]
      exact h.retransmission
    · exact .inr he

theorem carries_refl (m : UnackedPacketMap) : Carries Lands m m :=
  ⟨rfl, fun _ i hi => ⟨i, hi, Lands.refl i⟩⟩

theorem Carries.trans (h : Carries Lands m m') (h' : Carries Lands m' m'') :
    Carries Lands m m'' := by
  refine ⟨h'.largestSent_eq.trans h.largestSent_eq, fun n i'' hi'' => ?_⟩
  obtain ⟨i', hi', hl'⟩ := h'.get? n i'' hi''
  obtain ⟨i, hi, hl⟩ := h.get? n i' hi'
  exact ⟨i, hi, hl.trans hl'⟩

/-- A change of one packet by `r`, which all others are related by too. -/
theorem carries_modify (hr : ∀ a, r a a) (hp : m'.packets = m.packets.modify n f)
    (hs : m'.largestSentPacket = m.largestSentPacket)
    (hf : ∀ a, m.packets.get? n = some a → r a (f a)) : Carries r m m' := by
  refine ⟨hs, fun j a' ha' => ?_⟩
  rw [hp, Window.get?_modify] at ha'
  split_ifs at ha' with hj
  · obtain ⟨a, ha, rfl⟩ := Option.map_eq_some_iff.1 ha'
    exact ⟨a, hj ▸ ha, hf a ha⟩
  · exact ⟨a', ha', hr a'⟩

/-! ## The operations of the map -/

theorem removeFromInFlight_carries (m : UnackedPacketMap) (n : ℕ) :
    Carries Lands m (m.removeFromInFlight n) := by
  unfold UnackedPacketMap.removeFromInFlight
  split
  · exact ⟨rfl, fun _ i hi => ⟨i, hi, Lands.refl i⟩⟩
  · split_ifs
    · exact carries_modify Lands.refl rfl rfl fun a _ =>
        ⟨⟨rfl, rfl, rfl, id⟩, fun h => absurd h Bool.false_ne_true, .inl rfl⟩
    · exact carries_refl m

theorem removeRetransmittabilityFrom_carries (fuel : ℕ) (m : UnackedPacketMap) (n : ℕ) :
    Carries Lands m (UnackedPacketMap.removeRetransmittabilityFrom fuel m n) := by
  induction fuel generalizing m n with
  | zero => exact ⟨rfl, fun _ i hi => ⟨i, hi, Lands.refl i⟩⟩
  | succ fuel ih =>
    unfold UnackedPacketMap.removeRetransmittabilityFrom
    split
    · exact ⟨rfl, fun _ i hi => ⟨i, hi, Lands.refl i⟩⟩
    · split_ifs
      · have hcut : Carries Lands m (m.modify n fun i => { i with retransmission := 0 }) :=
          carries_modify Lands.refl rfl rfl fun _ _ => ⟨⟨rfl, rfl, rfl, id⟩, id, .inr rfl⟩
        exact hcut.trans (ih _ _)
      · exact carries_modify Lands.refl rfl rfl fun _ _ =>
          ⟨⟨rfl, rfl, rfl, fun _ => rfl⟩, id, .inl rfl⟩

theorem removeRetransmittability_carries (m : UnackedPacketMap) (n : ℕ) :
    Carries Lands m (m.removeRetransmittability n) :=
  removeRetransmittabilityFrom_carries _ m n

theorem removeObsoletePackets_carries (m : UnackedPacketMap) :
    Carries Lands m m.removeObsoletePackets :=
  ⟨rfl, fun _ i hi => ⟨i, get?_of_removeObsoletePackets hi, Lands.refl i⟩⟩

theorem cancelRetransmissionsAt_carries (streamId : ℕ) (m : UnackedPacketMap) (n : ℕ) :
    Carries Lands m (m.cancelRetransmissionsAt streamId n) := by
  unfold UnackedPacketMap.cancelRetransmissionsAt
  split
  · exact ⟨rfl, fun _ i hi => ⟨i, hi, Lands.refl i⟩⟩
  · have hcut : Carries Lands m (m.modify n fun i => { i with
        retransmittableFrames := removeFramesForStream i.retransmittableFrames streamId }) :=
      carries_modify Lands.refl rfl rfl fun a _ =>
        ⟨⟨rfl, rfl, rfl, fun h => by simp [removeFramesForStream, h]⟩, id, .inl rfl⟩
    split_ifs
    · exact carries_refl m
    · exact hcut.trans (removeRetransmittability_carries _ n)
    · exact hcut

theorem cancelRetransmissionsForStream_carries (m : UnackedPacketMap) (streamId : ℕ) :
    Carries Lands m (m.cancelRetransmissionsForStream streamId) :=
  List.foldlRecOn (motive := Carries Lands m) _ _ (carries_refl m) fun u hu n _ =>
    hu.trans (cancelRetransmissionsAt_carries streamId u n)

/-- Putting a packet back in flight gives it nothing else back. -/
theorem restoreToInFlight_carries (m : UnackedPacketMap) (n : ℕ) :
    Carries Fades m (m.restoreToInFlight n) := by
  unfold UnackedPacketMap.restoreToInFlight
  split
  · exact ⟨rfl, fun _ i hi => ⟨i, hi, Fades.refl i⟩⟩
  · exact carries_modify Fades.refl rfl rfl fun _ _ => ⟨rfl, rfl, rfl, id⟩

theorem get?_restoreToInFlight (m : UnackedPacketMap) (n k : ℕ) :
    (m.restoreToInFlight n).packets.get? k =
      if k = n then (m.packets.get? n).map fun i => { i with inFlight := true }
      else m.packets.get? k := by
  unfold UnackedPacketMap.restoreToInFlight
  split
  · rename_i hi
    split_ifs with hk
    · rw [hk, hi]
      exact hi
    · rfl
  · exact Window.get?_modify

/-! ## Sending -/

/-- What is tracked after a packet is sent: an older packet, as much in flight as
before; a number that was never sent; or the new packet. -/
inductive SentEntry (m : UnackedPacketMap) (p : SerializedPacket) (time : ℤ) (n : ℕ)
    (i' : TransmissionInfo) : Prop
  | old (i : TransmissionInfo) (hi : m.packets.get? n = some i) (hf : Fades i i')
      (hfl : i'.inFlight = i.inFlight)
  | gap (hn : m.packets.get? n = none) (hf : Fades .gap i') (hfl : i'.inFlight = false)
  | new (hn : n = p.packetNumber) (hbytes : i'.bytesSent = p.encryptedLength)
      (htime : i'.sentTime = time)

theorem get?_fillGap {p : SerializedPacket} (time : ℤ)
    (hi : (m.fillGap p.packetNumber).packets.get? n = some i') : SentEntry m p time n i' := by
  change (m.packets.append _).get? n = some i' at hi
  rw [Window.get?_append] at hi
  split_ifs at hi with hn
  · exact .old i' hi (Fades.refl i') rfl
  · obtain rfl := List.eq_of_mem_replicate (List.mem_of_getElem? hi)
    refine .gap ?_ (Fades.refl _) rfl
    rw [← Option.not_isSome_iff_eq_none, Window.get?_isSome_iff]
    omega

theorem get?_pushSent {k : ℕ} {fl : Bool} (hi : (m.pushSent k i fl).packets.get? n = some i') :
    m.packets.get? n = some i' ∨ n = m.packets.next ∧ i' = { i with inFlight := fl } := by
  change (m.packets.push { i with inFlight := fl }).get? n = some i' at hi
  rw [Window.get?_push] at hi
  split_ifs at hi with hn
  · exact .inr ⟨hn, (Option.some.inj hi).symm⟩
  · exact .inl hi

theorem fades_transferred (num : ℕ) (type : TransmissionType) (i : TransmissionInfo) :
    Fades i (UnackedPacketMap.transferred num type i) :=
  ⟨rfl, rfl, rfl, fun _ => rfl⟩

/-- `TransferRetransmissionInfo` leaves the older packets in flight, and does not
change the size and the time of the new one. -/
theorem transferRetransmissionInfo_entries (m : UnackedPacketMap) (old new : ℕ)
    (type : TransmissionType) (i : TransmissionInfo) :
    let u := m.transferRetransmissionInfo old new type i
    u.2.bytesSent = i.bytesSent ∧ u.2.sentTime = i.sentTime ∧
      ∀ n a', u.1.packets.get? n = some a' →
        ∃ a, m.packets.get? n = some a ∧ Fades a a' ∧ a'.inFlight = a.inFlight := by
  unfold UnackedPacketMap.transferRetransmissionInfo
  split_ifs
  · exact ⟨rfl, rfl, fun n a ha => ⟨a, ha, Fades.refl a, rfl⟩⟩
  · exact ⟨rfl, rfl, fun n a ha => ⟨a, ha, Fades.refl a, rfl⟩⟩
  · split
    · exact ⟨rfl, rfl, fun n a ha => ⟨a, ha, Fades.refl a, rfl⟩⟩
    · refine ⟨rfl, rfl, fun n a' ha' => ?_⟩
      have ha := get?_of_removeObsoletePackets ha'
      change (m.packets.modify old _).get? n = some a' at ha
      rw [Window.get?_modify] at ha
      split_ifs at ha with hn
      · obtain ⟨a, ha₀, rfl⟩ := Option.map_eq_some_iff.1 ha
        subst hn
        exact ⟨a, ha₀, fades_transferred new type a, rfl⟩
      · exact ⟨a', ha, Fades.refl a', rfl⟩

/-- **What is tracked after a packet is sent.** -/
theorem addSentPacket_entries (h : Sound m) {p : SerializedPacket}
    (hp : m.largestSentPacket < p.packetNumber) (old : ℕ) (type : TransmissionType) (time : ℤ)
    (fl : Bool) (hi : (m.addSentPacket p old type time fl).packets.get? n = some i') :
    SentEntry m p time n i' := by
  have hnext : (m.fillGap p.packetNumber).packets.next = p.packetNumber :=
    next_fillGap (by rw [h.next_eq]; omega)
  unfold UnackedPacketMap.addSentPacket at hi
  dsimp only at hi
  rcases Nat.eq_zero_or_pos old with h0 | h0
  · rw [if_pos h0] at hi
    rcases get?_pushSent (k := p.packetNumber) hi with hi | ⟨hn, rfl⟩
    · exact get?_fillGap time hi
    · exact .new (hn.trans hnext) rfl rfl
  · rw [if_neg h0.ne'] at hi
    obtain ⟨hb, ht, hold⟩ := transferRetransmissionInfo_entries (m.fillGap p.packetNumber) old
      p.packetNumber type (UnackedPacketMap.sentInfo p type time)
    have hnext' := (transferRetransmissionInfo_spec old (i := UnackedPacketMap.sentInfo p type time)
      (h.toKept.fillGap p.packetNumber) (Nat.le_refl _) hp hnext type).2.1
    rcases get?_pushSent hi with hi | ⟨hn, rfl⟩
    · obtain ⟨a, ha, hf, hfl⟩ := hold n i' hi
      rcases get?_fillGap time ha with ⟨b, hb, hf', hfl'⟩ | ⟨hn, hf', hfl'⟩ | ⟨hn, -, -⟩
      · exact .old b hb (hf'.trans hf) (hfl.trans hfl')
      · exact .gap hn (hf'.trans hf) (hfl.trans hfl')
      · exact absurd (Window.lt_next_of_get? ha) (by rw [hnext]; omega)
    · exact .new (hn.trans hnext') hb ht

/-! ## The operations of the manager -/

/-- An operation that lets packets land, and notes nothing for the congestion
controller. -/
structure Quiet (s s' : SentPacketManager ρ) : Prop where
  carries : Carries Lands s.unackedPackets s'.unackedPackets
  options_eq : s'.options = s.options
  acked_eq : s'.packetsAcked = s.packetsAcked
  lost_eq : s'.packetsLost = s.packetsLost
  reported_eq : s'.reported = s.reported

theorem Quiet.refl (s : SentPacketManager ρ) : Quiet s s := ⟨carries_refl _, rfl, rfl, rfl, rfl⟩

theorem Quiet.trans (h : Quiet s s') (h' : Quiet s' s'') : Quiet s s'' where
  carries := h.carries.trans h'.carries
  options_eq := h'.options_eq.trans h.options_eq
  acked_eq := h'.acked_eq.trans h.acked_eq
  lost_eq := h'.lost_eq.trans h.lost_eq
  reported_eq := h'.reported_eq.trans h.reported_eq

theorem quiet_withMap {f : UnackedPacketMap → UnackedPacketMap} (s : SentPacketManager ρ)
    (h : Carries Lands s.unackedPackets (f s.unackedPackets)) : Quiet s (s.withMap f) :=
  ⟨h, rfl, rfl, rfl, rfl⟩

theorem quiet_stray (s : SentPacketManager ρ) : Quiet s (s.withMap .stray) :=
  quiet_withMap s ⟨rfl, fun _ i hi => ⟨i, hi, Lands.refl i⟩⟩

/-- **The rule for a loop over the deque**, for what its body keeps. -/
theorem forPackets_rec {P : SentPacketManager ρ → Prop}
    {f : SentPacketManager ρ → ℕ → TransmissionInfo → SentPacketManager ρ} (h : P s)
    (hstray : ∀ u, P u → P (u.withMap .stray))
    (hf : ∀ u n i, P u → u.unackedPackets.packets.get? n = some i → P (f u n i)) :
    P (s.forPackets f) := by
  refine List.foldlRecOn (motive := P) _ _ h fun u hu n _ => ?_
  cases hi : u.unackedPackets.packets.get? n with
  | none => exact hstray u hu
  | some i => exact hf u n i hu hi

theorem forPackets_quiet {f : SentPacketManager ρ → ℕ → TransmissionInfo → SentPacketManager ρ}
    (hf : ∀ u n i, Quiet u (f u n i)) : Quiet s (s.forPackets f) :=
  forPackets_rec (P := Quiet s) (Quiet.refl s) (fun u hu => hu.trans (quiet_stray u))
    fun u n i hu _ => hu.trans (hf u n i)

theorem markForRetransmission_quiet (s : SentPacketManager ρ) (n : ℕ) (type : TransmissionType) :
    Quiet s (s.markForRetransmission n type) := by
  refine ⟨?_, rfl, rfl, rfl, rfl⟩
  unfold SentPacketManager.markForRetransmission
  dsimp only
  split_ifs
  · exact removeFromInFlight_carries _ n
  · exact carries_refl _

theorem retransmitUnackedPackets_quiet (s : SentPacketManager ρ) (initialOnly : Bool) :
    Quiet s (s.retransmitUnackedPackets initialOnly) := by
  refine forPackets_quiet fun u n i => ?_
  split_ifs
  · exact markForRetransmission_quiet u n _
  · exact markForRetransmission_quiet u n _
  · exact Quiet.refl u

theorem neuterUnencryptedPackets_quiet (s : SentPacketManager ρ) :
    Quiet s s.neuterUnencryptedPackets := by
  refine forPackets_quiet fun u n i => ?_
  split_ifs
  · refine ⟨?_, rfl, rfl, rfl, rfl⟩
    exact (removeFromInFlight_carries u.unackedPackets n).trans
      (removeRetransmittability_carries _ n)
  · exact Quiet.refl u

theorem cancelRetransmissionsForStream_quiet (s : SentPacketManager ρ) (streamId : ℕ) :
    Quiet s (s.cancelRetransmissionsForStream streamId) := by
  have h := cancelRetransmissionsForStream_carries s.unackedPackets streamId
  refine ⟨?_, rfl, rfl, rfl, rfl⟩
  unfold SentPacketManager.cancelRetransmissionsForStream
  dsimp only
  split_ifs
  · exact h
  · exact ⟨h.largestSent_eq, h.get?⟩

theorem retransmitCryptoPackets_quiet (s : SentPacketManager ρ) :
    Quiet s s.retransmitCryptoPackets := by
  have h₁ : Quiet s { s with
      consecutiveCryptoRetransmissionCount := s.consecutiveCryptoRetransmissionCount + 1 } :=
    ⟨carries_refl _, rfl, rfl, rfl, rfl⟩
  refine h₁.trans (forPackets_quiet fun u n i => ?_)
  split_ifs
  · have h := markForRetransmission_quiet u n .handshakeRetransmission
    exact ⟨h.carries, h.options_eq, h.acked_eq, h.lost_eq, h.reported_eq⟩
  · exact Quiet.refl u

theorem retransmitRtoPackets_quiet (s : SentPacketManager ρ) : Quiet s s.retransmitRtoPackets := by
  have hloop : Quiet s (s.forPackets SentPacketManager.retransmitRtoAt) := by
    refine forPackets_quiet fun u n i => ?_
    unfold SentPacketManager.retransmitRtoAt
    split_ifs
    · have h := markForRetransmission_quiet u n .rtoRetransmission
      exact ⟨h.carries, h.options_eq, h.acked_eq, h.lost_eq, h.reported_eq⟩
    · exact Quiet.refl u
    · exact quiet_withMap u (removeFromInFlight_carries _ n)
    · exact Quiet.refl u
  unfold SentPacketManager.retransmitRtoPackets
  dsimp only
  split_ifs
  · exact ⟨hloop.carries, hloop.options_eq, hloop.acked_eq, hloop.lost_eq, hloop.reported_eq⟩
  · exact ⟨hloop.carries, hloop.options_eq, hloop.acked_eq, hloop.lost_eq, hloop.reported_eq⟩
  · exact hloop

theorem maybeRetransmitTailLossProbe_quiet (s : SentPacketManager ρ) :
    Quiet s s.maybeRetransmitTailLossProbe.2 := by
  unfold SentPacketManager.maybeRetransmitTailLossProbe
  split_ifs
  · exact Quiet.refl s
  · split
    · exact Quiet.refl s
    · exact markForRetransmission_quiet s _ _

theorem markPacketHandled_quiet (s : SentPacketManager ρ) (n : ℕ) (i : TransmissionInfo)
    (now : ℤ) : Quiet s (s.markPacketHandled R n i now) := by
  unfold SentPacketManager.markPacketHandled
  split
  · exact quiet_stray s
  · rename_i newest _
    -- The newest transmission, then the packet itself.
    have h₁ : Quiet s ((s.erasePending newest).handleNewest R newest n i now) := by
      unfold SentPacketManager.handleNewest
      split_ifs
      · exact ⟨carries_refl _, rfl, rfl, rfl, rfl⟩
      · dsimp only
        split_ifs
        · exact ⟨removeFromInFlight_carries _ newest, rfl, rfl, rfl, rfl⟩
        · exact ⟨carries_refl _, rfl, rfl, rfl, rfl⟩
    refine h₁.trans ⟨?_, rfl, rfl, rfl, rfl⟩
    have hcut := (removeFromInFlight_carries
      ((s.erasePending newest).handleNewest R newest n i now).unackedPackets n).trans
      (removeRetransmittability_carries _ n)
    exact hcut.trans (carries_modify Lands.refl rfl rfl fun _ _ =>
      ⟨⟨rfl, rfl, rfl, id⟩, id, .inl rfl⟩)

theorem markLost_quiet (s : SentPacketManager ρ) (p : ℕ × ℕ) : Quiet s (s.markLost p) := by
  have h₁ : Quiet s { s with stats := { s.stats with packetsLost := s.stats.packetsLost + 1 } } :=
    ⟨carries_refl _, rfl, rfl, rfl, rfl⟩
  unfold SentPacketManager.markLost
  dsimp only
  split_ifs
  · exact h₁.trans (markForRetransmission_quiet _ p.1 _)
  · exact h₁.trans (quiet_withMap _ (removeFromInFlight_carries _ p.1))

/-! ## The acknowledgement of packets -/

theorem observed_quiet (s : SentPacketManager ρ) (ack : AckFrame) (time : ℤ) :
    Quiet s (((s.updatePacketInformationReceivedByPeer ack).maybeUpdateRtt R ack time).withMap
      fun m => m.increaseLargestObserved ack.largestObserved) := by
  obtain ⟨r, hr⟩ := observed_eq (R := R) s ack time
  rw [hr]
  exact ⟨⟨rfl, fun _ i hi => ⟨i, hi, Lands.refl i⟩⟩, rfl, rfl, rfl, rfl⟩

/-- **The rule for the undoing of losses**: what putting a packet with frames back in
flight keeps. -/
theorem undoFrom_rec {P : UnackedPacketMap → Prop}
    (hP : ∀ m n, P m → (∀ i, m.packets.get? n = some i → i.retransmittableFrames ≠ []) →
      P (m.restoreToInFlight n))
    (h : P s.unackedPackets) (l : List (ℕ × TransmissionType))
    (hq : ∀ q ∈ l, ∀ i, s.unackedPackets.packets.get? q.1 = some i →
      i.retransmittableFrames ≠ []) : P (s.undoFrom l).unackedPackets := by
  induction l generalizing s with
  | nil => exact h
  | cons p l ih =>
    have hp := hq p (List.mem_cons_self ..)
    unfold SentPacketManager.undoFrom
    split_ifs
    · refine ih (hP _ p.1 h hp) fun q hql i' hi' => ?_
      change (s.unackedPackets.restoreToInFlight p.1).packets.get? q.1 = some i' at hi'
      rw [get?_restoreToInFlight] at hi'
      split_ifs at hi' with hqp
      · obtain ⟨i, hi, rfl⟩ := Option.map_eq_some_iff.1 hi'
        exact hp i hi
      · exact hq q (List.mem_cons_of_mem p hql) i' hi'
    · exact h

theorem frames_of_queued {l : List (ℕ × TransmissionType)} (hq : ∀ q ∈ l, Queued m q) :
    ∀ q ∈ l, ∀ i, m.packets.get? q.1 = some i → i.retransmittableFrames ≠ [] := by
  intro q hql i hi
  obtain ⟨a, ha, hne, -⟩ := hq q hql
  exact Option.some.inj (ha.symm.trans hi) ▸ hne

/-- What the undoing of losses leaves as it is. -/
theorem undoFrom_vectors (s : SentPacketManager ρ) (l : List (ℕ × TransmissionType)) :
    (s.undoFrom l).options = s.options ∧ (s.undoFrom l).reported = s.reported ∧
      (s.undoFrom l).packetsAcked = s.packetsAcked ∧
      (s.undoFrom l).pendingTimerTransmissionCount = s.pendingTimerTransmissionCount := by
  induction l generalizing s with
  | nil => exact ⟨rfl, rfl, rfl, rfl⟩
  | cons p l ih =>
    unfold SentPacketManager.undoFrom
    split_ifs
    · exact ih _
    · exact ⟨rfl, rfl, rfl, rfl⟩

end Packets
end QuicNs3
