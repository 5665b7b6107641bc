/-
# What the manager does to links, frames and crypto packets

Most of what the manager does to a packet concerns its flight: whether it is in flight,
whether it can be acked, what was observed.  `Alike m m'` says that nothing else has
changed.  What is left are five things: a link is cut, the frames at the end of a walk
are cleared, some of the frames of a packet go, obsolete packets are dropped, and a
packet is sent.

So an invariant that does not see flight, and that the first four keep, is kept by every
operation but sending (`Maintained.step`).  It may speak of the packets counted as
spurious retransmissions, because a packet is counted where the link to it is cut:
`RecordSpuriousRetransmissions` walks along the links that `RemoveRetransmittability`
then cuts (`Maintained.walk`).
-/

import QuicNs3.Packets.Fading

namespace QuicNs3
namespace Packets

open Lib
open SentPacketManager (newestFrom retransmissions)

/-- Frames, crypto flag and link of a packet. -/
def content (i : TransmissionInfo) : List Frame × Bool × ℕ :=
  (i.retransmittableFrames, i.hasCryptoHandshake, i.retransmission)

/-- The same packets with the same content, and the same count of crypto packets. -/
structure Alike (m m' : UnackedPacketMap) : Prop where
  packets_eq : m'.packets.map content = m.packets.map content
  largestSent_eq : m'.largestSentPacket = m.largestSentPacket
  count_eq : m'.pendingCryptoPacketCount = m.pendingCryptoPacketCount
  underflow_eq : m'.cryptoUnderflow = m.cryptoUnderflow

/-- The link of a packet is cut. -/
def cutLink (i : TransmissionInfo) : TransmissionInfo := { i with retransmission := 0 }

/-- An invariant of the map, of the packets counted as spurious and of their number, that
is kept where packets are not sent. -/
structure Maintained (P : UnackedPacketMap → List ℕ → ℕ → Prop) : Prop where
  alike : ∀ {m m' L c}, P m L c → Alike m m' → P m' L c
  obsolete : ∀ {m L c}, P m L c → P m.removeObsoletePackets L c
  cut : ∀ {m L c n i}, Sound m → m.packets.get? n = some i → i.retransmission ≠ 0 → P m L c →
    P (m.modify n cutLink) (L ++ [i.retransmission]) (c + 1)
  clear : ∀ {m L c n i}, Sound m → m.packets.get? n = some i → i.retransmission = 0 → P m L c →
    P (m.clearFrames n i) L c
  shrink : ∀ {m L c n i} {g : List Frame → List Frame}, m.packets.get? n = some i →
    i.retransmittableFrames ≠ [] → g i.retransmittableFrames ≠ [] → P m L c →
    P (m.modify n fun i => { i with retransmittableFrames := g i.retransmittableFrames }) L c

variable {ρ : Type} {R : RttStats ρ} {s t : SentPacketManager ρ} {m m' m'' : UnackedPacketMap}
  {n k fuel : ℕ} {i : TransmissionInfo} {f : TransmissionInfo → TransmissionInfo}
  {P : UnackedPacketMap → List ℕ → ℕ → Prop} {L : List ℕ} {c : ℕ}

/-! ## Changes of flight -/

theorem Alike.refl (m : UnackedPacketMap) : Alike m m := ⟨rfl, rfl, rfl, rfl⟩

theorem Alike.trans (h : Alike m m') (h' : Alike m' m'') : Alike m m'' :=
  ⟨h'.packets_eq.trans h.packets_eq, h'.largestSent_eq.trans h.largestSent_eq,
    h'.count_eq.trans h.count_eq, h'.underflow_eq.trans h.underflow_eq⟩

/-- What is tracked on one side is tracked on the other, with the same content. -/
theorem Alike.get? (h : Alike m m') (n : ℕ) :
    (m'.packets.get? n).map content = (m.packets.get? n).map content := by
  rw [← Window.get?_map, ← Window.get?_map, h.packets_eq]

/-- The same on the side before. -/
theorem Alike.exists_get? (h : Alike m m') {i' : TransmissionInfo}
    (hi' : m'.packets.get? n = some i') :
    ∃ i, m.packets.get? n = some i ∧ content i' = content i := by
  have hn := h.get? n
  rw [hi', Option.map_some] at hn
  obtain ⟨i, hi, he⟩ := Option.map_eq_some_iff.1 hn.symm
  exact ⟨i, hi, he.symm⟩

theorem Alike.retransmission (h : Alike m m') (n : ℕ) :
    (m'.packets.get? n).map TransmissionInfo.retransmission =
      (m.packets.get? n).map TransmissionInfo.retransmission := by
  have hmap : ∀ o : Option TransmissionInfo,
      o.map TransmissionInfo.retransmission = (o.map content).map fun x => x.2.2 := by
    intro o
    rw [Option.map_map]
    rfl
  rw [hmap, hmap, h.get? n]

theorem Alike.length_eq (h : Alike m m') : m'.packets.items.length = m.packets.items.length := by
  have hitems := congrArg (fun w => w.items.length) h.packets_eq
  simpa [Window.map] using hitems

/-- A change of one packet that leaves its content as it is. -/
theorem alike_modify (hf : ∀ a, content (f a) = content a) : Alike m (m.modify n f) :=
  ⟨Window.map_modify hf, rfl, rfl, rfl⟩

theorem alike_stray (m : UnackedPacketMap) : Alike m m.stray := ⟨rfl, rfl, rfl, rfl⟩

theorem alike_removeFromInFlight (m : UnackedPacketMap) (n : ℕ) :
    Alike m (m.removeFromInFlight n) := by
  unfold UnackedPacketMap.removeFromInFlight
  split
  · exact alike_stray m
  · split_ifs
    · exact ⟨Window.map_modify fun _ => rfl, rfl, rfl, rfl⟩
    · exact Alike.refl m

theorem alike_restoreToInFlight (m : UnackedPacketMap) (n : ℕ) :
    Alike m (m.restoreToInFlight n) := by
  unfold UnackedPacketMap.restoreToInFlight
  split
  · exact alike_stray m
  · exact ⟨Window.map_modify fun _ => rfl, rfl, rfl, rfl⟩

/-! ## Walks -/

/-- A walk from `n` only reads the links from `n` on. -/
theorem retransmissions_congr (h : Sound m) (fuel : ℕ)
    (hm : ∀ j, n ≤ j → (m'.packets.get? j).map TransmissionInfo.retransmission =
      (m.packets.get? j).map TransmissionInfo.retransmission) :
    retransmissions m' fuel n = retransmissions m fuel n := by
  induction fuel generalizing n with
  | zero => rfl
  | succ fuel ih =>
    unfold retransmissions
    have hn := hm n (Nat.le_refl n)
    cases hi : m.packets.get? n with
    | none =>
      rw [hi, Option.map_none, Option.map_eq_none_iff] at hn
      rw [hn]
    | some i =>
      rw [hi, Option.map_some, Option.map_eq_some_iff] at hn
      obtain ⟨i', hi', hr⟩ := hn
      rw [hi']
      dsimp only
      rw [hr]
      split_ifs with h0
      · rw [ih fun j hj => hm j (Nat.le_trans (h.linked n i hi h0).1.le hj)]
      · rfl

/-- **The packets of a walk are later ones and tracked.** -/
theorem tracked_of_mem_retransmissions (h : Sound m) (hn : (m.packets.get? n).isSome)
    (hk : k ∈ retransmissions m fuel n) : n < k ∧ (m.packets.get? k).isSome := by
  induction fuel generalizing n with
  | zero => exact absurd hk List.not_mem_nil
  | succ fuel ih =>
    obtain ⟨i, hi⟩ := Option.isSome_iff_exists.1 hn
    unfold retransmissions at hk
    rw [hi] at hk
    dsimp only at hk
    split_ifs at hk with h0
    · obtain ⟨hlt, hle, -⟩ := h.linked n i hi h0
      have hnext : (m.packets.get? i.retransmission).isSome :=
        h.tracked_iff.2 ⟨Nat.le_trans (Window.base_le_of_get? hi) hlt.le, hle⟩
      rcases List.mem_cons.1 hk with rfl | hk
      · exact ⟨hlt, hnext⟩
      · obtain ⟨hlt', htracked⟩ := ih hnext hk
        exact ⟨hlt.trans hlt', htracked⟩
    · exact absurd hk List.not_mem_nil

/-- So none of them is left out of the count. -/
theorem length_filterMap_retransmissions (fuel : ℕ) (h : Sound m)
    (hn : (m.packets.get? n).isSome) :
    ((retransmissions m fuel n).filterMap m.packets.get?).length =
      (retransmissions m fuel n).length := by
  rw [List.length_filterMap_eq_countP, List.countP_eq_length]
  exact fun k hk => (tracked_of_mem_retransmissions h hn hk).2

/-- **A walk of `RemoveRetransmittability`** cuts the links to the packets that
`RecordSpuriousRetransmissions` counts, and clears the frames at its end. -/
theorem Maintained.walk (hP : Maintained P) (h : Sound m) (hn : (m.packets.get? n).isSome)
    (hf : m.packets.next ≤ n + fuel) (hm : P m L c) :
    P (UnackedPacketMap.removeRetransmittabilityFrom fuel m n) (L ++ retransmissions m fuel n)
      (c + (retransmissions m fuel n).length) := by
  induction fuel generalizing m n L c with
  | zero => exact absurd (Window.get?_isSome_iff.1 hn).2 (by omega)
  | succ fuel ih =>
    obtain ⟨i, hi⟩ := Option.isSome_iff_exists.1 hn
    unfold UnackedPacketMap.removeRetransmittabilityFrom retransmissions
    rw [hi]
    dsimp only
    split_ifs with h0
    · obtain ⟨hlt, hle, -⟩ := h.linked n i hi h0
      have hS : Sound (m.modify n cutLink) := h.modify hi rfl fun h => absurd rfl h
      have hrest : ∀ j, i.retransmission ≤ j →
          (m.modify n cutLink).packets.get? j = m.packets.get? j :=
        fun j hj => Window.get?_modify_of_ne (by omega)
      have htracked : ((m.modify n cutLink).packets.get? i.retransmission).isSome := by
        rw [hrest _ (Nat.le_refl _)]
        exact h.tracked_iff.2 ⟨Nat.le_trans (Window.base_le_of_get? hi) hlt.le, hle⟩
      have hnext : (m.modify n cutLink).packets.next ≤ i.retransmission + fuel := by
        have : (m.modify n cutLink).packets.next = m.packets.next := Window.next_modify
        omega
      have hwalk : retransmissions (m.modify n cutLink) fuel i.retransmission =
          retransmissions m fuel i.retransmission :=
        retransmissions_congr h fuel fun j hj => by rw [hrest j hj]
      have hcut := ih hS htracked hnext (hP.cut h hi h0 hm)
      rw [hwalk, List.append_assoc, List.singleton_append] at hcut
      rw [List.length_cons, Nat.add_comm _ 1, ← Nat.add_assoc]
      exact hcut
    · rw [List.append_nil, List.length_nil, Nat.add_zero]
      exact hP.clear h hi (not_not.1 h0) hm

/-- A packet with frames is not walked past. -/
theorem retransmissions_of_frames (h : Sound m) (hi : m.packets.get? n = some i)
    (hne : i.retransmittableFrames ≠ []) : retransmissions m fuel n = [] := by
  have h0 : i.retransmission = 0 := by
    by_contra h0
    exact hne (h.linked n i hi h0).2.2
  cases fuel with
  | zero => rfl
  | succ fuel => simp [retransmissions, hi, h0]

/-- A walk ends where it starts, or at one of the packets it passes. -/
theorem newestFrom_cases (hk : newestFrom m fuel n = some k) :
    k = n ∧ retransmissions m fuel n = [] ∨ k ∈ retransmissions m fuel n := by
  induction fuel generalizing n with
  | zero => exact absurd hk (by simp [newestFrom])
  | succ fuel ih =>
    unfold newestFrom at hk
    unfold retransmissions
    cases hi : m.packets.get? n with
    | none => simp [hi] at hk
    | some i =>
      rw [hi] at hk
      dsimp only at hk ⊢
      split_ifs at hk ⊢
      · refine .inr (List.mem_cons.2 ?_)
        rcases ih hk with ⟨rfl, -⟩ | hmem
        · exact .inl rfl
        · exact .inr hmem
      · exact .inl ⟨(Option.some.inj hk).symm, rfl⟩

/-! ## The operations -/

/-- What `P` says of a manager. -/
def Upheld (P : UnackedPacketMap → List ℕ → ℕ → Prop) (s : SentPacketManager ρ) : Prop :=
  P s.unackedPackets s.spurious s.stats.packetsSpuriouslyRetransmitted

/-- A change of flight that counts nothing. -/
theorem Maintained.upheld (hP : Maintained P) (h : Upheld P s)
    (hm : Alike s.unackedPackets t.unackedPackets) (hL : t.spurious = s.spurious)
    (hc : t.stats.packetsSpuriouslyRetransmitted = s.stats.packetsSpuriouslyRetransmitted) :
    Upheld P t := by
  unfold Upheld
  rw [hL, hc]
  exact hP.alike h hm

theorem Maintained.markForRetransmission (hP : Maintained P) (h : Upheld P s) (n : ℕ)
    (type : TransmissionType) : Upheld P (s.markForRetransmission n type) := by
  refine hP.upheld h ?_ rfl rfl
  unfold SentPacketManager.markForRetransmission
  dsimp only
  split_ifs
  · exact alike_removeFromInFlight _ n
  · exact Alike.refl _

/-- A loop that only changes flight. -/
theorem Maintained.forPackets (hP : Maintained P)
    {f : SentPacketManager ρ → ℕ → TransmissionInfo → SentPacketManager ρ} (h : Upheld P s)
    (hf : ∀ u n i, Upheld P u → Upheld P (f u n i)) : Upheld P (s.forPackets f) :=
  forPackets_rec h (fun _ hu => hP.upheld hu (alike_stray _) rfl rfl) fun u n i hu _ => hf u n i hu

theorem Maintained.retransmitUnackedPackets (hP : Maintained P) (h : Upheld P s)
    (initialOnly : Bool) : Upheld P (s.retransmitUnackedPackets initialOnly) := by
  refine hP.forPackets h fun u n i hu => ?_
  split_ifs
  · exact hP.markForRetransmission hu n _
  · exact hP.markForRetransmission hu n _
  · exact hu

theorem Maintained.retransmitCryptoPackets (hP : Maintained P) (h : Upheld P s) :
    Upheld P s.retransmitCryptoPackets := by
  refine hP.forPackets (hP.upheld h (Alike.refl _) rfl rfl) fun u n i hu => ?_
  split_ifs
  · exact hP.upheld (hP.markForRetransmission hu n .handshakeRetransmission) (Alike.refl _) rfl rfl
  · exact hu

theorem Maintained.retransmitRtoPackets (hP : Maintained P) (h : Upheld P s) :
    Upheld P s.retransmitRtoPackets := by
  have hloop : Upheld P (s.forPackets SentPacketManager.retransmitRtoAt) := by
    refine hP.forPackets h fun u n i hu => ?_
    unfold SentPacketManager.retransmitRtoAt
    split_ifs
    · exact hP.upheld (hP.markForRetransmission hu n .rtoRetransmission) (Alike.refl _) rfl rfl
    · exact hu
    · exact hP.upheld hu (alike_removeFromInFlight _ n) rfl rfl
    · exact hu
  unfold SentPacketManager.retransmitRtoPackets
  dsimp only
  split_ifs
  · exact hP.upheld hloop (Alike.refl _) rfl rfl
  · exact hP.upheld hloop (Alike.refl _) rfl rfl
  · exact hloop

/-- Loss detection marks packets or takes them out of flight. -/
theorem Maintained.invokeLossDetection (hP : Maintained P) (h : Upheld P s) (time : ℤ) :
    Upheld P (s.invokeLossDetection R time) := by
  unfold SentPacketManager.invokeLossDetection
  refine List.foldlRecOn (motive := Upheld P) _ _ (hP.upheld h ?_ rfl rfl) fun u hu p _ => ?_
  · dsimp only
    split_ifs
    · exact alike_stray _
    · exact Alike.refl _
  · unfold SentPacketManager.markLost
    dsimp only
    split_ifs
    · exact hP.markForRetransmission (hP.upheld hu (Alike.refl _) rfl rfl) p.1 _
    · exact hP.upheld hu (alike_removeFromInFlight _ p.1) rfl rfl

theorem Maintained.maybeInvokeCongestionEvent (hP : Maintained P) (h : Upheld P s)
    (updated : Bool) : Upheld P (s.maybeInvokeCongestionEvent updated) := by
  unfold SentPacketManager.maybeInvokeCongestionEvent
  split_ifs
  · exact h
  · exact hP.upheld h (Alike.refl _) rfl rfl

theorem Maintained.undoFrom (hP : Maintained P) (h : Upheld P s)
    (l : List (ℕ × TransmissionType)) : Upheld P (s.undoFrom l) := by
  induction l generalizing s with
  | nil => exact hP.upheld h (Alike.refl _) rfl rfl
  | cons p l ih =>
    unfold SentPacketManager.undoFrom
    split_ifs
    · exact ih (hP.upheld h (alike_restoreToInFlight _ p.1) rfl rfl)
    · exact hP.upheld h (Alike.refl _) rfl rfl

/-- Neutering clears the frames of packets that have some. -/
theorem Maintained.neuterUnencryptedPackets (hP : Maintained P) (hI : Inv s) (h : Upheld P s) :
    Upheld P s.neuterUnencryptedPackets := by
  refine (forPackets_steady_and (P := Upheld P) hI h fun u n i hu hPu hi => ?_).2
  split_ifs with hc
  · refine ⟨neuter_steady hu.inv hi hc.1, ?_⟩
    have hn : (u.unackedPackets.packets.get? n).isSome := Option.isSome_iff_exists.2 ⟨i, hi⟩
    obtain ⟨hS, hE⟩ := removeFromInFlight_spec hu.inv.sound hn
    obtain ⟨i', hi', -, hfr⟩ := get?_removeFromInFlight hi
    have hwalk := hP.walk hS (hE.tracked hn) (next_le_fuel (hE.tracked hn))
      (hP.alike hPu (alike_removeFromInFlight u.unackedPackets n))
    rw [retransmissions_of_frames hS hi' (hfr ▸ hc.1), List.append_nil] at hwalk
    exact hwalk
  · exact ⟨Steady.refl hu.inv, hPu⟩

/-- Where no frame is left, the packet is cleared as if none had been taken before. -/
theorem clearFrames_modify (m : UnackedPacketMap) (n : ℕ) (i : TransmissionInfo)
    (g : List Frame → List Frame) :
    (m.modify n fun i => { i with
      retransmittableFrames := g i.retransmittableFrames }).clearFrames n
        { i with retransmittableFrames := g i.retransmittableFrames } = m.clearFrames n i := by
  unfold UnackedPacketMap.clearFrames UnackedPacketMap.modify
  dsimp only
  rw [Window.modify_modify]

/-- Cancelling a stream takes frames, and clears the packets that have none left. -/
theorem Maintained.cancelRetransmissionsAt (hP : Maintained P) (hS : Sound m) (h : P m L c)
    (hn : (m.packets.get? n).isSome) (streamId : ℕ) :
    P (m.cancelRetransmissionsAt streamId n) L c := by
  obtain ⟨i, hi⟩ := Option.isSome_iff_exists.1 hn
  unfold UnackedPacketMap.cancelRetransmissionsAt
  rw [hi]
  dsimp only
  split_ifs with he he'
  · exact h
  · have hne : i.retransmittableFrames ≠ [] := fun hnil => he (List.isEmpty_iff.2 hnil)
    have h0 : i.retransmission = 0 := by
      by_contra h0
      exact hne (hS.linked n i hi h0).2.2
    have hclear := clearFrames_modify m n i fun frames => removeFramesForStream frames streamId
    unfold UnackedPacketMap.removeRetransmittability
      UnackedPacketMap.removeRetransmittabilityFrom
    rw [show (m.modify n _).packets.get? n = _ from Window.get?_modify_self hi]
    dsimp only
    rw [if_neg (not_not.2 h0), hclear]
    exact hP.clear hS hi h0 h
  · exact hP.shrink (g := fun frames => removeFramesForStream frames streamId) hi
      (fun hnil => he (List.isEmpty_iff.2 hnil)) (fun hnil => he' (List.isEmpty_iff.2 hnil)) h

theorem Maintained.cancelRetransmissionsForStream (hP : Maintained P) (hI : Inv s)
    (h : Upheld P s) (streamId : ℕ) : Upheld P (s.cancelRetransmissionsForStream streamId) := by
  obtain ⟨-, -, hloop⟩ := cancelRetransmissionsForStream_rec
    (P := fun m => P m s.spurious s.stats.packetsSpuriouslyRetransmitted) hI.sound h streamId
    fun u n hS hu hn => hP.cancelRetransmissionsAt hS hu hn streamId
  unfold Upheld SentPacketManager.cancelRetransmissionsForStream
  dsimp only
  split_ifs
  · exact hloop
  · exact hP.alike hloop (alike_stray _)

/-- What `MarkPacketHandled` counts: the packets that a walk from the acknowledged one
passes. -/
theorem handleNewest_counts (hS : Sound s.unackedPackets)
    (hn : (s.unackedPackets.packets.get? n).isSome) (hk : s.getNewestRetransmission n = some k)
    (i : TransmissionInfo) (now : ℤ) :
    let u := (s.erasePending k).handleNewest R k n i now
    let walk := retransmissions s.unackedPackets (s.unackedPackets.packets.items.length + 1) n
    Alike s.unackedPackets u.unackedPackets ∧ u.spurious = s.spurious ++ walk ∧
      u.stats.packetsSpuriouslyRetransmitted =
        s.stats.packetsSpuriouslyRetransmitted + walk.length := by
  intro u walk
  have hcases : k = n ∧ walk = [] ∨ k ∈ walk := newestFrom_cases hk
  by_cases hkn : k = n
  · have hnil : walk = [] := by
      rcases hcases with ⟨-, hnil⟩ | hmem
      · exact hnil
      · exact absurd (tracked_of_mem_retransmissions hS hn hmem).1 (by omega)
    have hu : u = s.erasePending k := if_pos hkn
    rw [hu, hnil, List.append_nil]
    exact ⟨Alike.refl _, rfl, rfl⟩
  · have hlength := length_filterMap_retransmissions
      (s.unackedPackets.packets.items.length + 1) hS hn
    have hrec : Alike s.unackedPackets
          ((s.erasePending k).recordSpuriousRetransmissions R n i now).unackedPackets ∧
        ((s.erasePending k).recordSpuriousRetransmissions R n i now).spurious =
          s.spurious ++ walk ∧
        ((s.erasePending k).recordSpuriousRetransmissions R n i
            now).stats.packetsSpuriouslyRetransmitted =
          s.stats.packetsSpuriouslyRetransmitted + walk.length :=
      ⟨Alike.refl _, rfl, congrArg (s.stats.packetsSpuriouslyRetransmitted + ·) hlength⟩
    have hu : u = if (s.unackedPackets.packets.get? k).any TransmissionInfo.hasCryptoHandshake then
          ((s.erasePending k).recordSpuriousRetransmissions R n i now).withMap
            fun m => m.removeFromInFlight k
        else (s.erasePending k).recordSpuriousRetransmissions R n i now := if_neg hkn
    rw [hu]
    split_ifs
    · exact ⟨hrec.1.trans (alike_removeFromInFlight _ k), hrec.2⟩
    · exact hrec

/-- **An acknowledged packet**: what is counted as spurious is what its links led to. -/
theorem Maintained.markPacketHandled (hP : Maintained P) (hI : Inv s)
    (hi : s.unackedPackets.packets.get? n = some i) (now : ℤ) (h : Upheld P s) :
    Upheld P (s.markPacketHandled R n i now) := by
  have hn : (s.unackedPackets.packets.get? n).isSome := Option.isSome_iff_exists.2 ⟨i, hi⟩
  obtain ⟨k, a, hk, ha, -⟩ := exists_newestFrom hI.sound hn (next_le_fuel hn)
  have hkt : (s.unackedPackets.packets.get? k).isSome := Option.isSome_iff_exists.2 ⟨a, ha⟩
  unfold SentPacketManager.markPacketHandled
  rw [show s.getNewestRetransmission n = some k from hk]
  dsimp only
  obtain ⟨hw, -, hE, -⟩ := handleNewest_steady (R := R) (erasePending_steady hI k).inv hkt n i now
  obtain ⟨hA, hL, hc⟩ := handleNewest_counts (R := R) hI.sound hn hk i now
  set u := (s.erasePending k).handleNewest R k n i now with hu
  obtain ⟨hS₁, hE₁⟩ := removeFromInFlight_spec hw.inv.sound (hE.tracked hn)
  have hA₁ := hA.trans (alike_removeFromInFlight u.unackedPackets n)
  have hlist := retransmissions_congr hI.sound (s.unackedPackets.packets.items.length + 1)
    fun j (_ : n ≤ j) => hA₁.retransmission j
  rw [← hA₁.length_eq] at hlist hL hc
  have hwalk := hP.walk hS₁ (hE₁.tracked (hE.tracked hn))
    (next_le_fuel (hE₁.tracked (hE.tracked hn))) (hP.alike h hA₁)
  rw [hlist, ← hL, ← hc] at hwalk
  exact hP.alike hwalk (alike_modify (f := fun i => { i with isUnackable := true }) fun _ => rfl)

theorem Maintained.handleAckForSentPackets (hP : Maintained P) (hI : Inv s) (h : Upheld P s)
    (ack : AckFrame) (now : ℤ) : Upheld P (s.handleAckForSentPackets R ack now) := by
  refine (forPackets_steady_and (P := Upheld P) hI h fun u n i hu hPu hi =>
    ⟨handleAckAt_steady hu.inv hi ack now, ?_⟩).2
  unfold SentPacketManager.handleAckAt
  split_ifs
  · exact hPu
  · exact hPu
  · exact hP.markPacketHandled (recordAcked_steady hu.inv hi).inv hi now
      (hP.upheld hPu (Alike.refl _) rfl rfl)
  · exact hPu

theorem Maintained.onIncomingAck (hP : Maintained P) (hB : Between s) (h : Upheld P s)
    (ack : AckFrame) (time now : ℤ) : Upheld P (s.onIncomingAck R ack time now) := by
  obtain ⟨hI₁, -⟩ := observed_inv (R := R) hB.1 ack time
  obtain ⟨r, hr⟩ := observed_eq (R := R) s ack time
  have h₁ : Upheld P
      (((s.updatePacketInformationReceivedByPeer ack).maybeUpdateRtt R ack time).withMap
        fun m => m.increaseLargestObserved ack.largestObserved) := by
    rw [hr]
    exact hP.upheld h ⟨rfl, rfl, rfl, rfl⟩ rfl rfl
  have h₂ := hP.invokeLossDetection (R := R) (hP.handleAckForSentPackets (R := R) hI₁ h₁ ack now)
    time
  have h₃ : Upheld P (s.processAck R ack time now) := by
    refine hP.maybeInvokeCongestionEvent ?_ _
    exact hP.upheld h₂ (Alike.refl _) rfl rfl
  have h₄ : Upheld P ((s.processAck R ack time now).withMap .removeObsoletePackets) :=
    hP.obsolete h₃
  unfold SentPacketManager.onIncomingAck
  dsimp only
  split_ifs
  · refine hP.undoFrom ?_ _
    exact hP.upheld h₄ (Alike.refl _) rfl rfl
  · exact hP.undoFrom h₄ _

theorem Maintained.onRetransmissionTimeout (hP : Maintained P) (h : Upheld P s) (now : ℤ) :
    Upheld P (s.onRetransmissionTimeout R now) := by
  unfold SentPacketManager.onRetransmissionTimeout
  split
  · refine hP.retransmitCryptoPackets ?_
    exact hP.upheld h (Alike.refl _) rfl rfl
  · refine hP.maybeInvokeCongestionEvent (hP.invokeLossDetection ?_ now) false
    exact hP.upheld h (Alike.refl _) rfl rfl
  · exact hP.upheld h (Alike.refl _) rfl rfl
  · refine hP.retransmitRtoPackets ?_
    exact hP.upheld h (Alike.refl _) rfl rfl

/-- **Sending a packet** changes the map only. -/
theorem upheld_of_send {p : SerializedPacket} {old : ℕ} {time : ℤ} {type : TransmissionType}
    {fl : Bool} (hs : s.step R (.send p old time type fl) = some t)
    (hsend : s.unackedPackets.largestSentPacket < p.packetNumber →
      P (s.unackedPackets.addSentPacket p old type time fl) s.spurious
        s.stats.packetsSpuriouslyRetransmitted) : Upheld P t := by
  simp only [SentPacketManager.step] at hs
  split_ifs at hs with hp
  obtain rfl := Option.some.inj hs
  have hnew := hsend hp.1
  unfold SentPacketManager.onPacketSent
  dsimp only
  split_ifs
  · exact hnew
  · exact hnew

/-- **Every operation keeps a maintained invariant**, if sending does. -/
theorem Maintained.step (hP : Maintained P) (hB : Between s) (h : Upheld P s) {o : Op}
    (hs : s.step R o = some t)
    (hsend : ∀ p old time type fl, o = .send p old time type fl →
      s.unackedPackets.largestSentPacket < p.packetNumber →
      P (s.unackedPackets.addSentPacket p old type time fl) s.spurious
        s.stats.packetsSpuriouslyRetransmitted) : Upheld P t := by
  cases o with
  | send p old time type fl => exact upheld_of_send hs (hsend p old time type fl rfl)
  | ack frame time now =>
    simp only [SentPacketManager.step] at hs
    split_ifs at hs
    exact Option.some.inj hs ▸ hP.onIncomingAck hB h frame time now
  | retransmissionTimeout now =>
    exact Option.some.inj hs ▸ hP.onRetransmissionTimeout h now
  | tailLossProbe =>
    obtain rfl := Option.some.inj hs
    unfold SentPacketManager.maybeRetransmitTailLossProbe
    split_ifs
    · exact h
    · split
      · exact h
      · exact hP.markForRetransmission h _ _
  | neuterUnencryptedPackets =>
    exact Option.some.inj hs ▸ hP.neuterUnencryptedPackets hB.1 h
  | retransmitUnackedPackets initialOnly =>
    exact Option.some.inj hs ▸ hP.retransmitUnackedPackets h initialOnly
  | cancelRetransmissionsForStream streamId =>
    exact Option.some.inj hs ▸ hP.cancelRetransmissionsForStream hB.1 h streamId
  | setHandshakeConfirmed =>
    exact Option.some.inj hs ▸ hP.upheld h (Alike.refl _) rfl rfl

end Packets
end QuicNs3
