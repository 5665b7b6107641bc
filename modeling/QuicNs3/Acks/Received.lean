/-
# The packets that have arrived

`QuicReceivedPacketManager` keeps the acknowledgement frame: which packets have arrived, the
largest of them and when it came.  `QuicConnection` records a packet only if it is still awaited
(`OnUnauthenticatedHeader`), and lets the manager forget the packets below what the peer does not
wait for any more.  Before a frame is sent, the lowest intervals are dropped if there are more of
them than `max_ack_ranges_` allows.

Every packet in a frame has been processed, and the largest one is always in it.  Where no
interval is dropped, the frame has all packets that the peer still waits for, and no packet is
processed twice (`Sound`).
-/

import QuicNs3.Acks.PacketNumberQueue

namespace QuicNs3
namespace Acks

open Lib

/-- `QuicTime::Delta::Infinite`, in microseconds. -/
def kQuicInfiniteTimeUs : ℤ := 2 ^ 63 - 1

/-- `kMaxPacketsAfterNewMissing`. -/
def kMaxPacketsAfterNewMissing : ℕ := 4

/-- `QuicAckFrame`. -/
structure AckFrame where
  largestObserved : ℕ
  ackDelayTime : ℤ
  receivedPacketTimes : List (ℕ × ℤ)
  packets : PacketNumberQueue
deriving DecidableEq, Repr

/-- `QuicReceivedPacketManager`, with the counters of `QuicConnectionStats` that it keeps. -/
structure ReceivedPacketManager where
  ackFrame : AckFrame
  peerLeastPacketAwaitingAck : ℕ
  ackFrameUpdated : Bool
  maxAckRanges : ℕ
  timeLargestObserved : ℤ
  packetsReordered : ℕ
  maxSequenceReordering : ℕ
  maxTimeReorderingUs : ℤ
deriving DecidableEq, Repr

namespace PacketNumberQueue

/-- The loop that keeps at most `maxAckRanges` intervals, if that is not zero. -/
def trim (maxAckRanges : ℕ) : ℕ → PacketNumberQueue → PacketNumberQueue
  | 0, q => q
  | fuel + 1, q =>
    if 0 < maxAckRanges ∧ maxAckRanges < q.numIntervals then
      match q.removeSmallestInterval with
      | some q' => trim maxAckRanges fuel q'
      | none => q
    else q

end PacketNumberQueue

namespace ReceivedPacketManager

/-- The constructor, and `set_max_ack_ranges`. -/
def new (useDeque : Bool) (maxAckRanges : ℕ) : ReceivedPacketManager where
  ackFrame := ⟨0, kQuicInfiniteTimeUs, [], .init useDeque⟩
  peerLeastPacketAwaitingAck := 0
  ackFrameUpdated := false
  maxAckRanges := maxAckRanges
  timeLargestObserved := 0
  packetsReordered := 0
  maxSequenceReordering := 0
  maxTimeReorderingUs := 0

/-- `RecordPacketReceived`. -/
def recordPacketReceived (m : ReceivedPacketManager) (packetNumber : ℕ) (receiptTime : ℤ) :
    ReceivedPacketManager :=
  let largest := m.ackFrame.largestObserved
  let times := if m.ackFrameUpdated then m.ackFrame.receivedPacketTimes else []
  { m with
    ackFrameUpdated := true
    packetsReordered :=
      if packetNumber < largest then m.packetsReordered + 1 else m.packetsReordered
    maxSequenceReordering :=
      if packetNumber < largest then max m.maxSequenceReordering (largest - packetNumber)
      else m.maxSequenceReordering
    maxTimeReorderingUs :=
      if packetNumber < largest then max m.maxTimeReorderingUs (receiptTime - m.timeLargestObserved)
      else m.maxTimeReorderingUs
    timeLargestObserved := if largest < packetNumber then receiptTime else m.timeLargestObserved
    ackFrame :=
      { m.ackFrame with
        packets := m.ackFrame.packets.add packetNumber
        largestObserved := if largest < packetNumber then packetNumber else largest
        receivedPacketTimes := times ++ [(packetNumber, receiptTime)] } }

/-- `IsAwaitingPacket`. -/
def isAwaitingPacket (m : ReceivedPacketManager) (packetNumber : ℕ) : Bool :=
  decide (m.peerLeastPacketAwaitingAck ≤ packetNumber) &&
    !m.ackFrame.packets.contains packetNumber

/-- `GetUpdatedAckFrame`: the manager, which keeps the frame that is returned. -/
def getUpdatedAckFrame (m : ReceivedPacketManager) (approximateNow : ℤ) : ReceivedPacketManager :=
  { m with
    ackFrameUpdated := false
    ackFrame :=
      { m.ackFrame with
        ackDelayTime :=
          if m.timeLargestObserved = 0 then kQuicInfiniteTimeUs
          else if approximateNow < m.timeLargestObserved then 0
          else approximateNow - m.timeLargestObserved
        packets := m.ackFrame.packets.trim m.maxAckRanges m.ackFrame.packets.numIntervals
        -- The distance has to fit into a byte.
        receivedPacketTimes := m.ackFrame.receivedPacketTimes.filter fun p =>
          decide (wrapSub m.ackFrame.largestObserved p.1 < 255) } }

/-- `DontWaitForPacketsBefore`. -/
def dontWaitForPacketsBefore (m : ReceivedPacketManager) (leastUnacked : ℕ) :
    ReceivedPacketManager :=
  if m.peerLeastPacketAwaitingAck < leastUnacked then
    let removed := m.ackFrame.packets.removeUpTo leastUnacked
    { m with
      peerLeastPacketAwaitingAck := leastUnacked
      ackFrame := { m.ackFrame with packets := removed.1 }
      ackFrameUpdated := m.ackFrameUpdated || removed.2 }
  else m

/-- `HasMissingPackets`. -/
def hasMissingPackets (m : ReceivedPacketManager) : Bool :=
  decide (1 < m.ackFrame.packets.numIntervals) ||
    m.ackFrame.packets.min.any fun min => decide (max 1 m.peerLeastPacketAwaitingAck < min)

/-- `HasNewMissingPackets`. -/
def hasNewMissingPackets (m : ReceivedPacketManager) : Bool :=
  m.hasMissingPackets &&
    m.ackFrame.packets.lastIntervalLength.any fun l => decide (l ≤ kMaxPacketsAfterNewMissing)

end ReceivedPacketManager

/-! ## Runs -/

/-- The manager, with the packets that the connection has processed and the frames that it has
sent, the last ones first. -/
structure Reception where
  manager : ReceivedPacketManager
  processed : List ℕ
  acks : List AckFrame
deriving DecidableEq, Repr

namespace Reception

/-- What happens to a connection that receives. -/
inductive Event
  | packet (packetNumber : ℕ) (time : ℤ)
  | ack (now : ℤ)
  | dontWait (leastUnacked : ℕ)
deriving DecidableEq, Repr

/-- `OnUnauthenticatedHeader` and `OnPacketHeader`: a packet that is not awaited is discarded. -/
def onPacket (r : Reception) (packetNumber : ℕ) (time : ℤ) : Reception :=
  if r.manager.isAwaitingPacket packetNumber then
    { r with
      manager := r.manager.recordPacketReceived packetNumber time
      processed := packetNumber :: r.processed }
  else r

/-- `GetUpdatedAckFrame`, and the frame is sent. -/
def onAck (r : Reception) (now : ℤ) : Reception :=
  { r with
    manager := r.manager.getUpdatedAckFrame now
    acks := (r.manager.getUpdatedAckFrame now).ackFrame :: r.acks }

/-- One event.  Packet numbers begin with one; what the peer does not wait for lies below a packet
that has been processed (`ValidateStopWaitingFrame`). -/
def step (r : Reception) : Event → Option Reception
  | .packet packetNumber time =>
    if 0 < packetNumber ∧ packetNumber + 1 < 2 ^ 64 then some (r.onPacket packetNumber time)
    else none
  | .ack now => some (r.onAck now)
  | .dontWait leastUnacked =>
    if leastUnacked ≤ r.manager.ackFrame.largestObserved then
      some { r with manager := r.manager.dontWaitForPacketsBefore leastUnacked }
    else none

/-- Nothing has arrived. -/
def init (useDeque : Bool) (maxAckRanges : ℕ) : Reception := ⟨.new useDeque maxAckRanges, [], []⟩

end Reception

/-! ## Dropping intervals -/

namespace PacketNumberQueue

variable {q q' : PacketNumberQueue} {S : Set ℕ} {first : Interval ℕ} {rest : List (Interval ℕ)}

theorem ranges_removeSmallestInterval (h : q.Holds S) (hr : q.ranges = first :: rest)
    (hq : q.removeSmallestInterval = some q') : q'.ranges = rest := by
  have hfirst : Represents (first :: rest) S := hr ▸ h
  exact (removeSmallestInterval_holds h hq).unique hfirst.tail

theorem exists_two {k : ℕ} (hk : 0 < k) (hlt : k < q.numIntervals) :
    ∃ first second rest, q.ranges = first :: second :: rest := by
  unfold numIntervals at hlt
  rcases hr : q.ranges with _ | ⟨first, _ | ⟨second, rest⟩⟩
  · rw [hr] at hlt
    exact absurd hlt (Nat.not_lt_zero k)
  · rw [hr, List.length_singleton] at hlt
    exact absurd (Nat.lt_one_iff.1 hlt) hk.ne'
  · exact ⟨first, second, rest, rfl⟩

/-- What is left of a queue when its lowest intervals are dropped: all from a number on, up to
which there is at least the largest one. -/
theorem trim_holds (k : ℕ) : ∀ (fuel : ℕ) (q : PacketNumberQueue) (S : Set ℕ), q.Holds S →
    ∃ c, (q.trim k fuel).Holds {n ∈ S | c ≤ n} ∧ (k = 0 → c = 0) ∧
      (∀ m, IsGreatest S m → c ≤ m) ∧
      (0 < k → q.numIntervals ≤ fuel → (q.trim k fuel).numIntervals ≤ k)
  | 0, q, S, h => by
    refine ⟨0, ?_, fun _ => rfl, fun _ _ => Nat.zero_le _, fun _ hn => hn.trans (Nat.zero_le k)⟩
    simpa [trim] using h
  | fuel + 1, q, S, h => by
    unfold trim
    split
    case isFalse hfew =>
      refine ⟨0, by simpa using h, fun _ => rfl, fun _ _ => Nat.zero_le _, fun hk _ => ?_⟩
      exact not_lt.1 fun hlt => hfew ⟨hk, hlt⟩
    case isTrue hmany =>
      -- At least two intervals are there: the first one goes, and the largest number stays.
      obtain ⟨hk, hlt⟩ := hmany
      obtain ⟨first, second, rest, hr⟩ := exists_two hk hlt
      have hrep : Represents (first :: second :: rest) S := hr ▸ h
      obtain ⟨q', hq'⟩ : ∃ q', q.removeSmallestInterval = some q' := by
        refine Option.ne_none_iff_exists'.1 fun hnone => ?_
        rw [removeSmallestInterval_eq_none h] at hnone
        exact absurd (hnone ▸ hrep.isLeast.1) (Set.notMem_empty _)
      have hset : S \ firstBlock S = {n ∈ S | first.2 ≤ n} := by
        ext n
        rw [hrep.firstBlock_eq, Set.mem_sdiff, Set.mem_ofPred_eq, Set.mem_ofPred_eq]
        refine and_congr_right fun hn => ?_
        have := hrep.isLeast.2 hn
        omega
      have h' : q'.Holds {n ∈ S | first.2 ≤ n} := hset ▸ removeSmallestInterval_holds h hq'
      have hr' := ranges_removeSmallestInterval h hr hq'
      obtain ⟨c, hc, h0, hmax, hnum⟩ := trim_holds k fuel q' _ h'
      have hmaxS : ∀ m, IsGreatest S m → first.2 ≤ m ∧ IsGreatest {n ∈ S | first.2 ≤ n} m := by
        intro m hm
        have hsecond : second.1 ∈ S := (hrep.mem_iff _).1 (covered_cons.2 (.inr (covered_cons.2
          (.inl ⟨le_rfl, hrep.separated.tail.lt second (List.mem_cons_self ..)⟩))))
        have hlt' := (List.pairwise_cons.1 hrep.separated.apart).1 second (List.mem_cons_self ..)
        have hle := hm.2 hsecond
        exact ⟨by omega, ⟨⟨hm.1, by omega⟩, fun n hn => hm.2 hn.1⟩⟩
      rw [hq']
      refine ⟨Max.max first.2 c, ?_, fun hk0 => absurd hk0 hk.ne', fun m hm => ?_, fun _ hn => ?_⟩
      · have hset' : {n ∈ S | Max.max first.2 c ≤ n} = {n ∈ {n ∈ S | first.2 ≤ n} | c ≤ n} := by
          ext n
          simp only [Set.mem_ofPred_eq, max_le_iff, and_assoc]
        rw [hset']
        exact hc
      · exact max_le (hmaxS m hm).1 (hmax m (hmaxS m hm).2)
      · refine hnum hk ?_
        unfold numIntervals at hn ⊢
        rw [hr] at hn
        rw [hr']
        exact Nat.le_of_succ_le_succ hn

end PacketNumberQueue

/-! ## The frame -/

/-- The largest number of a set, or zero. -/
def Tops (S : Set ℕ) (m : ℕ) : Prop := S = ∅ ∧ m = 0 ∨ IsGreatest S m

/-- The lowest numbers go. -/
theorem Tops.above {S : Set ℕ} {m c : ℕ} (h : Tops S m) (hc : IsGreatest S m → c ≤ m) :
    Tops {n ∈ S | c ≤ n} m := by
  rcases h with ⟨hS, hm⟩ | hmax
  · exact .inl ⟨by rw [hS]; simp, hm⟩
  · exact .inr ⟨⟨hmax.1, hc hmax⟩, fun n hn => hmax.2 hn.1⟩

/-- **The frame of a manager**: the packets in it are awaited by the peer, and the largest one is
in it. -/
structure Frame (m : ReceivedPacketManager) (S : Set ℕ) : Prop where
  holds : m.ackFrame.packets.Holds S
  pos : ∀ n ∈ S, 0 < n
  ge : ∀ n ∈ S, m.peerLeastPacketAwaitingAck ≤ n
  largest : Tops S m.ackFrame.largestObserved
  least_le : m.peerLeastPacketAwaitingAck ≤ m.ackFrame.largestObserved

namespace Frame

variable {m : ReceivedPacketManager} {S : Set ℕ} {n k : ℕ}

theorem le_largest (h : Frame m S) (hn : n ∈ S) : n ≤ m.ackFrame.largestObserved := by
  rcases h.largest with ⟨hS, -⟩ | hmax
  · exact absurd (hS ▸ hn) (Set.notMem_empty n)
  · exact hmax.2 hn

theorem new (useDeque : Bool) (maxAckRanges : ℕ) : Frame (.new useDeque maxAckRanges) ∅ where
  holds := PacketNumberQueue.init_holds useDeque
  pos := fun _ h => absurd h (Set.notMem_empty _)
  ge := fun _ h => absurd h (Set.notMem_empty _)
  largest := .inl ⟨rfl, rfl⟩
  least_le := le_rfl

/-- A packet is awaited if the frame does not have it, and the peer has not given it up. -/
theorem isAwaitingPacket_iff (h : Frame m S) :
    m.isAwaitingPacket n = true ↔ m.peerLeastPacketAwaitingAck ≤ n ∧ n ∉ S := by
  unfold ReceivedPacketManager.isAwaitingPacket
  rw [Bool.and_eq_true, decide_eq_true_iff, Bool.not_eq_true', ← Bool.not_eq_true,
    h.holds.contains_iff]

/-- A packet is recorded. -/
theorem recordPacketReceived (h : Frame m S) (time : ℤ) (hn : 0 < n) (hfit : n + 1 < 2 ^ 64)
    (haw : m.isAwaitingPacket n = true) :
    Frame (m.recordPacketReceived n time) (insert n S) := by
  obtain ⟨hge, -⟩ := h.isAwaitingPacket_iff.1 haw
  have hle : ∀ k ∈ S, k ≤ m.ackFrame.largestObserved := fun k hk => h.le_largest hk
  refine ⟨PacketNumberQueue.add_holds h.holds hfit, ?_, ?_, .inr ?_, ?_⟩
  · exact Set.forall_mem_insert.2 ⟨hn, h.pos⟩
  · exact Set.forall_mem_insert.2 ⟨hge, h.ge⟩
  · change IsGreatest _ (if m.ackFrame.largestObserved < n then n else m.ackFrame.largestObserved)
    split_ifs with hlt
    · exact ⟨Set.mem_insert n S, Set.forall_mem_insert.2 ⟨le_rfl, fun k hk =>
        (hle k hk).trans hlt.le⟩⟩
    · rcases h.largest with ⟨-, h0⟩ | hmax
      · omega
      · exact ⟨Set.mem_insert_of_mem n hmax.1, Set.forall_mem_insert.2 ⟨not_lt.1 hlt, hmax.2⟩⟩
  · change m.peerLeastPacketAwaitingAck ≤
      if m.ackFrame.largestObserved < n then n else m.ackFrame.largestObserved
    have := h.least_le
    split_ifs <;> omega

/-- A frame is sent, perhaps without its lowest intervals. -/
theorem getUpdatedAckFrame (h : Frame m S) (now : ℤ) :
    ∃ c, Frame (m.getUpdatedAckFrame now) {n ∈ S | c ≤ n} ∧ (m.maxAckRanges = 0 → c = 0) ∧
      (0 < m.maxAckRanges →
        (m.getUpdatedAckFrame now).ackFrame.packets.numIntervals ≤ m.maxAckRanges) := by
  obtain ⟨c, hc, h0, hmax, hnum⟩ := PacketNumberQueue.trim_holds m.maxAckRanges
    m.ackFrame.packets.numIntervals m.ackFrame.packets S h.holds
  exact ⟨c, ⟨hc, fun n hn => h.pos n hn.1, fun n hn => h.ge n hn.1, h.largest.above (hmax _),
    h.least_le⟩, h0, fun hk => hnum hk le_rfl⟩

/-- The peer gives up packets below one that has arrived. -/
theorem dontWaitForPacketsBefore (h : Frame m S) (hk : k ≤ m.ackFrame.largestObserved) :
    Frame (m.dontWaitForPacketsBefore k) {n ∈ S | k ≤ n} := by
  unfold ReceivedPacketManager.dontWaitForPacketsBefore
  split
  case isTrue hlt =>
    have hset : {n ∈ S | k ≤ n} = S \ Set.Iio k := by
      ext n
      simp only [Set.mem_ofPred_eq, Set.mem_sdiff, Set.mem_Iio, not_lt]
    exact ⟨hset ▸ PacketNumberQueue.removeUpTo_holds h.holds, fun n hn => h.pos n hn.1,
      fun n hn => hn.2, h.largest.above fun _ => hk, hk⟩
  case isFalse hge =>
    have hset : {n ∈ S | k ≤ n} = S :=
      Set.ext fun n => and_iff_left_of_imp fun hn => (not_lt.1 hge).trans (h.ge n hn)
    rw [hset]
    exact h

/-- A packet is missing if one above it has arrived, and the peer waits for it. -/
def Missing (m : ReceivedPacketManager) (S : Set ℕ) (n : ℕ) : Prop :=
  max 1 m.peerLeastPacketAwaitingAck ≤ n ∧ n < m.ackFrame.largestObserved ∧ n ∉ S

/-- The last interval, which ends with the largest packet. -/
theorem last_interval (h : Frame m S) {g : Interval ℕ} {l : List (Interval ℕ)}
    (hr : m.ackFrame.packets.ranges = l ++ [g]) :
    g.1 < g.2 ∧ m.ackFrame.largestObserved + 1 = g.2 ∧ (∀ n, g.1 ≤ n → n < g.2 → n ∈ S) ∧
      ∀ n, n + 1 = g.1 → n ∉ S := by
  have hrep : Represents (l ++ [g]) S := hr ▸ h.holds
  have hlt := hrep.separated.right.lt g (List.mem_singleton_self g)
  have hin : ∀ n, g.1 ≤ n → n < g.2 → n ∈ S := fun n h₁ h₂ =>
    (hrep.mem_iff n).1 ⟨g, List.mem_append_right _ (List.mem_singleton_self g), h₁, h₂⟩
  refine ⟨hlt, ?_, hin, fun n hn hmem => ?_⟩
  · have hle := h.le_largest (hin (g.2 - 1) (by omega) (by omega))
    rcases h.largest with ⟨hS, -⟩ | hmax
    · exact absurd (hS ▸ hin g.1 le_rfl hlt) (Set.notMem_empty _)
    · obtain ⟨x, hx, hxin⟩ := (hrep.mem_iff _).2 hmax.1
      have := hrep.separated.le_last hx
      omega
  · obtain ⟨x, hx, hxin⟩ := (hrep.mem_iff n).2 hmem
    rcases List.mem_append.1 hx with hx | hx
    · have := hrep.separated.lt_of_mem_before hx
      omega
    · rw [List.mem_singleton.1 hx] at hxin
      omega

/-- **`HasMissingPackets`.** -/
theorem hasMissingPackets_iff (h : Frame m S) :
    m.hasMissingPackets = true ↔ ∃ n, Missing m S n := by
  unfold ReceivedPacketManager.hasMissingPackets PacketNumberQueue.numIntervals
    PacketNumberQueue.min
  have hrep : Represents m.ackFrame.packets.ranges S := h.holds
  rcases hr : m.ackFrame.packets.ranges with _ | ⟨g, _ | ⟨g', rest⟩⟩
  · -- Nothing has arrived.
    refine iff_of_false (by simp) fun ⟨n, _, hlt, _⟩ => ?_
    rw [hr] at hrep
    rcases h.largest with ⟨-, h0⟩ | hmax
    · omega
    · exact absurd (Represents.nil_iff.1 hrep ▸ hmax.1) (Set.notMem_empty _)
  · obtain ⟨hg, hlast, hin, -⟩ := h.last_interval (l := []) hr
    rw [hr] at hrep
    simp only [List.length_singleton, lt_irrefl, decide_false, Bool.false_or, List.head?_cons,
      Option.map_some, Option.any_some, decide_eq_true_eq]
    constructor
    · intro hlt
      refine ⟨g.1 - 1, by omega, by omega, fun hmem => ?_⟩
      have := hrep.isLeast.2 hmem
      omega
    · rintro ⟨n, hge, hlt, hn⟩
      have : ¬ g.1 ≤ n := fun hle => hn (hin n hle (by omega))
      omega
  · -- Between the first two intervals a packet is missing.
    rw [hr] at hrep
    have hg := hrep.separated.lt g (List.mem_cons_self ..)
    have hg' := hrep.separated.tail.lt g' (List.mem_cons_self ..)
    have hlt := (List.pairwise_cons.1 hrep.separated.apart).1 g' (List.mem_cons_self ..)
    have hmem : g'.1 ∈ S := (hrep.mem_iff _).1 (covered_cons.2 (.inr (covered_cons.2
      (.inl ⟨le_rfl, hg'⟩))))
    have hpos := h.pos _ hrep.isLeast.1
    have hge := h.ge _ hrep.isLeast.1
    have hle := h.le_largest hmem
    refine iff_of_true (by simp) ⟨g.2, by omega, by omega, fun hn => ?_⟩
    exact hrep.separated.not_covered_end ((hrep.mem_iff _).2 hn)

/-- **`HasNewMissingPackets`**: one of the four packets before the largest is missing. -/
theorem hasNewMissingPackets_iff (h : Frame m S) :
    m.hasNewMissingPackets = true ↔ ∃ n, Missing m S n ∧
      m.ackFrame.largestObserved ≤ n + kMaxPacketsAfterNewMissing := by
  unfold ReceivedPacketManager.hasNewMissingPackets PacketNumberQueue.lastIntervalLength
  rw [Bool.and_eq_true, h.hasMissingPackets_iff]
  rcases List.eq_nil_or_concat' m.ackFrame.packets.ranges with hr | ⟨l, g, hr⟩
  · have hrep : Represents m.ackFrame.packets.ranges S := h.holds
    rw [hr] at hrep ⊢
    refine iff_of_false (fun hc => Bool.false_ne_true hc.2) fun ⟨n, ⟨_, hlt, _⟩, _⟩ => ?_
    rcases h.largest with ⟨-, h0⟩ | hmax
    · omega
    · exact absurd (Represents.nil_iff.1 hrep ▸ hmax.1) (Set.notMem_empty _)
  · obtain ⟨hg, hlast, hin, hbefore⟩ := h.last_interval hr
    have hbelow : ∀ n, Missing m S n → n < g.1 := fun n hn =>
      not_le.1 fun hle => hn.2.2 (hin n hle (by have := hn.2.1; omega))
    rw [hr, List.getLast?_append_of_ne_nil _ (List.cons_ne_nil _ _), List.getLast?_singleton,
      Option.map_some, Option.any_some, decide_eq_true_iff]
    unfold kMaxPacketsAfterNewMissing
    constructor
    · rintro ⟨⟨n, hn⟩, hshort⟩
      have hlt := hbelow n hn
      refine ⟨g.1 - 1, ⟨?_, by omega, hbefore _ (by omega)⟩, by omega⟩
      exact hn.1.trans (by omega)
    · rintro ⟨n, hn, hnear⟩
      have hlt := hbelow n hn
      exact ⟨⟨n, hn⟩, by omega⟩

end Frame

/-! ## What a connection processes and acknowledges -/

namespace Reception

variable {r t : Reception} {n k : ℕ} {time now : ℤ} {es : List Event}

/-- A frame acknowledges what has been processed, up to the largest packet in it. -/
def Truthful (processed : List ℕ) (f : AckFrame) : Prop :=
  ∃ T : Set ℕ, f.packets.Holds T ∧ (∀ n ∈ T, n ∈ processed) ∧ Tops T f.largestObserved

/-- The packets that have been processed and that the peer still waits for. -/
def current (r : Reception) : Set ℕ :=
  {n | n ∈ r.processed ∧ r.manager.peerLeastPacketAwaitingAck ≤ n}

/-- **What holds in every state of a connection that receives.** -/
structure Sound (r : Reception) : Prop where
  /-- Where no interval is dropped, the frame has every packet. -/
  frame : ∃ S, Frame r.manager S ∧ (∀ n ∈ S, n ∈ r.processed) ∧
    (r.manager.maxAckRanges = 0 → S = r.current)
  nodup : r.manager.maxAckRanges = 0 → r.processed.Nodup
  le_largest : ∀ n ∈ r.processed, n ≤ r.manager.ackFrame.largestObserved
  truthful : ∀ f ∈ r.acks, Truthful r.processed f
  ranges : ∀ f ∈ r.acks, 0 < r.manager.maxAckRanges →
    f.packets.numIntervals ≤ r.manager.maxAckRanges

theorem Truthful.mono {processed processed' : List ℕ} {f : AckFrame}
    (h : Truthful processed f) (hsub : ∀ n ∈ processed, n ∈ processed') :
    Truthful processed' f := by
  obtain ⟨T, hT, hp, hl⟩ := h
  exact ⟨T, hT, fun n hn => hsub n (hp n hn), hl⟩

theorem Sound.onPacket (h : Sound r) (hn : 0 < n) (hfit : n + 1 < 2 ^ 64) :
    Sound (r.onPacket n time) := by
  unfold Reception.onPacket
  split
  case isFalse => exact h
  case isTrue haw =>
    obtain ⟨S, hS, hp, hex⟩ := h.frame
    obtain ⟨hge, hnew⟩ := hS.isAwaitingPacket_iff.1 haw
    have hframe := hS.recordPacketReceived time hn hfit haw
    refine ⟨⟨_, hframe, ?_, fun h0 => ?_⟩, fun h0 => ?_, ?_, fun f hf => ?_, h.ranges⟩
    · refine Set.forall_mem_insert.2 ⟨List.mem_cons_self .., fun k hk => ?_⟩
      exact List.mem_cons_of_mem n (hp k hk)
    · ext k
      change k = n ∨ k ∈ S ↔ k ∈ n :: r.processed ∧ r.manager.peerLeastPacketAwaitingAck ≤ k
      rw [hex h0, List.mem_cons, or_and_right]
      refine or_congr_left (and_iff_left_of_imp ?_).symm
      rintro rfl
      exact hge
    · exact List.nodup_cons.2 ⟨fun hmem => hnew (hex h0 ▸ ⟨hmem, hge⟩), h.nodup h0⟩
    · intro k hk
      change k ≤ if r.manager.ackFrame.largestObserved < n then n else
        r.manager.ackFrame.largestObserved
      rcases List.mem_cons.1 hk with rfl | hk
      · split_ifs <;> omega
      · have := h.le_largest k hk
        split_ifs <;> omega
    · exact (h.truthful f hf).mono fun k hk => List.mem_cons_of_mem n hk

theorem Sound.onAck (h : Sound r) : Sound (r.onAck now) := by
  obtain ⟨S, hS, hp, hex⟩ := h.frame
  obtain ⟨c, hc, hzero, hnum⟩ := hS.getUpdatedAckFrame now
  refine ⟨⟨_, hc, fun n hn => hp n hn.1, fun h0 => ?_⟩, h.nodup, h.le_largest, ?_,
    List.forall_mem_cons.2 ⟨hnum, h.ranges⟩⟩
  · exact (Set.ext fun n => and_iff_left (hzero h0 ▸ Nat.zero_le n)).trans (hex h0)
  · exact List.forall_mem_cons.2 ⟨⟨_, hc.holds, fun n hn => hp n hn.1, hc.largest⟩, h.truthful⟩

/-- What giving up packets does to the rest of the manager. -/
theorem dontWait_same (m : ReceivedPacketManager) (k : ℕ) :
    (m.dontWaitForPacketsBefore k).ackFrame.largestObserved = m.ackFrame.largestObserved ∧
      (m.dontWaitForPacketsBefore k).maxAckRanges = m.maxAckRanges ∧
      (m.dontWaitForPacketsBefore k).peerLeastPacketAwaitingAck =
        max m.peerLeastPacketAwaitingAck k := by
  unfold ReceivedPacketManager.dontWaitForPacketsBefore
  split
  case isTrue hlt => exact ⟨rfl, rfl, (max_eq_right hlt.le).symm⟩
  case isFalse hge => exact ⟨rfl, rfl, (max_eq_left (not_lt.1 hge)).symm⟩

theorem Sound.dontWait (h : Sound r) (hk : k ≤ r.manager.ackFrame.largestObserved) :
    Sound { r with manager := r.manager.dontWaitForPacketsBefore k } := by
  obtain ⟨S, hS, hp, hex⟩ := h.frame
  obtain ⟨hlargest, hranges, hleast⟩ := dontWait_same r.manager k
  refine ⟨⟨_, hS.dontWaitForPacketsBefore hk, fun n hn => hp n hn.1, fun h0 => ?_⟩,
    fun h0 => h.nodup (hranges ▸ h0), hlargest.symm ▸ h.le_largest, h.truthful,
    hranges.symm ▸ h.ranges⟩
  ext n
  change n ∈ S ∧ k ≤ n ↔ n ∈ r.processed ∧ _ ≤ n
  rw [hex (hranges ▸ h0), hleast, max_le_iff, ← and_assoc]
  rfl

/-- What an event can do. -/
theorem step_cases {e : Event} (hs : r.step e = some t) :
    (∃ n time, 0 < n ∧ n + 1 < 2 ^ 64 ∧ t = r.onPacket n time) ∨ (∃ now, t = r.onAck now) ∨
      ∃ k, k ≤ r.manager.ackFrame.largestObserved ∧
        t = { r with manager := r.manager.dontWaitForPacketsBefore k } := by
  cases e with
  | packet n time =>
    obtain ⟨hc, he⟩ := Option.ite_none_right_eq_some.1 hs
    exact .inl ⟨n, time, hc.1, hc.2, (Option.some.inj he).symm⟩
  | ack now => exact .inr (.inl ⟨now, (Option.some.inj hs).symm⟩)
  | dontWait k =>
    obtain ⟨hc, he⟩ := Option.ite_none_right_eq_some.1 hs
    exact .inr (.inr ⟨k, hc, (Option.some.inj he).symm⟩)

/-- A step keeps what holds. -/
theorem Sound.step {e : Event} (h : Sound r) (hs : r.step e = some t) : Sound t := by
  rcases step_cases hs with ⟨n, time, hn, hfit, rfl⟩ | ⟨now, rfl⟩ | ⟨k, hk, rfl⟩
  · exact h.onPacket hn hfit
  · exact h.onAck
  · exact h.dontWait hk

theorem maxAckRanges_step {e : Event} (hs : r.step e = some t) :
    t.manager.maxAckRanges = r.manager.maxAckRanges := by
  rcases step_cases hs with ⟨n, time, -, -, rfl⟩ | ⟨now, rfl⟩ | ⟨k, -, rfl⟩
  · unfold Reception.onPacket
    split <;> rfl
  · rfl
  · exact (dontWait_same r.manager k).2.1

theorem sound_init (useDeque : Bool) (maxAckRanges : ℕ) : Sound (init useDeque maxAckRanges) where
  frame := by
    refine ⟨∅, Frame.new useDeque maxAckRanges, fun _ h => absurd h (Set.notMem_empty _),
      fun _ => ?_⟩
    exact (Set.eq_empty_iff_forall_notMem.2 fun n hn => absurd hn.1 List.not_mem_nil).symm
  nodup := fun _ => List.nodup_nil
  le_largest := fun _ h => absurd h List.not_mem_nil
  truthful := fun _ h => absurd h List.not_mem_nil
  ranges := fun _ h => absurd h List.not_mem_nil

/-- **What the manager answers where no interval is dropped.** -/
structure Answers (r : Reception) : Prop where
  nodup : r.processed.Nodup
  contains_iff : ∀ n, r.manager.ackFrame.packets.contains n = true ↔ n ∈ r.current
  awaiting_iff : ∀ n, r.manager.isAwaitingPacket n = true ↔
    r.manager.peerLeastPacketAwaitingAck ≤ n ∧ n ∉ r.processed
  missing_iff : r.manager.hasMissingPackets = true ↔ ∃ n, Frame.Missing r.manager r.current n
  newMissing_iff : r.manager.hasNewMissingPackets = true ↔ ∃ n,
    Frame.Missing r.manager r.current n ∧
      r.manager.ackFrame.largestObserved ≤ n + kMaxPacketsAfterNewMissing

theorem Sound.answers (h : Sound r) (h0 : r.manager.maxAckRanges = 0) : Answers r := by
  obtain ⟨S, hS, -, hex⟩ := h.frame
  obtain rfl := hex h0
  exact
    { nodup := h.nodup h0
      contains_iff := fun _ => hS.holds.contains_iff
      awaiting_iff := fun _ => hS.isAwaitingPacket_iff.trans
        (and_congr_right fun hge => not_congr (and_iff_left hge))
      missing_iff := hS.hasMissingPackets_iff
      newMissing_iff := hS.hasNewMissingPackets_iff }

/-- **A connection acknowledges what it has processed.**  Every frame that it sends is true of the
packets that were processed, and has no more intervals than it may.  Where there is no such limit,
no packet is processed twice, and the manager knows every packet that is still awaited. -/
theorem always_acknowledges (useDeque : Bool) (maxAckRanges : ℕ) :
    Always step (fun r => Sound r ∧ (maxAckRanges = 0 → Answers r))
      (init useDeque maxAckRanges) es := by
  have h : Always step (fun r => Sound r ∧ r.manager.maxAckRanges = maxAckRanges)
      (init useDeque maxAckRanges) es := by
    refine always_of_step (fun r e t hr hs => ?_) ⟨sound_init useDeque maxAckRanges, rfl⟩
    exact ⟨hr.1.step hs, (maxAckRanges_step hs).trans hr.2⟩
  exact h.mono fun r hr => ⟨hr.1, fun h0 => hr.1.answers (hr.2.trans h0)⟩

/-- With a limit, a packet whose interval has been dropped is processed again. -/
example :
    (run step (init false 1) [.packet 1 0, .packet 3 1, .ack 2, .packet 1 3]).map
      (·.processed) = some [1, 3, 1] := by
  decide

end Reception

end Acks
end QuicNs3
