/-
# Recovery of outstanding data

Model of how `QuicConnection::OnRetransmissionTimeout` drives the sent packet
manager: the timeout, the packets written after it, and then
`MaybeRetransmitTailLossProbe`.  The alarm fires only where it was set, with packets
in flight and nothing queued by an earlier timeout, which the manager checks on
entry.

Data in flight is recovered by the timer or by a queued retransmission.  A timeout
counts what it queues in `pending_timer_transmission_count_`, sending a packet
lowers the count, and the timer is held back until it is zero.  An ack, neutering
and the cancellation of a stream take entries off the queue and leave the count as
it is.  So a probe that is acknowledged before it is sent leaves other packets
without timer and without queue (`exists_unrecoverable`).

`Covered` is the condition under which that does not happen: of what is queued, no
fewer entries outlive the operation (`survives`) than the count says.  Under it
there is always a way to recover (`always_recoverable`).
-/

import QuicNs3.Packets.Fading
import QuicNs3.Packets.Timer
import Mathlib.Data.List.Nodup

namespace QuicNs3
namespace Packets

open Lib

/-- A packet that is sent. -/
structure Sending where
  packet : SerializedPacket
  originalPacketNumber : ℕ
  sentTime : ℤ
  type : TransmissionType
  inFlight : Bool
  deriving Repr, DecidableEq

/-- What happens to the manager between two states the connection waits in. -/
inductive Event
  | send (sending : Sending)
  | ack (frame : AckFrame) (ackReceiveTime now : ℤ)
  | retransmissionTimeout (now : ℤ) (writes : List Sending)
  | neuterUnencryptedPackets
  | retransmitUnackedPackets (initialOnly : Bool)
  | cancelRetransmissionsForStream (streamId : ℕ)
  | setHandshakeConfirmed
  deriving Repr, DecidableEq

namespace SentPacketManager

variable {ρ : Type} (R : RttStats ρ)

/-- A packet is sent; packets are not sent at time zero. -/
def sendPacket (s : SentPacketManager ρ) (p : Sending) : Option (SentPacketManager ρ) :=
  if 0 < p.sentTime then
    s.step R (.send p.packet p.originalPacketNumber p.sentTime p.type p.inFlight)
  else none

/-- `QuicConnection::OnRetransmissionTimeout`, which writes `writes` after the
timeout. -/
def onTimeout (s : SentPacketManager ρ) (now : ℤ) (writes : List Sending) :
    Option (SentPacketManager ρ) :=
  if s.unackedPackets.hasInFlightPackets ∧ s.pendingTimerTransmissionCount = 0 then
    (run (sendPacket R) (s.onRetransmissionTimeout R now) writes).map fun u =>
      u.maybeRetransmitTailLossProbe.2
  else none

/-- One event. -/
def recoveryStep (s : SentPacketManager ρ) : Event → Option (SentPacketManager ρ)
  | .send p => s.sendPacket R p
  | .ack frame ackReceiveTime now => s.step R (.ack frame ackReceiveTime now)
  | .retransmissionTimeout now writes => s.onTimeout R now writes
  | .neuterUnencryptedPackets => s.step R .neuterUnencryptedPackets
  | .retransmitUnackedPackets initialOnly => s.step R (.retransmitUnackedPackets initialOnly)
  | .cancelRetransmissionsForStream streamId =>
    s.step R (.cancelRetransmissionsForStream streamId)
  | .setHandshakeConfirmed => s.step R .setHandshakeConfirmed

/-- A queued retransmission outlives an event: it is not the newest transmission of
an acknowledged packet nor a loss that is undone; it is encrypted when packets are
neutered; it has frames of another stream when a stream is cancelled. -/
def survives (s : SentPacketManager ρ) (e : Event) (q : ℕ × TransmissionType) : Bool :=
  match e with
  | .ack frame _ _ =>
    !(s.options.undoPendingRetransmits && decide (q.2 = .lossRetransmission)) &&
      frame.packets.all fun n => decide (s.getNewestRetransmission n ≠ some q.1)
  | .neuterUnencryptedPackets =>
    (s.unackedPackets.packets.get? q.1).any fun i => decide (i.encryptionLevel ≠ .none)
  | .cancelRetransmissionsForStream streamId =>
    (s.unackedPackets.packets.get? q.1).any fun i =>
      i.retransmittableFrames.any fun f => decide (f ≠ .stream streamId)
  | _ => true

/-- What a timeout has queued is covered: when packets are acknowledged, neutered or
cancelled, as many queued retransmissions outlive it as wait to be sent. -/
def Covered (s : SentPacketManager ρ) (e : Event) : Prop :=
  match e with
  | .ack .. | .neuterUnencryptedPackets | .cancelRetransmissionsForStream _ =>
    s.pendingTimerTransmissionCount ≤ (s.pendingRetransmissions.filter (s.survives e)).length
  | _ => True

instance (s : SentPacketManager ρ) : (e : Event) → Decidable (s.Covered e)
  | .ack .. | .neuterUnencryptedPackets | .cancelRetransmissionsForStream _ =>
    inferInstanceAs (Decidable (_ ≤ _))
  | .send _ | .retransmissionTimeout .. | .retransmitUnackedPackets _ | .setHandshakeConfirmed =>
    .isTrue trivial

/-- Data in flight can be recovered: the timer is set, or a retransmission is
queued. -/
def Recoverable (T : TimerStats ρ) (options : TimerOptions) (now : ℤ)
    (s : SentPacketManager ρ) : Prop :=
  Outstanding s → s.getRetransmissionTime T options now ≠ 0 ∨ s.pendingRetransmissions ≠ []

instance (s : SentPacketManager ρ) : Decidable (Outstanding s) :=
  inferInstanceAs (Decidable (_ = true))

instance (T : TimerStats ρ) (options : TimerOptions) (now : ℤ) (s : SentPacketManager ρ) :
    Decidable (Recoverable T options now s) :=
  inferInstanceAs (Decidable (Outstanding s → _))

end SentPacketManager

open SentPacketManager (newestFrom Covered Recoverable)

variable {ρ : Type} {R : RttStats ρ} {s s' s'' t : SentPacketManager ρ} {m m' : UnackedPacketMap}
  {n k : ℕ} {i : TransmissionInfo} {q : ℕ × TransmissionType}

/-! ## Sizes and send times -/

theorem Stamped.carries (h : Stamped m) (hc : Carries Lands m m') : Stamped m' := by
  intro n i' hi' hor
  obtain ⟨i, hi, hl⟩ := hc.get? n i' hi'
  rw [hl.bytesSent_eq, hl.sentTime_eq]
  refine h n i hi ?_
  rcases hor with hfl | hfr
  · exact .inl (hl.inFlight hfl)
  · exact .inr fun h0 => hfr (hl.frames h0)

theorem Stamped.send (hS : Sound m) (h : Stamped m) {p : Sending}
    (hp : m.largestSentPacket < p.packet.packetNumber) (hlen : 0 < p.packet.encryptedLength)
    (htime : 0 < p.sentTime) :
    Stamped (m.addSentPacket p.packet p.originalPacketNumber p.type p.sentTime p.inFlight) := by
  intro n i' hi' hor
  rcases addSentPacket_entries hS hp p.originalPacketNumber p.type p.sentTime p.inFlight hi' with
    ⟨i, hi, hf, hfl⟩ | ⟨-, hf, hfl⟩ | ⟨-, hb, ht⟩
  · rw [hf.bytesSent_eq, hf.sentTime_eq]
    refine h n i hi ?_
    rcases hor with hfl' | hfr
    · exact .inl (hfl ▸ hfl')
    · exact .inr fun h0 => hfr (hf.frames h0)
  · rcases hor with hfl' | hfr
    · exact absurd (hfl.symm.trans hfl') Bool.false_ne_true
    · exact absurd (hf.frames rfl) hfr
  · rw [hb, ht]
    exact ⟨hlen, htime⟩

/-- A packet that has frames has a size and a send time, so it can be put back in
flight. -/
theorem Stamped.restoreToInFlight (h : Stamped m)
    (hn : ∀ i, m.packets.get? n = some i → i.retransmittableFrames ≠ []) :
    Stamped (m.restoreToInFlight n) := by
  intro k i' hi' hor
  rw [get?_restoreToInFlight] at hi'
  split_ifs at hi' with hkn
  · obtain ⟨i, hi, rfl⟩ := Option.map_eq_some_iff.1 hi'
    exact h n i hi (.inr (hn i hi))
  · exact h k i' hi' hor

/-! ## What an event leaves in the queue -/

/-- An operation that leaves the count of the timer as it is, and the queued
retransmissions with `Q`. -/
structure Spares (Q : ℕ × TransmissionType → Prop) (s s' : SentPacketManager ρ) : Prop where
  carries : Carries Lands s.unackedPackets s'.unackedPackets
  options_eq : s'.options = s.options
  count_eq : s'.pendingTimerTransmissionCount = s.pendingTimerTransmissionCount
  mem : ∀ q ∈ s.pendingRetransmissions, Q q → q ∈ s'.pendingRetransmissions

variable {Q : ℕ × TransmissionType → Prop}

theorem Spares.refl (Q : ℕ × TransmissionType → Prop) (s : SentPacketManager ρ) : Spares Q s s :=
  ⟨carries_refl _, rfl, rfl, fun _ hq _ => hq⟩

theorem Spares.trans (h : Spares Q s s') (h' : Spares Q s' s'') : Spares Q s s'' :=
  ⟨h.carries.trans h'.carries, h'.options_eq.trans h.options_eq, h'.count_eq.trans h.count_eq,
    fun q hq hQ => h'.mem q (h.mem q hq hQ) hQ⟩

theorem mem_erasePending (hq : q ∈ s.pendingRetransmissions) (hne : q.1 ≠ n) :
    q ∈ (s.erasePending n).pendingRetransmissions :=
  List.mem_filter.2 ⟨hq, decide_eq_true hne⟩

/-- The queue after a packet is marked: the entries it had, and one for the packet. -/
theorem markForRetransmission_pending (s : SentPacketManager ρ) (n : ℕ) (type : TransmissionType) :
    (∀ q ∈ s.pendingRetransmissions, q ∈ (s.markForRetransmission n type).pendingRetransmissions) ∧
      n ∈ (s.markForRetransmission n type).pendingRetransmissions.map Prod.fst := by
  unfold SentPacketManager.markForRetransmission
  dsimp only
  split_ifs with hany
  · obtain ⟨q, hq, hn⟩ := List.any_eq_true.1 hany
    exact ⟨fun _ hq => hq, List.mem_map.2 ⟨q, hq, of_decide_eq_true hn⟩⟩
  · exact ⟨fun _ hq => List.mem_append_left _ hq, by simp⟩

theorem markForRetransmission_spares (Q : ℕ × TransmissionType → Prop) (s : SentPacketManager ρ)
    (n : ℕ) (type : TransmissionType) : Spares Q s (s.markForRetransmission n type) :=
  ⟨(markForRetransmission_quiet s n type).carries, rfl, rfl,
    fun q hq _ => (markForRetransmission_pending s n type).1 q hq⟩

theorem markLost_spares (Q : ℕ × TransmissionType → Prop) (s : SentPacketManager ρ) (p : ℕ × ℕ) :
    Spares Q s (s.markLost p) := by
  have hc := (markLost_quiet s p).carries
  unfold SentPacketManager.markLost at hc ⊢
  dsimp only at hc ⊢
  split_ifs at hc ⊢
  · exact ⟨hc, rfl, rfl, fun q hq _ => (markForRetransmission_pending _ p.1 _).1 q hq⟩
  · exact ⟨hc, rfl, rfl, fun _ hq _ => hq⟩

theorem invokeLossDetection_spares (Q : ℕ × TransmissionType → Prop) (s : SentPacketManager ρ)
    (time : ℤ) : Spares Q s (s.invokeLossDetection R time) := by
  unfold SentPacketManager.invokeLossDetection
  dsimp only
  refine List.foldlRecOn (motive := Spares Q s) _ _ ⟨?_, rfl, rfl, fun _ hq _ => hq⟩
    fun u hu p _ => hu.trans (markLost_spares Q u p)
  dsimp only
  split_ifs
  · exact ⟨rfl, fun _ i hi => ⟨i, hi, Lands.refl i⟩⟩
  · exact carries_refl _

theorem maybeInvokeCongestionEvent_spares (Q : ℕ × TransmissionType → Prop)
    (s : SentPacketManager ρ) (updated : Bool) :
    Spares Q s (s.maybeInvokeCongestionEvent updated) := by
  unfold SentPacketManager.maybeInvokeCongestionEvent
  split_ifs
  · exact Spares.refl Q s
  · exact ⟨carries_refl _, rfl, rfl, fun _ hq _ => hq⟩

/-- **A walk that ends at a packet with frames** ended there before links were cut. -/
theorem newestFrom_of_carries (hS : Sound m) (hc : Carries Lands m m')
    (hk : m.packets.get? k = some i) (hne : i.retransmittableFrames ≠ []) (fuel : ℕ)
    (h : newestFrom m' fuel n = some k) : newestFrom m fuel n = some k := by
  induction fuel generalizing n with
  | zero => exact absurd h (by simp [newestFrom])
  | succ fuel ih =>
    unfold newestFrom at h
    cases ha' : m'.packets.get? n with
    | none => exact absurd h (by simp [ha'])
    | some a' =>
      rw [ha'] at h
      dsimp only at h
      obtain ⟨a, ha, hl⟩ := hc.get? n a' ha'
      split_ifs at h with h0
      · have heq : a'.retransmission = a.retransmission :=
          hl.retransmission.resolve_right h0
        unfold newestFrom
        rw [ha]
        dsimp only
        rw [if_pos (heq ▸ h0), ← heq]
        exact ih h
      · obtain rfl : n = k := Option.some.inj h
        exact newestFrom_of_frames hS hk hne fuel

theorem handleNewest_spares (Q : ℕ × TransmissionType → Prop) (s : SentPacketManager ρ) (k n : ℕ)
    (i : TransmissionInfo) (now : ℤ) : Spares Q s (s.handleNewest R k n i now) := by
  unfold SentPacketManager.handleNewest
  split_ifs
  · exact Spares.refl Q s
  · dsimp only
    split_ifs
    · exact ⟨removeFromInFlight_carries _ k, rfl, rfl, fun _ hq _ => hq⟩
    · exact ⟨carries_refl _, rfl, rfl, fun _ hq _ => hq⟩

/-- Handling an acknowledged packet takes its newest transmission off the queue, and
no other. -/
theorem markPacketHandled_spares (s : SentPacketManager ρ) (n : ℕ) (i : TransmissionInfo)
    (now : ℤ) : Spares (fun q => s.getNewestRetransmission n ≠ some q.1) s
      (s.markPacketHandled R n i now) := by
  have hquiet := markPacketHandled_quiet (R := R) s n i now
  unfold SentPacketManager.markPacketHandled at hquiet ⊢
  split at hquiet
  · exact ⟨hquiet.carries, rfl, rfl, fun _ hq _ => hq⟩
  · rename_i newest hnew
    have hspares := handleNewest_spares (R := R) (fun _ => True) (s.erasePending newest) newest n i
      now
    refine ⟨hquiet.carries, hquiet.options_eq, hspares.count_eq, fun q hq hne => ?_⟩
    refine hspares.mem q (mem_erasePending hq fun heq => hne ?_) trivial
    rw [hnew, heq]

/-- **The acknowledgement of packets** leaves the queued retransmissions that are the
newest transmission of none of them. -/
theorem processAck_spares (h : Inv s) (ack : AckFrame) (time now : ℤ) :
    Spares (fun q => ∀ n ∈ ack.packets, s.getNewestRetransmission n ≠ some q.1) s
      (s.processAck R ack time now) := by
  obtain ⟨h₁, -⟩ := observed_inv (R := R) h ack time
  obtain ⟨r, hr⟩ := observed_eq (R := R) s ack time
  unfold SentPacketManager.processAck
  dsimp only
  rw [hr] at h₁ ⊢
  set u : SentPacketManager ρ := { s with
    rttStats := r
    leastPacketAwaitedByPeer := (ack.packets.min?).getD (ack.largestObserved + 1)
    unackedPackets := s.unackedPackets.increaseLargestObserved ack.largestObserved } with hu
  have hloop : Spares (fun q => ∀ n ∈ ack.packets, s.getNewestRetransmission n ≠ some q.1) s
      (u.handleAckForSentPackets R ack now) := by
    refine (forPackets_steady_and (P := Spares _ s) h₁ ?_ fun v n a hv hs ha => ?_).2
    · exact ⟨⟨rfl, fun _ i hi => ⟨i, hi, Lands.refl i⟩⟩, rfl, rfl, fun _ hq _ => hq⟩
    refine ⟨handleAckAt_steady hv.inv ha ack now, ?_⟩
    unfold SentPacketManager.handleAckAt
    split_ifs with _ _ hmem
    · exact hs
    · exact hs
    · have hone := markPacketHandled_spares (R := R) (v.recordAcked n a) n a now
      refine ⟨hs.carries.trans hone.carries, hone.options_eq.trans hs.options_eq,
        hone.count_eq.trans hs.count_eq, fun q hq hnew => ?_⟩
      refine hone.mem q (hs.mem q hq hnew) fun heq => hnew n hmem ?_
      have hlen : v.unackedPackets.packets.items.length =
          s.unackedPackets.packets.items.length := hv.eases.length_eq
      obtain ⟨i, hi, hne, -⟩ := h.queued q hq
      refine newestFrom_of_carries h.sound hs.carries hi hne _ ?_
      rw [← hlen]
      exact heq
    · exact hs
  have hloss := hloop.trans (invokeLossDetection_spares (R := R) _ _ time)
  refine Spares.trans ?_ (maybeInvokeCongestionEvent_spares _ _ _)
  exact ⟨hloss.carries, hloss.options_eq, hloss.count_eq, hloss.mem⟩

/-- A queued retransmission that is not undone. -/
theorem mem_undoFrom {l : List (ℕ × TransmissionType)} (hq : q ∈ l)
    (h : ¬ (s.options.undoPendingRetransmits = true ∧ q.2 = .lossRetransmission)) :
    q ∈ (s.undoFrom l).pendingRetransmissions := by
  induction l generalizing s with
  | nil => exact absurd hq List.not_mem_nil
  | cons p l ih =>
    unfold SentPacketManager.undoFrom
    split_ifs with hc
    · refine ih ((List.mem_cons.1 hq).resolve_left ?_) h
      rintro rfl
      exact h ⟨hc.1, hc.2.2⟩
    · exact hq

/-! ## What is queued covers the count -/

/-- The invariant of the manager in the states the connection waits in: no fewer
retransmissions are queued than the timer waits for. -/
structure Recovering (s : SentPacketManager ρ) : Prop where
  between : Between s
  stamped : Stamped s.unackedPackets
  count_le : s.pendingTimerTransmissionCount ≤ s.pendingRetransmissions.length

/-- Entries that stay in the queue are entries of it. -/
theorem length_le_of_mem {l : List (ℕ × TransmissionType)} (h : Inv s)
    (hsub : l.Sublist s.pendingRetransmissions)
    (hmem : ∀ q ∈ l, q ∈ s'.pendingRetransmissions) :
    l.length ≤ s'.pendingRetransmissions.length :=
  (List.subperm_of_subset ((List.Nodup.of_map Prod.fst h.nodup).sublist hsub) hmem).length_le

/-- **An ack** leaves what survives it. -/
theorem onIncomingAck_recovering (h : Recovering s) (frame : AckFrame) (time now : ℤ)
    (hC : s.Covered (.ack frame time now)) : Recovering (s.onIncomingAck R frame time now) := by
  obtain ⟨hB, hst, -⟩ := h
  have hP := processAck_spares (R := R) hB.1 frame time now
  have hI := (processAck_between (R := R) hB frame time now).1
  set u := (s.processAck R frame time now).withMap .removeObsoletePackets with hu
  -- What is left after `RemoveObsoletePackets`: the undoing of losses.
  have hqueued : ∀ q ∈ u.pendingRetransmissions, Queued u.unackedPackets q :=
    fun q hq => (hI.queued q hq).removeObsoletePackets
  have hstu : Stamped u.unackedPackets :=
    (hst.carries hP.carries).carries (removeObsoletePackets_carries _)
  have hundo : ∀ v : SentPacketManager ρ, v.unackedPackets = u.unackedPackets →
      v.options = u.options → v.pendingTimerTransmissionCount = u.pendingTimerTransmissionCount →
      v.pendingRetransmissions = u.pendingRetransmissions →
      Stamped (v.undoFrom v.pendingRetransmissions).unackedPackets ∧
        (v.undoFrom v.pendingRetransmissions).pendingTimerTransmissionCount ≤
          (v.undoFrom v.pendingRetransmissions).pendingRetransmissions.length := by
    intro v hm ho hc hp
    constructor
    · refine undoFrom_rec (fun _ _ h hn => h.restoreToInFlight hn) (hm ▸ hstu) _
        (frames_of_queued ?_)
      rw [hm, hp]
      exact hqueued
    · rw [(undoFrom_vectors v _).2.2.2, hc]
      refine Nat.le_trans (Nat.le_of_eq hP.count_eq) (Nat.le_trans hC
        (length_le_of_mem hB.1 List.filter_sublist fun q hq => ?_))
      obtain ⟨hq, hsurv⟩ := List.mem_filter.1 hq
      simp only [SentPacketManager.survives, Bool.and_eq_true, Bool.not_eq_true',
        List.all_eq_true, decide_eq_true_eq] at hsurv
      refine mem_undoFrom (hp ▸ hP.mem q hq hsurv.2) fun hloss => ?_
      have hopt : u.options = s.options := hP.options_eq
      rw [ho, hopt] at hloss
      simp [hloss.1, hloss.2] at hsurv
  have hbetween := onIncomingAck_between (R := R) hB frame time now
  unfold SentPacketManager.onIncomingAck at hbetween ⊢
  dsimp only at hbetween ⊢
  split_ifs at hbetween ⊢
  · obtain ⟨hst', hle⟩ := hundo (u.resetCounters R frame) rfl rfl rfl rfl
    exact ⟨hbetween, hst', hle⟩
  · obtain ⟨hst', hle⟩ := hundo u rfl rfl rfl rfl
    exact ⟨hbetween, hst', hle⟩

/-- **Neutering** leaves the queued retransmissions that are encrypted. -/
theorem neuterUnencryptedPackets_recovering (h : Recovering s)
    (hC : s.Covered .neuterUnencryptedPackets) : Recovering s.neuterUnencryptedPackets := by
  obtain ⟨hB, hst, -⟩ := h
  have hloop : Spares (fun q => s.survives .neuterUnencryptedPackets q = true) s
      s.neuterUnencryptedPackets := by
    refine forPackets_rec (P := Spares _ s) (Spares.refl _ s)
      (fun u hu => ⟨hu.carries.trans (quiet_stray u).carries, hu.options_eq, hu.count_eq, hu.mem⟩)
      fun u n i hu hi => ?_
    split_ifs with hc
    · have hcut := (removeFromInFlight_carries u.unackedPackets n).trans
        (removeRetransmittability_carries _ n)
      refine ⟨hu.carries.trans hcut, hu.options_eq, hu.count_eq, fun q hq hsurv => ?_⟩
      refine mem_erasePending (hu.mem q hq hsurv) ?_
      rintro rfl
      obtain ⟨a, ha, hl⟩ := hu.carries.get? q.1 i hi
      simp only [SentPacketManager.survives, ha, Option.any_some, decide_eq_true_eq] at hsurv
      exact hsurv (hl.encryptionLevel_eq ▸ hc.2)
    · exact hu
  refine ⟨(neuterUnencryptedPackets_steady hB.1).between hB.2, hst.carries hloop.carries, ?_⟩
  rw [hloop.count_eq]
  refine Nat.le_trans hC (length_le_of_mem hB.1 List.filter_sublist fun q hq => ?_)
  obtain ⟨hq, hsurv⟩ := List.mem_filter.1 hq
  exact hloop.mem q hq hsurv

/-- A frame of another stream stays where it is when a stream is cancelled. -/
theorem cancelRetransmissionsAt_frames (hS : Sound m) {f : Frame} {streamId : ℕ}
    (hf : f ≠ .stream streamId) (hk : (m.packets.get? k).isSome)
    (h : ∃ i, m.packets.get? n = some i ∧ f ∈ i.retransmittableFrames) :
    ∃ i, (m.cancelRetransmissionsAt streamId k).packets.get? n = some i ∧
      f ∈ i.retransmittableFrames := by
  obtain ⟨i, hi, hmem⟩ := h
  by_cases hnk : n = k
  · subst hnk
    have hkept : f ∈ removeFramesForStream i.retransmittableFrames streamId :=
      List.mem_filter.2 ⟨hmem, decide_eq_true hf⟩
    unfold UnackedPacketMap.cancelRetransmissionsAt
    rw [hi]
    dsimp only
    rw [if_neg (by simp [List.ne_nil_of_mem hmem]), if_neg (by simp [List.ne_nil_of_mem hkept])]
    exact ⟨_, Window.get?_modify_self hi, hkept⟩
  · obtain ⟨i', hi', -, hfr⟩ := (cancelRetransmissionsAt_spec hS hk streamId).2.get? n i hi
    exact ⟨i', hi', (hfr hnk).symm ▸ hmem⟩

/-- **Cancelling a stream** leaves the queued retransmissions with frames of others. -/
theorem cancelRetransmissionsForStream_recovering (h : Recovering s) (streamId : ℕ)
    (hC : s.Covered (.cancelRetransmissionsForStream streamId)) :
    Recovering (s.cancelRetransmissionsForStream streamId) := by
  obtain ⟨hB, hst, -⟩ := h
  have hquiet := cancelRetransmissionsForStream_quiet s streamId
  refine ⟨(cancelRetransmissionsForStream_steady hB.1 streamId).between hB.2,
    hst.carries hquiet.carries, ?_⟩
  refine Nat.le_trans hC (length_le_of_mem hB.1 List.filter_sublist fun q hq => ?_)
  obtain ⟨hq, hsurv⟩ := List.mem_filter.1 hq
  refine List.mem_filter.2 ⟨hq, ?_⟩
  simp only [SentPacketManager.survives, Option.any_eq_true, List.any_eq_true,
    decide_eq_true_eq] at hsurv
  obtain ⟨i, hi, f, hmem, hf⟩ := hsurv
  obtain ⟨-, -, i', hi', hmem'⟩ := cancelRetransmissionsForStream_rec hB.1.sound
    (P := fun u => ∃ i, u.packets.get? q.1 = some i ∧ f ∈ i.retransmittableFrames)
    ⟨i, hi, hmem⟩ streamId fun u k hS h hk => cancelRetransmissionsAt_frames hS hf hk h
  simp [UnackedPacketMap.hasRetransmittableFrames, hi', List.ne_nil_of_mem hmem']

/-! ## Timeouts -/

/-- A step of a loop that queues packet `n` if it counts it. -/
structure Marks (n : ℕ) (s s' : SentPacketManager ρ) : Prop where
  mem : ∀ q ∈ s.pendingRetransmissions, q ∈ s'.pendingRetransmissions
  count : s'.pendingTimerTransmissionCount = s.pendingTimerTransmissionCount ∨
    s'.pendingTimerTransmissionCount = s.pendingTimerTransmissionCount + 1 ∧
      n ∈ s'.pendingRetransmissions.map Prod.fst

/-- **A loop that counts what it queues**, over increasing packet numbers: what it
has counted are different packets of the queue. -/
theorem foldl_marks {g : SentPacketManager ρ → ℕ → SentPacketManager ρ}
    (hg : ∀ u n, Marks n u (g u n)) (l : List ℕ) (hl : l.Pairwise (· < ·))
    (s : SentPacketManager ρ) (marked : List ℕ) (hnd : marked.Nodup)
    (hlt : ∀ a ∈ marked, ∀ b ∈ l, a < b)
    (hsub : ∀ a ∈ marked, a ∈ s.pendingRetransmissions.map Prod.fst)
    (hc : s.pendingTimerTransmissionCount = marked.length) :
    (l.foldl g s).pendingTimerTransmissionCount ≤ (l.foldl g s).pendingRetransmissions.length := by
  induction l generalizing s marked with
  | nil =>
    have := (List.subperm_of_subset hnd hsub).length_le
    rw [List.length_map] at this
    exact hc.symm ▸ this
  | cons n l ih =>
    obtain ⟨hn, hl⟩ := List.pairwise_cons.1 hl
    obtain ⟨hmem, hcount⟩ := hg s n
    have hsub' : ∀ a ∈ marked, a ∈ (g s n).pendingRetransmissions.map Prod.fst := by
      intro a ha
      obtain ⟨q, hq, rfl⟩ := List.mem_map.1 (hsub a ha)
      exact List.mem_map_of_mem (hmem q hq)
    rcases hcount with hcount | ⟨hcount, hin⟩
    · exact ih hl (g s n) marked hnd (fun a ha b hb => hlt a ha b (List.mem_cons_of_mem n hb)) hsub'
        (hcount.trans hc)
    · refine ih hl (g s n) (n :: marked) (List.nodup_cons.2 ⟨fun hmem => ?_, hnd⟩)
        (fun a ha b hb => ?_) (fun a ha => ?_) (by rw [hcount, hc]; rfl)
      · exact absurd (hlt n hmem n (List.mem_cons_self ..)) (Nat.lt_irrefl n)
      · rcases List.mem_cons.1 ha with rfl | ha
        · exact hn b hb
        · exact hlt a ha b (List.mem_cons_of_mem n hb)
      · rcases List.mem_cons.1 ha with rfl | ha
        · exact hin
        · exact hsub' a ha

theorem forPackets_marks {f : SentPacketManager ρ → ℕ → TransmissionInfo → SentPacketManager ρ}
    (hf : ∀ u n i, Marks n u (f u n i)) (h0 : s.pendingTimerTransmissionCount = 0) :
    (s.forPackets f).pendingTimerTransmissionCount ≤
      (s.forPackets f).pendingRetransmissions.length := by
  refine foldl_marks (fun u n => ?_) _ List.pairwise_lt_range' s [] List.nodup_nil
    (fun a ha => absurd ha List.not_mem_nil) (fun a ha => absurd ha List.not_mem_nil) h0
  split
  · exact ⟨fun _ hq => hq, .inl rfl⟩
  · exact hf u n _

/-- Marking a packet and counting it. -/
theorem marks_markForRetransmission (s : SentPacketManager ρ) (n : ℕ) (type : TransmissionType) :
    Marks n s { s.markForRetransmission n type with
      pendingTimerTransmissionCount := s.pendingTimerTransmissionCount + 1 } :=
  ⟨(markForRetransmission_pending s n type).1,
    .inr ⟨rfl, (markForRetransmission_pending s n type).2⟩⟩

theorem retransmitCryptoPackets_count (h0 : s.pendingTimerTransmissionCount = 0) :
    s.retransmitCryptoPackets.pendingTimerTransmissionCount ≤
      s.retransmitCryptoPackets.pendingRetransmissions.length := by
  refine forPackets_marks (fun u n i => ?_) h0
  split_ifs
  · exact marks_markForRetransmission u n _
  · exact ⟨fun _ hq => hq, .inl rfl⟩

theorem retransmitRtoPackets_count (h0 : s.pendingTimerTransmissionCount = 0) :
    s.retransmitRtoPackets.pendingTimerTransmissionCount ≤
      s.retransmitRtoPackets.pendingRetransmissions.length := by
  have hloop : (s.forPackets SentPacketManager.retransmitRtoAt).pendingTimerTransmissionCount ≤
      (s.forPackets SentPacketManager.retransmitRtoAt).pendingRetransmissions.length := by
    refine forPackets_marks (fun u n i => ?_) h0
    unfold SentPacketManager.retransmitRtoAt
    split_ifs
    · exact marks_markForRetransmission u n _
    · exact ⟨fun _ hq => hq, .inl rfl⟩
    · exact ⟨fun _ hq => hq, .inl rfl⟩
    · exact ⟨fun _ hq => hq, .inl rfl⟩
  unfold SentPacketManager.retransmitRtoPackets
  dsimp only
  split_ifs
  · exact hloop
  · exact hloop
  · exact hloop

/-- The invariant between a timeout and its probe: a tail loss probe may be waited
for that is not queued yet, while there is a packet to probe with. -/
structure Probing (s : SentPacketManager ρ) : Prop where
  between : Between s
  stamped : Stamped s.unackedPackets
  waiting : s.pendingTimerTransmissionCount ≤ s.pendingRetransmissions.length ∨
    s.pendingTimerTransmissionCount = 1 ∧ Outstanding s

theorem onRetransmissionTimeout_probing (h : Recovering s)
    (h0 : s.pendingTimerTransmissionCount = 0) (now : ℤ) :
    Probing (s.onRetransmissionTimeout R now) := by
  obtain ⟨hB, hst, -⟩ := h
  have hbetween := onRetransmissionTimeout_between (R := R) hB now
  unfold SentPacketManager.onRetransmissionTimeout at hbetween ⊢
  split at hbetween
  · refine ⟨hbetween, Stamped.carries ?_ (retransmitCryptoPackets_quiet _).carries,
      .inl (retransmitCryptoPackets_count h0)⟩
    exact hst
  · have hloss := (invokeLossDetection_spares (R := R) (fun _ => True)
      { s with stats := { s.stats with lossTimeoutCount := s.stats.lossTimeoutCount + 1 } }
      now).trans (maybeInvokeCongestionEvent_spares _ _ false)
    refine ⟨hbetween, Stamped.carries ?_ hloss.carries, .inl ?_⟩
    · exact hst
    · rw [hloss.count_eq]
      exact h0.symm ▸ Nat.zero_le _
  · rename_i hmode
    refine ⟨hbetween, hst, .inr ⟨rfl, ?_⟩⟩
    unfold SentPacketManager.getRetransmissionMode at hmode
    split_ifs at hmode with h₁ h₂ h₃
    exact h₃.2
  · refine ⟨hbetween, Stamped.carries ?_ (retransmitRtoPackets_quiet _).carries,
      .inl (retransmitRtoPackets_count h0)⟩
    exact hst

/-- A packet takes at most one entry off the queue. -/
theorem length_erasePending (h : Inv s) (n : ℕ) :
    s.pendingRetransmissions.length ≤ (s.erasePending n).pendingRetransmissions.length + 1 := by
  have hlist : ∀ l : List (ℕ × TransmissionType), (l.map Prod.fst).Nodup →
      l.length ≤ (l.filter fun p => decide (p.1 ≠ n)).length + 1 := by
    intro l
    induction l with
    | nil => simp
    | cons p l ih =>
      intro hnd
      obtain ⟨hp, hnd⟩ := List.nodup_cons.1 hnd
      by_cases hpn : p.1 = n
      · have hall : l.filter (fun q => decide (q.1 ≠ n)) = l := by
          refine List.filter_eq_self.2 fun q hq => decide_eq_true fun hqn => hp ?_
          rw [hpn, ← hqn]
          exact List.mem_map_of_mem hq
        rw [List.filter_cons_of_neg (by simp [hpn]), hall, List.length_cons]
      · have := ih hnd
        rw [List.filter_cons_of_pos (by simp [hpn]), List.length_cons, List.length_cons]
        omega
  exact hlist _ h.nodup

/-- **Sending a packet** lowers the count by one, and the queue by one at most. -/
theorem sendPacket_recovering {p : Sending} (h : Probing s) (hs : s.sendPacket R p = some t) :
    Recovering t := by
  obtain ⟨hB, hst, hwait⟩ := h
  unfold SentPacketManager.sendPacket at hs
  split_ifs at hs with htime
  have hbetween := between_step hB hs
  simp only [SentPacketManager.step] at hs
  split_ifs at hs with hp
  obtain rfl := Option.some.inj hs
  have hst' := hst.send hB.1.sound hp.1 hp.2 htime
  have hlen := length_erasePending hB.1 p.originalPacketNumber
  have hcount : s.pendingTimerTransmissionCount - 1 ≤
      (if p.originalPacketNumber ≠ 0 then s.erasePending p.originalPacketNumber
        else s).pendingRetransmissions.length := by
    rcases hwait with hwait | ⟨hwait, -⟩
    · split_ifs <;> omega
    · omega
  unfold SentPacketManager.onPacketSent at hbetween ⊢
  dsimp only at hbetween ⊢
  split_ifs at hbetween hcount ⊢
  · exact ⟨hbetween, hst', hcount⟩
  · exact ⟨hbetween, hst', hcount⟩

theorem Recovering.probing (h : Recovering s) : Probing s := ⟨h.between, h.stamped, .inl h.count_le⟩

/-- **A probe is queued** if one is waited for. -/
theorem maybeRetransmitTailLossProbe_recovering (h : Probing s) :
    Recovering s.maybeRetransmitTailLossProbe.2 := by
  obtain ⟨hB, hst, hwait⟩ := h
  have hbetween := maybeRetransmitTailLossProbe_between hB
  have hst' := hst.carries (maybeRetransmitTailLossProbe_quiet s).carries
  unfold SentPacketManager.maybeRetransmitTailLossProbe at hbetween hst' ⊢
  split_ifs at hbetween hst' ⊢ with h0
  · exact ⟨hbetween, hst', h0 ▸ Nat.zero_le _⟩
  · cases hold : SentPacketManager.oldestInFlight s.unackedPackets with
    | none =>
      rw [hold] at hbetween hst'
      refine ⟨hbetween, hst', hwait.resolve_right fun hout => ?_⟩
      obtain ⟨n, i, hi, hfl, hfr⟩ := outstanding_iff.1 hout.2
      have hn : n ∈ s.unackedPackets.packets.numbers :=
        Window.mem_numbers.2 (Window.get?_isSome_iff.1 (Option.isSome_iff_exists.2 ⟨i, hi⟩))
      have hfind := List.find?_eq_none.1 hold n hn
      simp [hi, hfl, hfr] at hfind
    | some n =>
      rw [hold] at hbetween hst'
      obtain ⟨hmem, hin⟩ := markForRetransmission_pending s n .tlpRetransmission
      have hle := length_le_of_mem hB.1 (List.Sublist.refl _) hmem
      have hpos := List.length_pos_of_mem hin
      rw [List.length_map] at hpos
      refine ⟨hbetween, hst', ?_⟩
      show s.pendingTimerTransmissionCount ≤
        (s.markForRetransmission n .tlpRetransmission).pendingRetransmissions.length
      rcases hwait with hwait | ⟨hwait, -⟩ <;> omega

/-- **A timeout**, with what is written after it and its probe. -/
theorem onTimeout_recovering (h : Recovering s) {now : ℤ} {writes : List Sending}
    (hs : s.onTimeout R now writes = some t) : Recovering t := by
  unfold SentPacketManager.onTimeout at hs
  split_ifs at hs with hguard
  obtain ⟨u, hu, rfl⟩ := Option.map_eq_some_iff.1 hs
  refine maybeRetransmitTailLossProbe_recovering ?_
  exact run_invariant (fun _ _ _ hP hstep => (sendPacket_recovering hP hstep).probing)
    (onRetransmissionTimeout_probing h hguard.2 now) hu

/-! ## Runs -/

/-- **An event keeps the invariant** if what a timeout has queued is covered. -/
theorem recovering_step {e : Event} (h : Recovering s) (hC : s.Covered e)
    (hs : s.recoveryStep R e = some t) : Recovering t := by
  cases e with
  | send p => exact sendPacket_recovering h.probing hs
  | ack frame time now =>
    simp only [SentPacketManager.recoveryStep, SentPacketManager.step] at hs
    split_ifs at hs
    exact Option.some.inj hs ▸ onIncomingAck_recovering h frame time now hC
  | retransmissionTimeout now writes => exact onTimeout_recovering h hs
  | neuterUnencryptedPackets =>
    exact Option.some.inj hs ▸ neuterUnencryptedPackets_recovering h hC
  | retransmitUnackedPackets initialOnly =>
    obtain rfl := Option.some.inj hs
    have hloop : Spares (fun _ => True) s (s.retransmitUnackedPackets initialOnly) := by
      refine forPackets_rec (P := Spares _ s) (Spares.refl _ s)
        (fun u hu => ⟨hu.carries.trans (quiet_stray u).carries, hu.options_eq, hu.count_eq, hu.mem⟩)
        fun u n i hu _ => ?_
      split_ifs
      · exact hu.trans (markForRetransmission_spares _ u n _)
      · exact hu.trans (markForRetransmission_spares _ u n _)
      · exact hu
    refine ⟨(retransmitUnackedPackets_steady h.between.1 initialOnly).between h.between.2,
      h.stamped.carries hloop.carries, ?_⟩
    rw [hloop.count_eq]
    exact h.count_le.trans (length_le_of_mem h.between.1 (List.Sublist.refl _) fun q hq =>
      hloop.mem q hq trivial)
  | cancelRetransmissionsForStream streamId =>
    exact Option.some.inj hs ▸ cancelRetransmissionsForStream_recovering h streamId hC
  | setHandshakeConfirmed =>
    obtain rfl := Option.some.inj hs
    exact ⟨⟨h.between.1.congr rfl rfl rfl rfl, h.between.2⟩, h.stamped, h.count_le⟩

theorem recovering_new (r : ρ) (lossType : LossDetectionType) (options : Options) :
    Recovering (SentPacketManager.new r lossType options) := by
  refine ⟨between_new r lossType options, fun n i hi => ?_, Nat.le_refl 0⟩
  simp [SentPacketManager.new, UnackedPacketMap.new, Window.get?] at hi

theorem Recovering.recoverable (h : Recovering s) (T : TimerStats ρ) (options : TimerOptions)
    {now : ℤ} (hnow : 0 < now) : Recoverable T options now s := by
  intro hout
  rcases Nat.eq_zero_or_pos s.pendingTimerTransmissionCount with h0 | h0
  · exact .inl ((getRetransmissionTime_ne_zero_iff h.between.1.sound h.stamped hout hnow).2 h0)
  · exact .inr (List.ne_nil_of_length_pos (Nat.lt_of_lt_of_le h0 h.count_le))

/-- **Outstanding data can always be recovered**, in every run in which what a
timeout has queued is covered whenever packets are acknowledged, neutered or
cancelled: in every state reached with data in flight that may have to be sent
again, the timer is set or a retransmission is queued. -/
theorem always_recoverable (T : TimerStats ρ) (options : TimerOptions) (r : ρ)
    (lossType : LossDetectionType) (opts : Options) (es : List Event)
    (hC : EachStep (SentPacketManager.recoveryStep T.toRttStats) Covered
      (SentPacketManager.new r lossType opts) es) :
    Always (SentPacketManager.recoveryStep T.toRttStats)
      (fun s => ∀ now, 0 < now → Recoverable T options now s)
      (SentPacketManager.new r lossType opts) es := by
  have hR := always_of_eachStep (P := Recovering)
    (fun _ _ _ h hCe hs => recovering_step h hCe hs) (recovering_new r lossType opts) hC
  exact hR.mono fun s h now hnow => h.recoverable T options hnow

/-- Round trip times that are never measured. -/
def noRtt : TimerStats Unit where
  updateRtt := fun r _ _ _ => r
  expireSmoothedMetrics := id
  previousSrtt := fun _ => 0
  latestRtt := fun _ => 0
  smoothedRtt := fun _ => 0
  initialRtt := fun _ => 100000
  meanDeviation := fun _ => 0

/-- A data packet of 1000 bytes sent at `time`. -/
def dataPacket (n : ℕ) (time : ℤ) : Sending :=
  ⟨⟨n, 1, 1000, [.stream 5], false, 0, .forwardSecure, 0⟩, 0, time, .notRetransmission, true⟩

/-- The default options of the manager. -/
def defaultOptions : Options := ⟨false, false, 2, true, false, false⟩

/-- Two packets, a timeout that queues the first as a tail loss probe, which is sent,
and an ack of the first. -/
def probeThenAck : List Event :=
  [.send (dataPacket 1 10), .send (dataPacket 2 10), .retransmissionTimeout 500000 [],
    .send ⟨⟨3, 1, 1000, [], false, 0, .forwardSecure, 0⟩, 1, 500000, .tlpRetransmission, true⟩,
    .ack ⟨1, 0, [1]⟩ 500100 500100]

theorem recoverable_probeThenAck :
    EachStep (SentPacketManager.recoveryStep noRtt.toRttStats) Covered
        (.new () .nack defaultOptions) probeThenAck ∧
      Always (SentPacketManager.recoveryStep noRtt.toRttStats)
        (fun s => ∀ now, 0 < now → Recoverable noRtt ⟨false, false⟩ now s)
        (.new () .nack defaultOptions) probeThenAck := by
  have hC : EachStep (SentPacketManager.recoveryStep noRtt.toRttStats) Covered
      (.new () .nack defaultOptions) probeThenAck := by decide
  exact ⟨hC, always_recoverable noRtt ⟨false, false⟩ () .nack defaultOptions probeThenAck hC⟩

/-- **A probe that is acknowledged before it is sent**: the second packet is in
flight with its frames, the timer is not set, and nothing is queued. -/
theorem exists_unrecoverable :
    ∃ s, run (SentPacketManager.recoveryStep noRtt.toRttStats) (.new () .nack defaultOptions)
        [.send (dataPacket 1 10), .send (dataPacket 2 10), .retransmissionTimeout 500000 [],
          .ack ⟨1, 0, [1]⟩ 500100 500100] = some s ∧
      ¬ Recoverable noRtt ⟨false, false⟩ 500100 s :=
  ⟨_, rfl, by decide⟩

end Packets
end QuicNs3
