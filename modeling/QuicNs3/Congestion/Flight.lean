/-
# One cutback for each flight

`OnPacketLost` treats the losses of packets that were already sent when it cut the
window back as part of one loss event.  It knows them by their numbers:
`largest_sent_at_last_cutback_` is the largest that had been sent with data.

A migration sets that mark to `0`, and `largest_sent_packet_number_` with it, but the
packets sent before it stay in flight and are reported lost like others.  The next
of them cuts the window again, now that of the new path.  If nothing has been sent
since the migration, that cutback leaves the mark at `0`, and every further loss is
one more.

A `Flight` is a sender with what the sent packet manager knows about packet numbers:
which is the largest sent, which are in flight, and, for the statements only, which
was the largest at the last cutback.  `oneCutback_iff` says which runs without a
timeout have one cutback for each flight.
-/

import QuicNs3.Congestion.Loss

namespace QuicNs3
namespace Congestion

open Lib

/-- A sender and the packet numbers of its connection.  Only packets with
retransmittable data are in flight. -/
structure Flight (σ : Type) where
  sender : TcpCubicSender σ
  largestSent : ℕ
  inFlight : List ℕ
  cutAt : ℕ

namespace TcpCubicSender

variable {σ : Type} {B : Backoff σ} {s : TcpCubicSender σ}

/-- The loss of this packet would cut the window back. -/
def CutsBack (s : TcpCubicSender σ) (packetNumber : ℕ) : Prop :=
  s.largestSentAtLastCutback < packetNumber

instance (s : TcpCubicSender σ) (packetNumber : ℕ) : Decidable (s.CutsBack packetNumber) :=
  inferInstanceAs (Decidable (_ < _))

/-- The packet numbers a sender keeps for its losses. -/
def marks (s : TcpCubicSender σ) : ℕ × ℕ := (s.largestSentPacketNumber, s.largestSentAtLastCutback)

theorem marks_onPacketSent (packetNumber bytes : ℕ) (isRetransmittable : Bool) :
    (s.onPacketSent packetNumber bytes isRetransmittable).marks =
      (if isRetransmittable then packetNumber else s.largestSentPacketNumber,
        s.largestSentAtLastCutback) := by
  cases isRetransmittable <;> rfl

theorem marks_onRttUpdated (latestRtt minRtt : ℤ) :
    (s.onRttUpdated latestRtt minRtt).marks = s.marks := by
  unfold onRttUpdated
  split_ifs
  · dsimp only
    split_ifs <;> rfl
  · rfl

theorem marks_onLateLoss (lostBytes : ℕ) : (s.onLateLoss lostBytes).marks = s.marks := by
  unfold onLateLoss
  split_ifs
  · dsimp only
    split_ifs <;> rfl
  · rfl

theorem marks_onCutback (priorInFlight : ℕ) :
    (s.onCutback B priorInFlight).marks =
      (s.largestSentPacketNumber, s.largestSentPacketNumber) := by
  have hcut : ∀ t : TcpCubicSender σ,
      (t.cutWindow B).largestSentPacketNumber = t.largestSentPacketNumber := by
    intro t
    unfold cutWindow
    split_ifs <;> rfl
  unfold onCutback marks
  dsimp only
  rw [hcut]

/-- **What a loss does to the marks.** -/
theorem marks_onPacketLost (packetNumber lostBytes priorInFlight : ℕ) :
    (s.onPacketLost B packetNumber lostBytes priorInFlight).marks =
      if s.CutsBack packetNumber then (s.largestSentPacketNumber, s.largestSentPacketNumber)
      else s.marks := by
  unfold onPacketLost
  by_cases hcuts : s.CutsBack packetNumber
  · rw [if_neg (Nat.not_le.2 hcuts), if_pos hcuts]
    exact marks_onCutback priorInFlight
  · rw [if_pos (Nat.not_lt.1 hcuts), if_neg hcuts]
    exact marks_onLateLoss lostBytes

theorem marks_setFromConfig (options : List Tag) : (s.setFromConfig B options).marks = s.marks :=
  setFromConfig_rule (P := fun t => t.marks = s.marks)
    (fun t tag h => (by cases tag <;> rfl : (t.setOption B tag).marks = t.marks).trans h)
    options rfl

theorem marks_onPacketAcked (packetNumber ackedBytes priorInFlight : ℕ) (minRtt eventTime : ℤ) :
    (s.onPacketAcked B packetNumber ackedBytes priorInFlight minRtt eventTime).marks = s.marks := by
  have hcwnd : ∀ t : TcpCubicSender σ,
      (t.maybeIncreaseCwnd B ackedBytes priorInFlight minRtt eventTime).marks = t.marks := by
    intro t
    unfold maybeIncreaseCwnd
    split_ifs <;> rfl
  have hacked := hcwnd
    { s with largestAckedPacketNumber := max packetNumber s.largestAckedPacketNumber }
  unfold onPacketAcked
  dsimp only
  split_ifs
  · rfl
  · rfl
  · exact hacked
  · exact hacked

end TcpCubicSender

namespace Flight

variable {σ : Type} {B : Backoff σ} {f g : Flight σ} {op : Op} {ops : List Op}

/-- A connection before its first packet; numbers start at `1`. -/
def new (B : Backoff σ) (reno : Bool) (limits : Limits) : Flight σ :=
  ⟨TcpCubicSender.new B reno limits, 0, [], 0⟩

/-- What the sent packet manager may do, short of a timeout: packet numbers grow, and a
packet in flight is reported once, as acked or as lost. -/
def Allowed (f : Flight σ) : Op → Prop
  | .packetSent packetNumber _ _ => f.largestSent < packetNumber
  | .packetLost packetNumber lostBytes _ => packetNumber ∈ f.inFlight ∧ lostBytes ≤ kMaxPacketSize
  | .packetAcked packetNumber _ _ _ _ => packetNumber ∈ f.inFlight
  | .retransmissionTimeout _ => False
  | _ => True

instance (f : Flight σ) : (op : Op) → Decidable (f.Allowed op)
  | .packetSent _ _ _ => inferInstanceAs (Decidable (_ < _))
  | .packetLost _ _ _ => inferInstanceAs (Decidable (_ ∧ _))
  | .packetAcked _ _ _ _ _ => inferInstanceAs (Decidable (_ ∈ _))
  | .retransmissionTimeout _ => .isFalse id
  | .setInitialCongestionWindow _ _ | .setCongestionWindow _ _ | .setMinSlowstartExitWindow _ _
  | .setFromConfig _ | .adjustNetworkParameters _ _ | .setNumEmulatedConnections _
  | .rttUpdated _ _ | .connectionMigration => .isTrue trivial

/-- The packet numbers after an operation. -/
def next (B : Backoff σ) (f : Flight σ) (op : Op) : Flight σ :=
  let f' := { f with sender := f.sender.apply B op }
  match op with
  | .packetSent packetNumber _ isRetransmittable =>
    { f' with
      largestSent := packetNumber
      inFlight := if isRetransmittable then packetNumber :: f.inFlight else f.inFlight }
  | .packetLost packetNumber _ _ =>
    { f' with
      inFlight := f.inFlight.erase packetNumber
      cutAt := if f.sender.CutsBack packetNumber then f.largestSent else f.cutAt }
  | .packetAcked packetNumber _ _ _ _ => { f' with inFlight := f.inFlight.erase packetNumber }
  | _ => f'

/-- One operation, where the manager may make it. -/
def step (B : Backoff σ) (f : Flight σ) (op : Op) : Option (Flight σ) :=
  if f.Allowed op then some (f.next B op) else none

/-- What holds of the packet numbers in every run.  A mark that is not `0` is not below
any packet it should cover. -/
structure Inv (f : Flight σ) : Prop where
  pos : ∀ n ∈ f.inFlight, 0 < n
  le_largestSent : ∀ n ∈ f.inFlight, n ≤ f.largestSent
  cutAt_le : f.cutAt ≤ f.largestSent
  le_sender : f.sender.largestSentPacketNumber ≠ 0 →
    ∀ n ∈ f.inFlight, n ≤ f.sender.largestSentPacketNumber
  le_mark : f.sender.largestSentAtLastCutback ≠ 0 →
    ∀ n ∈ f.inFlight, n ≤ f.cutAt → n ≤ f.sender.largestSentAtLastCutback

theorem inv_new (reno : Bool) (limits : Limits) : (new B reno limits).Inv where
  pos := by simp [new]
  le_largestSent := by simp [new]
  cutAt_le := Nat.le_refl _
  le_sender h := absurd rfl h
  le_mark h := absurd rfl h

/-- The marks of the sender are all that matters, and packets may leave the flight. -/
theorem Inv.of_marks (h : f.Inv) {inFlight : List ℕ} (hsub : inFlight ⊆ f.inFlight)
    {s : TcpCubicSender σ} (hs : s.marks = f.sender.marks) :
    Inv { f with sender := s, inFlight := inFlight } := by
  obtain ⟨hsent, hcut⟩ := Prod.mk.inj hs
  exact {
    pos := fun n hn => h.pos n (hsub hn)
    le_largestSent := fun n hn => h.le_largestSent n (hsub hn)
    cutAt_le := h.cutAt_le
    le_sender := fun hne n hn => by
      dsimp only at hne ⊢
      rw [hsent] at hne ⊢
      exact h.le_sender hne n (hsub hn)
    le_mark := fun hne n hn hle => by
      dsimp only at hne ⊢
      rw [hcut] at hne ⊢
      exact h.le_mark hne n (hsub hn) hle }

theorem Inv.packetSent (h : f.Inv) {packetNumber bytes : ℕ} (hlt : f.largestSent < packetNumber)
    (isRetransmittable : Bool) :
    (f.next B (.packetSent packetNumber bytes isRetransmittable)).Inv := by
  have hmarks := TcpCubicSender.marks_onPacketSent (s := f.sender) packetNumber bytes
    isRetransmittable
  obtain ⟨hsent, hcut⟩ := Prod.mk.inj hmarks
  have hcutAt := h.cutAt_le
  cases isRetransmittable with
  | false =>
    exact {
      pos := h.pos
      le_largestSent := fun n hn => Nat.le_trans (h.le_largestSent n hn) (Nat.le_of_lt hlt)
      cutAt_le := Nat.le_trans hcutAt (Nat.le_of_lt hlt)
      le_sender := h.le_sender
      le_mark := h.le_mark }
  | true =>
    refine {
      pos := ?_
      le_largestSent := ?_
      cutAt_le := Nat.le_trans hcutAt (Nat.le_of_lt hlt)
      le_sender := ?_
      le_mark := ?_ }
    · refine List.forall_mem_cons.2 ⟨by omega, h.pos⟩
    · refine List.forall_mem_cons.2 ⟨Nat.le_refl _, fun n hn => ?_⟩
      exact Nat.le_trans (h.le_largestSent n hn) (Nat.le_of_lt hlt)
    · intro _
      refine List.forall_mem_cons.2 ⟨Nat.le_refl _, fun n hn => ?_⟩
      exact Nat.le_trans (h.le_largestSent n hn) (Nat.le_of_lt hlt)
    · -- the new packet is above every cutback so far
      intro hne
      refine List.forall_mem_cons.2 ⟨fun hle => ?_, h.le_mark hne⟩
      exact absurd hle (Nat.not_le.2 (Nat.lt_of_le_of_lt hcutAt hlt))

theorem Inv.packetLost (h : f.Inv) (packetNumber lostBytes priorInFlight : ℕ) :
    (f.next B (.packetLost packetNumber lostBytes priorInFlight)).Inv := by
  have hmarks := TcpCubicSender.marks_onPacketLost (B := B) (s := f.sender) packetNumber lostBytes
    priorInFlight
  have hsub : f.inFlight.erase packetNumber ⊆ f.inFlight := List.erase_subset
  by_cases hcuts : f.sender.CutsBack packetNumber
  · rw [if_pos hcuts] at hmarks
    obtain ⟨hsent, hcut⟩ := Prod.mk.inj hmarks
    have hnext : f.next B (.packetLost packetNumber lostBytes priorInFlight) =
        { f with
          sender := f.sender.onPacketLost B packetNumber lostBytes priorInFlight
          inFlight := f.inFlight.erase packetNumber
          cutAt := f.largestSent } := by
      simp only [next, TcpCubicSender.apply, if_pos hcuts]
    rw [hnext]
    refine {
      pos := fun n hn => h.pos n (hsub hn)
      le_largestSent := fun n hn => h.le_largestSent n (hsub hn)
      cutAt_le := Nat.le_refl _
      le_sender := fun hne n hn => ?_
      le_mark := fun hne n hn _ => ?_ }
    · dsimp only at hne ⊢
      rw [hsent] at hne ⊢
      exact h.le_sender hne n (hsub hn)
    · dsimp only at hne ⊢
      rw [hcut] at hne ⊢
      exact h.le_sender hne n (hsub hn)
  · rw [if_neg hcuts] at hmarks
    have hnext : f.next B (.packetLost packetNumber lostBytes priorInFlight) =
        { f with
          sender := f.sender.onPacketLost B packetNumber lostBytes priorInFlight
          inFlight := f.inFlight.erase packetNumber } := by
      simp only [next, TcpCubicSender.apply, if_neg hcuts]
    rw [hnext]
    exact h.of_marks hsub hmarks

/-- **Every operation keeps the packet numbers in order.** -/
theorem inv_step (f : Flight σ) (op : Op) (g : Flight σ) (h : f.Inv)
    (hstep : f.step B op = some g) : g.Inv := by
  unfold step at hstep
  split_ifs at hstep with hallowed
  obtain rfl := Option.some.inj hstep
  cases op with
  | packetSent packetNumber bytes isRetransmittable =>
    exact h.packetSent hallowed isRetransmittable
  | packetLost packetNumber lostBytes priorInFlight => exact h.packetLost _ _ _
  | packetAcked packetNumber ackedBytes priorInFlight minRtt eventTime =>
    exact h.of_marks List.erase_subset (TcpCubicSender.marks_onPacketAcked _ _ _ _ _)
  | setFromConfig options =>
    exact h.of_marks (List.Subset.refl _) (TcpCubicSender.marks_setFromConfig options)
  | adjustNetworkParameters bits us =>
    refine h.of_marks (List.Subset.refl _) ?_
    rw [TcpCubicSender.apply, TcpCubicSender.adjustNetworkParameters]
    split_ifs <;> rfl
  | rttUpdated latestRtt minRtt =>
    exact h.of_marks (List.Subset.refl _) (TcpCubicSender.marks_onRttUpdated _ _)
  | retransmissionTimeout packetsRetransmitted => exact hallowed.elim
  | connectionMigration =>
    exact {
      pos := h.pos
      le_largestSent := h.le_largestSent
      cutAt_le := h.cutAt_le
      le_sender := fun hne => absurd rfl hne
      le_mark := fun hne => absurd rfl hne }
  | setInitialCongestionWindow bits us => exact h.of_marks (List.Subset.refl _) rfl
  | setCongestionWindow bits us => exact h.of_marks (List.Subset.refl _) rfl
  | setMinSlowstartExitWindow bits us => exact h.of_marks (List.Subset.refl _) rfl
  | setNumEmulatedConnections n => exact h.of_marks (List.Subset.refl _) rfl

/-- Only a cutback moves `cutAt`. -/
theorem cutAt_step (hstep : f.step B op = some g) :
    g.cutAt = f.cutAt ∨ ∃ packetNumber lostBytes priorInFlight,
      op = .packetLost packetNumber lostBytes priorInFlight ∧
        f.sender.CutsBack packetNumber ∧ g.cutAt = f.largestSent := by
  unfold step at hstep
  split_ifs at hstep
  obtain rfl := Option.some.inj hstep
  cases op with
  | packetLost packetNumber lostBytes priorInFlight =>
    by_cases hcuts : f.sender.CutsBack packetNumber
    · exact .inr ⟨packetNumber, lostBytes, priorInFlight, rfl, hcuts, if_pos hcuts⟩
    · exact .inl (if_neg hcuts)
  | _ => exact .inl rfl

theorem cutAt_le_run (h : f.Inv) (hr : run (step B) f ops = some g) : f.cutAt ≤ g.cutAt := by
  have hboth : g.Inv ∧ f.cutAt ≤ g.cutAt := by
    refine run_invariant (P := fun g => g.Inv ∧ f.cutAt ≤ g.cutAt) ?_ ⟨h, Nat.le_refl _⟩ hr
    rintro u op v ⟨hu, hle⟩ hstep
    refine ⟨inv_step u op v hu hstep, Nat.le_trans hle ?_⟩
    rcases cutAt_step hstep with heq | ⟨-, -, -, -, -, heq⟩
    · exact Nat.le_of_eq heq.symm
    · exact heq ▸ hu.cutAt_le
  exact hboth.2

/-- The operations of a run are allowed where they are made. -/
theorem allowed_earlier {pre : List Op} (hr : run (step B) f ops = some g)
    (hpre : pre ++ [op] <+: ops) {t : Flight σ} (ht : run (step B) f pre = some t) :
    t.Allowed op := by
  obtain ⟨u, hu⟩ := exists_run_of_prefix hpre hr
  obtain ⟨t', ht', hstep⟩ := run_concat_eq_some.1 hu
  obtain rfl : t' = t := Option.some.inj (ht'.symm.trans ht)
  unfold step at hstep
  split_ifs at hstep with hallowed
  exact hallowed

/-- **One cutback for each flight.**  After a loss that cuts the window back, no loss of a
packet that had been sent by then does. -/
def OneCutback (B : Backoff σ) (f : Flight σ) (ops : List Op) : Prop :=
  ∀ before packetNumber lostBytes priorInFlight middle packetNumber' lostBytes' priorInFlight'
    f₁ f₂,
    (before ++ .packetLost packetNumber lostBytes priorInFlight :: middle) ++
        [.packetLost packetNumber' lostBytes' priorInFlight'] <+: ops →
      run (step B) f before = some f₁ →
      run (step B) f (before ++ .packetLost packetNumber lostBytes priorInFlight :: middle) =
        some f₂ →
      f₁.sender.CutsBack packetNumber → packetNumber' ≤ f₁.largestSent →
      ¬ f₂.sender.CutsBack packetNumber'

/-- A packet that had been sent at the last cutback is lost while the mark of that
cutback stands: there was no migration since, and data had been sent between the
cutback and the last migration before it. -/
def MarkStands (f : Flight σ) : Op → Prop
  | .packetLost packetNumber _ _ =>
    packetNumber ≤ f.cutAt → f.sender.largestSentAtLastCutback ≠ 0
  | _ => True

instance (f : Flight σ) : (op : Op) → Decidable (f.MarkStands op)
  | .packetLost _ _ _ => inferInstanceAs (Decidable (_ → _))
  | .setInitialCongestionWindow _ _ | .setCongestionWindow _ _ | .setMinSlowstartExitWindow _ _
  | .setFromConfig _ | .adjustNetworkParameters _ _ | .setNumEmulatedConnections _
  | .packetSent _ _ _ | .rttUpdated _ _ | .packetAcked _ _ _ _ _ | .retransmissionTimeout _
  | .connectionMigration => .isTrue trivial

/-- **Which runs have one cutback for each flight**: those in which the mark stands at
every loss of a packet sent before the last cutback. -/
theorem oneCutback_iff {reno : Bool} {limits : Limits}
    (hr : run (step B) (new B reno limits) ops = some f) :
    OneCutback B (new B reno limits) ops ↔
      EachStep (step B) MarkStands (new B reno limits) ops := by
  have hnew := inv_new (B := B) reno limits
  constructor
  · intro hone pre op t hpre ht
    cases op with
    | packetLost packetNumber lostBytes priorInFlight =>
      intro hle hzero
      have hallowed := allowed_earlier hr hpre ht
      have hpos : 0 < packetNumber := (run_invariant inv_step hnew ht).pos _ hallowed.1
      -- the cutback that packet had been sent by
      have hne : t.cutAt ≠ (new B reno limits).cutAt := by
        show t.cutAt ≠ 0
        omega
      obtain ⟨before, e, middle, u, v, rfl, hu, hstep, hmoved, hv⟩ :=
        exists_last_change Flight.cutAt ht hne
      rcases cutAt_step hstep with heq | ⟨n, bytes, prior, rfl, hcuts, heq⟩
      · exact hmoved heq
      · refine hone before n bytes prior middle packetNumber lostBytes priorInFlight u t hpre hu ht
          hcuts (by omega) ?_
        unfold TcpCubicSender.CutsBack
        omega
    | _ => trivial
  · intro heach before n bytes prior middle n' bytes' prior' f₁ f₂ hpre hf₁ hf₂ hcuts hle hcuts'
    have hmem := (allowed_earlier hr hpre hf₂).1
    have hinv₁ := run_invariant inv_step hnew hf₁
    have hinv₂ := run_invariant inv_step hnew hf₂
    -- the first cutback set `cutAt`, which has not fallen since
    have hcutAt : f₁.largestSent ≤ f₂.cutAt := by
      rw [run_append, hf₁, Option.bind_some, run_cons, Option.bind_eq_some_iff] at hf₂
      obtain ⟨u, hstep, hrest⟩ := hf₂
      refine Nat.le_trans (Nat.le_of_eq ?_) (cutAt_le_run (inv_step _ _ _ hinv₁ hstep) hrest)
      unfold step at hstep
      split_ifs at hstep
      obtain rfl := Option.some.inj hstep
      exact (if_pos hcuts).symm
    have hmark := heach _ _ _ hpre hf₂ (Nat.le_trans hle hcutAt)
    exact Nat.not_lt.2 (hinv₂.le_mark hmark n' hmem (Nat.le_trans hle hcutAt)) hcuts'

/-- Two losses of one flight, and a third after a migration of a packet sent after it. -/
theorem oneCutback_migrated :
    OneCutback TcpCubicSender.plainBackoff (new TcpCubicSender.plainBackoff true .default)
      [.packetSent 1 1452 true, .packetSent 2 1452 true, .packetLost 1 1452 2904,
        .packetLost 2 1452 1452, .connectionMigration, .packetSent 3 1452 true,
        .packetLost 3 1452 1452] := by
  exact (oneCutback_iff rfl).2 (by decide)

/-- **A migration can make two cutbacks of one flight.**  Packets `1` and `2` are sent,
the loss of `1` cuts the window back, and after a migration the loss of `2` does
again. -/
theorem exists_second_cutback :
    ¬ OneCutback TcpCubicSender.plainBackoff (new TcpCubicSender.plainBackoff true .default)
      [.packetSent 1 1452 true, .packetSent 2 1452 true, .packetLost 1 1452 2904,
        .connectionMigration, .packetLost 2 1452 1452] := by
  intro hone
  exact hone [.packetSent 1 1452 true, .packetSent 2 1452 true] 1 1452 2904 [.connectionMigration]
    2 1452 1452 _ _ (List.prefix_refl _) rfl rfl (by decide) (by decide) (by decide)

end Flight

end Congestion
end QuicNs3
