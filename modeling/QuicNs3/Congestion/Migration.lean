/-
# What a migration forgets

`OnConnectionMigration` starts the controller anew on the new path.  What it does not
set again is, first, the settings: the options of the client, the seeds, the number of
emulated connections.  It is also `min_slow_start_exit_window_`, which the options and
seeds do not determine: a cutback in slow start sets it to half of a window of the old
path, if the client has asked for large reductions (`SSLR`).  And the number of emulated
connections is a setting only by name: with the option `NCON` it follows the number of open
streams.

So two histories with the same options and seeds lead to the same windows after a
migration if neither of them had such a cutback, and if the two emulate the same number of
connections (`migration_forgets`).  `fixed` and `connections` are what a migration
leaves, and `freshWith` is the sender it makes of that.  The hybrid slow start is not
reset completely, but it does not end slow start with the first sample of a round.
-/

import QuicNs3.Congestion.Cubic

namespace QuicNs3
namespace Congestion

open Lib

/-- What the options and the seeds determine, and `min_slow_start_exit_window_`. -/
structure Fixed where
  reno : Bool
  min4Mode : Bool
  slowStartLargeReduction : Bool
  noPrr : Bool
  minCongestionWindow : ℕ
  initialTcpCongestionWindow : ℕ
  initialMaxTcpCongestionWindow : ℕ
  minSlowStartExitWindow : ℕ
  experiments : CubicBytes.Experiments

namespace TcpCubicSender

section Rest

variable {σ : Type} {B : Backoff σ} {s t : TcpCubicSender σ}

/-- A sender without its hybrid slow start, its PRR and its statistics. -/
def core (s : TcpCubicSender σ) : TcpCubicSender σ :=
  { s with hybridSlowStart := .new, prr := .new, stats := ⟨0, 0, 0, 0⟩ }

/-- A sender with other ones. -/
def withRest (s : TcpCubicSender σ) (h : HybridSlowStart) (p : PrrSender) (stats : Stats) :
    TcpCubicSender σ :=
  { s with hybridSlowStart := h, prr := p, stats := stats }

theorem eq_withRest (h : s.core = t.core) :
    t = s.withRest t.hybridSlowStart t.prr t.stats := by
  cases s
  cases t
  simp only [core, mk.injEq] at h
  simp only [withRest, mk.injEq]
  simp_all

/-- Two senders that decide alike and do alike in each case. -/
theorem core_ite {c : Prop} [Decidable c] {a a' b b' : TcpCubicSender σ}
    (ha : c → a.core = a'.core) (hb : ¬c → b.core = b'.core) :
    (if c then a else b).core = (if c then a' else b').core := by
  split_ifs with h
  · exact ha h
  · exact hb h

variable (h : HybridSlowStart) (p : PrrSender) (stats : Stats)

theorem core_onLateLoss (lostBytes : ℕ) :
    ((s.withRest h p stats).onLateLoss lostBytes).core = (s.onLateLoss lostBytes).core :=
  core_ite (fun _ => core_ite (fun _ => rfl) fun _ => rfl) fun _ => rfl

theorem core_cutWindow : ((s.withRest h p stats).cutWindow B).core = (s.cutWindow B).core :=
  core_ite (fun _ => rfl) fun _ => core_ite (fun _ => rfl) fun _ => rfl

theorem core_onCutback (priorInFlight : ℕ) :
    ((s.withRest h p stats).onCutback B priorInFlight).core =
      (s.onCutback B priorInFlight).core := by
  -- Both cut the window of the same sender, with different rests.
  let exited : TcpCubicSender σ := { s with lastCutbackExitedSlowstart := s.inSlowStart }
  have hcut : ∀ h₁ p₁ stats₁ h₂ p₂ stats₂, ((exited.withRest h₁ p₁ stats₁).cutWindow B).core =
      ((exited.withRest h₂ p₂ stats₂).cutWindow B).core := fun _ _ _ _ _ _ =>
    (core_cutWindow _ _ _).trans (core_cutWindow _ _ _).symm
  have hfinish : ∀ a b : TcpCubicSender σ, a.core = b.core →
      ({ a with
        congestionWindow := max a.congestionWindow a.minCongestionWindow
        slowstartThreshold := max a.congestionWindow a.minCongestionWindow
        largestSentAtLastCutback := a.largestSentPacketNumber
        numAckedPackets := 0 } : TcpCubicSender σ).core =
      ({ b with
        congestionWindow := max b.congestionWindow b.minCongestionWindow
        slowstartThreshold := max b.congestionWindow b.minCongestionWindow
        largestSentAtLastCutback := b.largestSentPacketNumber
        numAckedPackets := 0 } : TcpCubicSender σ).core := by
    intro a b hab
    rw [eq_withRest hab]
    rfl
  exact hfinish _ _ (hcut ..)

theorem core_onPacketLost (packetNumber lostBytes priorInFlight : ℕ) :
    ((s.withRest h p stats).onPacketLost B packetNumber lostBytes priorInFlight).core =
      (s.onPacketLost B packetNumber lostBytes priorInFlight).core :=
  core_ite (fun _ => core_onLateLoss h p stats lostBytes)
    fun _ => core_onCutback h p stats priorInFlight

theorem core_maybeIncreaseCwnd (ackedBytes priorInFlight : ℕ) (minRtt eventTime : ℤ) :
    ((s.withRest h p stats).maybeIncreaseCwnd B ackedBytes priorInFlight minRtt eventTime).core =
      (s.maybeIncreaseCwnd B ackedBytes priorInFlight minRtt eventTime).core :=
  core_ite (fun _ => rfl) fun _ => core_ite (fun _ => rfl) fun _ => core_ite (fun _ => rfl) fun _ =>
    core_ite (fun _ => core_ite (fun _ => rfl) fun _ => rfl) fun _ => rfl

theorem core_onPacketAcked (packetNumber ackedBytes priorInFlight : ℕ) (minRtt eventTime : ℤ) :
    ((s.withRest h p stats).onPacketAcked B packetNumber ackedBytes priorInFlight minRtt
        eventTime).core =
      (s.onPacketAcked B packetNumber ackedBytes priorInFlight minRtt eventTime).core := by
  have hhybrid : ∀ a : TcpCubicSender σ, (if a.inSlowStart then
      { a with hybridSlowStart := a.hybridSlowStart.onPacketAcked packetNumber } else a).core =
        a.core := by
    intro a
    split_ifs <;> rfl
  refine core_ite (fun _ => core_ite (fun _ => rfl) fun _ => rfl) fun _ => ?_
  refine (hhybrid _).trans (.trans ?_ (hhybrid _).symm)
  exact core_maybeIncreaseCwnd (s := { s with
    largestAckedPacketNumber := max packetNumber s.largestAckedPacketNumber }) h p stats ..

/-- **The first sample of a round does not end slow start.** -/
theorem core_onRttUpdated (hstarted : s.hybridSlowStart.started = false)
    (hfound : s.hybridSlowStart.hystartFound = false) (latestRtt minRtt : ℤ) :
    (s.onRttUpdated latestRtt minRtt).core = s.core := by
  have hstay : (s.hybridSlowStart.shouldExitSlowStart latestRtt minRtt
      (s.congestionWindow / kDefaultTCPMSS)).1 = false := by
    unfold HybridSlowStart.shouldExitSlowStart HybridSlowStart.startReceiveRound
    simp only [hstarted, hfound, Bool.false_eq_true, if_false]
    split_ifs <;> simp_all
  unfold onRttUpdated
  split_ifs
  · dsimp only
    rw [hstay]
    rfl
  · rfl

/-- **A congestion event changes two senders alike** that differ in their rests only, and
that have both just restarted their slow start. -/
theorem core_onCongestionEvent (hst : s.core = t.core)
    (hs : s.hybridSlowStart.started = false ∧ s.hybridSlowStart.hystartFound = false)
    (ht : t.hybridSlowStart.started = false ∧ t.hybridSlowStart.hystartFound = false)
    (rttUpdated : Bool) (priorInFlight : ℕ) (latestRtt minRtt eventTime : ℤ)
    (ackedPackets lostPackets : List (ℕ × ℕ)) :
    (s.onCongestionEvent B rttUpdated priorInFlight latestRtt minRtt eventTime ackedPackets
        lostPackets).core =
      (t.onCongestionEvent B rttUpdated priorInFlight latestRtt minRtt eventTime ackedPackets
        lostPackets).core := by
  have hfold : ∀ (f : TcpCubicSender σ → ℕ × ℕ → TcpCubicSender σ),
      (∀ a h p stats x, (f (withRest a h p stats) x).core = (f a x).core) →
      ∀ (l : List (ℕ × ℕ)) (a b : TcpCubicSender σ), a.core = b.core →
        (l.foldl f a).core = (l.foldl f b).core := by
    intro f hf l
    induction l with
    | nil => exact fun _ _ hab => hab
    | cons x l ih =>
      refine fun a b hab => ih _ _ ?_
      rw [eq_withRest hab]
      exact (hf a _ _ _ x).symm
  refine hfold _ (fun _ h p stats _ => core_onPacketAcked h p stats ..) _ _ _ ?_
  refine hfold _ (fun _ h p stats _ => core_onPacketLost h p stats ..) _ _ _ ?_
  cases rttUpdated with
  | false => exact hst
  | true =>
    exact (core_onRttUpdated hs.1 hs.2 latestRtt minRtt).trans
      (hst.trans (core_onRttUpdated ht.1 ht.2 latestRtt minRtt).symm)

end Rest

section Kept

variable {F : Floats} {s t : TcpCubicSender CubicBytes}

def fixed (s : TcpCubicSender CubicBytes) : Fixed where
  reno := s.reno
  min4Mode := s.min4Mode
  slowStartLargeReduction := s.slowStartLargeReduction
  noPrr := s.noPrr
  minCongestionWindow := s.minCongestionWindow
  initialTcpCongestionWindow := s.initialTcpCongestionWindow
  initialMaxTcpCongestionWindow := s.initialMaxTcpCongestionWindow
  minSlowStartExitWindow := s.minSlowStartExitWindow
  experiments := s.cubic.experiments

/-- The number of emulated connections, for the sender and for its `CubicBytes`. -/
def connections (s : TcpCubicSender CubicBytes) : ℕ × ℕ :=
  (s.numConnections, s.cubic.numConnections)

/-- The sender that a migration makes. -/
def freshWith (f : Fixed) (n : ℕ × ℕ) : TcpCubicSender CubicBytes where
  hybridSlowStart := .new
  prr := .new
  stats := ⟨0, 0, 0, 0⟩
  reno := f.reno
  numConnections := n.1
  largestSentPacketNumber := 0
  largestAckedPacketNumber := 0
  largestSentAtLastCutback := 0
  min4Mode := f.min4Mode
  lastCutbackExitedSlowstart := false
  slowStartLargeReduction := f.slowStartLargeReduction
  noPrr := f.noPrr
  cubic := .ofSettings n.2 f.experiments
  numAckedPackets := 0
  congestionWindow := f.initialTcpCongestionWindow
  minCongestionWindow := f.minCongestionWindow
  maxCongestionWindow := f.initialMaxTcpCongestionWindow
  slowstartThreshold := f.initialMaxTcpCongestionWindow
  initialTcpCongestionWindow := f.initialTcpCongestionWindow
  initialMaxTcpCongestionWindow := f.initialMaxTcpCongestionWindow
  minSlowStartExitWindow := f.minSlowStartExitWindow

/-- **What a migration makes of a sender.** -/
theorem core_onConnectionMigration (s : TcpCubicSender CubicBytes) :
    (s.onConnectionMigration (CubicBytes.backoff F)).core = freshWith s.fixed s.connections := rfl

/-! ## What the operations leave -/

/-- An operation that changes neither. -/
def Leaves (s t : TcpCubicSender CubicBytes) : Prop :=
  t.fixed = s.fixed ∧ t.connections = s.connections

theorem leaves_ite {c : Prop} [Decidable c] {a b : TcpCubicSender CubicBytes}
    (ha : c → Leaves s a) (hb : ¬c → Leaves s b) : Leaves s (if c then a else b) := by
  split_ifs with h
  · exact ha h
  · exact hb h

theorem leaves_onPacketSent (packetNumber bytes : ℕ) (isRetransmittable : Bool) :
    Leaves s (s.onPacketSent packetNumber bytes isRetransmittable) :=
  leaves_ite (fun _ => ⟨rfl, rfl⟩) fun _ => ⟨rfl, rfl⟩

theorem leaves_onRttUpdated (latestRtt minRtt : ℤ) :
    Leaves s (s.onRttUpdated latestRtt minRtt) :=
  leaves_ite (fun _ => leaves_ite (fun _ => ⟨rfl, rfl⟩) fun _ => ⟨rfl, rfl⟩) fun _ => ⟨rfl, rfl⟩

theorem leaves_onLateLoss (lostBytes : ℕ) : Leaves s (s.onLateLoss lostBytes) :=
  leaves_ite (fun _ => leaves_ite (fun _ => ⟨rfl, rfl⟩) fun _ => ⟨rfl, rfl⟩) fun _ => ⟨rfl, rfl⟩

/-- A cutback that would take half of the window as the smallest one to leave slow start
with. -/
def SetsExitWindow {σ : Type} (s : TcpCubicSender σ) : Prop :=
  s.slowStartLargeReduction = true ∧ s.inSlowStart ∧
    2 * s.initialTcpCongestionWindow ≤ s.congestionWindow

instance {σ : Type} (s : TcpCubicSender σ) : Decidable s.SetsExitWindow :=
  inferInstanceAs (Decidable (_ ∧ _ ∧ _))

theorem leaves_onCutback (hs : ¬s.SetsExitWindow) (priorInFlight : ℕ) :
    Leaves s (s.onCutback (CubicBytes.backoff F) priorInFlight) := by
  have hcut : ∀ h p stats exited, Leaves s (cutWindow (CubicBytes.backoff F) { s with
      hybridSlowStart := h, prr := p, stats := stats, lastCutbackExitedSlowstart := exited }) := by
    intro h p stats exited
    refine leaves_ite (fun hc => ⟨?_, rfl⟩)
      fun _ => leaves_ite (fun _ => ⟨rfl, rfl⟩) fun _ => ⟨rfl, rfl⟩
    have hlt : ¬2 * s.initialTcpCongestionWindow ≤ s.congestionWindow :=
      fun hle => hs ⟨hc.1, hc.2, hle⟩
    exact congrArg (fun w => ({ s.fixed with minSlowStartExitWindow := w } : Fixed)) (if_neg hlt)
  exact hcut ..

theorem leaves_onPacketLost {packetNumber : ℕ}
    (hs : ¬(s.largestSentAtLastCutback < packetNumber ∧ s.SetsExitWindow))
    (lostBytes priorInFlight : ℕ) :
    Leaves s (s.onPacketLost (CubicBytes.backoff F) packetNumber lostBytes priorInFlight) :=
  leaves_ite (fun _ => leaves_onLateLoss lostBytes) fun hlate =>
    leaves_onCutback (fun hsets => hs ⟨Nat.lt_of_not_le hlate, hsets⟩) priorInFlight

/-- No loss changes the number of connections. -/
theorem connections_onPacketLost (packetNumber lostBytes priorInFlight : ℕ) :
    (s.onPacketLost (CubicBytes.backoff F) packetNumber lostBytes priorInFlight).connections =
      s.connections := by
  by_cases hs : s.largestSentAtLastCutback < packetNumber ∧ s.SetsExitWindow
  · have hcut : ∀ a : TcpCubicSender CubicBytes, a.slowStartLargeReduction = true →
        a.inSlowStart → (a.cutWindow (CubicBytes.backoff F)).connections = a.connections := by
      intro a hlarge hslow
      rw [cutWindow, if_pos ⟨hlarge, hslow⟩, connections, connections]
    rw [onPacketLost, if_neg (not_le.2 hs.1)]
    exact hcut _ hs.2.1 hs.2.2.1
  · exact (leaves_onPacketLost hs lostBytes priorInFlight).2

theorem leaves_maybeIncreaseCwnd (ackedBytes priorInFlight : ℕ) (minRtt eventTime : ℤ) :
    Leaves s (s.maybeIncreaseCwnd (CubicBytes.backoff F) ackedBytes priorInFlight minRtt
      eventTime) := by
  refine leaves_ite (fun _ => ⟨rfl, rfl⟩) fun _ => leaves_ite (fun _ => ⟨rfl, rfl⟩) fun _ =>
    leaves_ite (fun _ => ⟨rfl, rfl⟩) fun _ => leaves_ite (fun _ => ?_) fun _ => ?_
  · exact leaves_ite (fun _ => ⟨rfl, rfl⟩) fun _ => ⟨rfl, rfl⟩
  · obtain ⟨hn, he⟩ := CubicBytes.settings_congestionWindowAfterAck F s.cubic ackedBytes
      s.congestionWindow minRtt eventTime
    exact ⟨congrArg (fun e => ({ s.fixed with experiments := e } : Fixed)) he,
      congrArg (Prod.mk s.numConnections) hn⟩

theorem leaves_onPacketAcked (packetNumber ackedBytes priorInFlight : ℕ) (minRtt eventTime : ℤ) :
    Leaves s (s.onPacketAcked (CubicBytes.backoff F) packetNumber ackedBytes priorInFlight minRtt
      eventTime) := by
  refine leaves_ite (fun _ => leaves_ite (fun _ => ⟨rfl, rfl⟩) fun _ => ⟨rfl, rfl⟩) fun _ => ?_
  have hgrow := leaves_maybeIncreaseCwnd (F := F) (s := { s with
    largestAckedPacketNumber := max packetNumber s.largestAckedPacketNumber }) ackedBytes
    priorInFlight minRtt eventTime
  exact leaves_ite (fun _ => hgrow) fun _ => hgrow

theorem leaves_onRetransmissionTimeout (packetsRetransmitted : Bool) :
    Leaves s (s.onRetransmissionTimeout (CubicBytes.backoff F) packetsRetransmitted) :=
  leaves_ite (fun _ => ⟨rfl, rfl⟩) fun _ => ⟨rfl, rfl⟩

theorem leaves_adjustNetworkParameters (bits us : ℤ) :
    Leaves s (s.adjustNetworkParameters bits us) :=
  leaves_ite (fun _ => ⟨rfl, rfl⟩) fun _ => ⟨rfl, rfl⟩

/-- An option changes the settings alike. -/
theorem fixed_setOption (h : s.fixed = t.fixed) (tag : Tag) :
    (s.setOption (CubicBytes.backoff F) tag).fixed =
      (t.setOption (CubicBytes.backoff F) tag).fixed := by
  cases tag with
  | iw03 | iw10 | iw20 | iw50 => exact h
  | min1 =>
    exact congrArg (fun f => ({ f with minCongestionWindow := 1 * kDefaultTCPMSS } : Fixed)) h
  | min4 =>
    exact congrArg (fun f =>
      ({ f with min4Mode := true, minCongestionWindow := 1 * kDefaultTCPMSS } : Fixed)) h
  | sslr => exact congrArg (fun f => ({ f with slowStartLargeReduction := true } : Fixed)) h
  | nprr => exact congrArg (fun f => ({ f with noPrr := true } : Fixed)) h
  | ccvx => exact congrArg (fun f => ({ f with experiments.fixConvexMode := true } : Fixed)) h
  | cbqt =>
    exact congrArg (fun f => ({ f with experiments.fixCubicQuantization := true } : Fixed)) h
  | blmx => exact congrArg (fun f => ({ f with experiments.fixBetaLastMax := true } : Fixed)) h
  | cpau => exact congrArg (fun f => ({ f with experiments.allowPerAckUpdates := true } : Fixed)) h

theorem connections_setOption (tag : Tag) :
    (s.setOption (CubicBytes.backoff F) tag).connections = s.connections := by
  cases tag <;> rfl

/-- **The options of the client** change what a migration leaves alike. -/
theorem fixed_setFromConfig (h : s.fixed = t.fixed) (options : List Tag) :
    (s.setFromConfig (CubicBytes.backoff F) options).fixed =
      (t.setFromConfig (CubicBytes.backoff F) options).fixed := by
  unfold setFromConfig
  generalize [Tag.iw03, .iw10, .iw20, .iw50, .min1, .min4, .sslr, .nprr, .ccvx, .cbqt, .blmx,
    .cpau] = tags
  induction tags generalizing s t with
  | nil => exact h
  | cons tag tags ih =>
    refine ih ?_
    dsimp only
    by_cases htag : tag ∈ options
    · rw [if_pos htag, if_pos htag]
      exact fixed_setOption h tag
    · rw [if_neg htag, if_neg htag]
      exact h

theorem connections_setFromConfig (options : List Tag) :
    (s.setFromConfig (CubicBytes.backoff F) options).connections = s.connections := by
  refine List.foldlRecOn (motive := fun t : TcpCubicSender CubicBytes =>
    t.connections = s.connections) _ _ rfl fun t ht tag _ => ?_
  split_ifs
  · exact (connections_setOption tag).trans ht
  · exact ht

end Kept

end TcpCubicSender

/-! ## Histories -/

/-- The options that a call sets. -/
def Op.options? : Op → Option (List Tag)
  | .setFromConfig options => some options
  | _ => none

/-- An operation that does not take the smallest window to leave slow start with from the
path: not a loss that cuts back, with large reductions, in slow start, and with a window
of at least twice the initial one. -/
def Op.Spares {σ : Type} (s : TcpCubicSender σ) : Op → Prop
  | .packetLost packetNumber _ _ => ¬(s.largestSentAtLastCutback < packetNumber ∧ s.SetsExitWindow)
  | _ => True

instance {σ : Type} (s : TcpCubicSender σ) : (op : Op) → Decidable (op.Spares s)
  | .packetLost _ _ _ => inferInstanceAs (Decidable (¬(_ ∧ _)))
  | .setInitialCongestionWindow _ _ | .setCongestionWindow _ _ | .setMinSlowstartExitWindow _ _
  | .setFromConfig _ | .adjustNetworkParameters _ _ | .setNumEmulatedConnections _
  | .packetSent _ _ _ | .rttUpdated _ _ | .packetAcked _ _ _ _ _ | .retransmissionTimeout _
  | .connectionMigration => .isTrue trivial

namespace TcpCubicSender

variable {F : Floats} {s t : TcpCubicSender CubicBytes} {op : Op} {es : List Op}

/-- **One operation** leaves what a migration does, or sets the options. -/
theorem fixed_apply (hseeds : ¬op.Seeds) (hspares : op.Spares s) :
    (s.apply (CubicBytes.backoff F) op).fixed =
      (op.options?.toList.foldl (setFromConfig (CubicBytes.backoff F)) s).fixed := by
  cases op with
  | setInitialCongestionWindow bits us => exact absurd trivial hseeds
  | setCongestionWindow bits us => exact absurd trivial hseeds
  | setMinSlowstartExitWindow bits us => exact absurd trivial hseeds
  | setFromConfig options => rfl
  | adjustNetworkParameters bits us => exact (leaves_adjustNetworkParameters bits us).1
  | setNumEmulatedConnections n => rfl
  | packetSent packetNumber bytes isRetransmittable => exact (leaves_onPacketSent ..).1
  | rttUpdated latestRtt minRtt => exact (leaves_onRttUpdated ..).1
  | packetLost packetNumber lostBytes priorInFlight => exact (leaves_onPacketLost hspares ..).1
  | packetAcked packetNumber ackedBytes priorInFlight minRtt eventTime =>
    exact (leaves_onPacketAcked ..).1
  | retransmissionTimeout packetsRetransmitted => exact (leaves_onRetransmissionTimeout ..).1
  | connectionMigration => rfl

/-- **A history** leaves what its options do. -/
theorem fixed_run (hseeds : ∀ op ∈ es, ¬op.Seeds)
    (hspares : EachStep (step (CubicBytes.backoff F)) (fun s op => op.Spares s) s es)
    (hr : run (step (CubicBytes.backoff F)) s es = some t) :
    t.fixed =
      ((es.filterMap Op.options?).foldl (setFromConfig (CubicBytes.backoff F)) s).fixed := by
  induction es using List.reverseRecOn generalizing t with
  | nil => exact Option.some.inj hr ▸ rfl
  | append_singleton es op ih =>
    obtain ⟨u, hu, ht⟩ := run_concat_eq_some.1 hr
    have hu' := ih (fun op hop => hseeds op (List.mem_append_left _ hop))
      (hspares.suffix (show [] ++ es <+: es ++ [op] from List.prefix_append es [op]) rfl) hu
    unfold step at ht
    split_ifs at ht
    obtain rfl := Option.some.inj ht
    rw [fixed_apply (hseeds op (by simp)) (hspares es op u (List.prefix_refl _) hu),
      List.filterMap_append, List.foldl_append]
    have hop : List.filterMap Op.options? [op] = op.options?.toList := by
      cases h : op.options? <;> simp [h]
    rw [hop]
    cases op.options? with
    | none => exact hu'
    | some options => exact fixed_setFromConfig hu' options

/-- The number of emulated connections is the same for the sender and its
`CubicBytes`. -/
def Paired (s : TcpCubicSender CubicBytes) : Prop := s.connections.1 = s.connections.2

theorem Paired.step (h : Paired s) (hs : s.step (CubicBytes.backoff F) op = some t) :
    Paired t := by
  have hsame : t.connections = s.connections → Paired t := fun he => by
    unfold Paired
    rw [he]
    exact h
  unfold TcpCubicSender.step at hs
  split_ifs at hs
  obtain rfl := Option.some.inj hs
  cases op with
  | setInitialCongestionWindow bits us => exact h
  | setCongestionWindow bits us => exact h
  | setMinSlowstartExitWindow bits us => exact h
  | setFromConfig options => exact hsame (connections_setFromConfig options)
  | adjustNetworkParameters bits us => exact hsame (leaves_adjustNetworkParameters bits us).2
  | setNumEmulatedConnections n => exact Eq.refl (max 1 n).toNat
  | packetSent packetNumber bytes isRetransmittable => exact hsame (leaves_onPacketSent ..).2
  | rttUpdated latestRtt minRtt => exact hsame (leaves_onRttUpdated ..).2
  | packetLost packetNumber lostBytes priorInFlight => exact hsame (connections_onPacketLost ..)
  | packetAcked packetNumber ackedBytes priorInFlight minRtt eventTime =>
    exact hsame (leaves_onPacketAcked ..).2
  | retransmissionTimeout packetsRetransmitted =>
    exact hsame (leaves_onRetransmissionTimeout ..).2
  | connectionMigration => exact h

/-- Two senders agree on their windows and on what belongs to them. -/
structure SameWindows (s t : TcpCubicSender CubicBytes) : Prop where
  congestionWindow : s.congestionWindow = t.congestionWindow
  slowstartThreshold : s.slowstartThreshold = t.slowstartThreshold
  maxCongestionWindow : s.maxCongestionWindow = t.maxCongestionWindow
  minSlowStartExitWindow : s.minSlowStartExitWindow = t.minSlowStartExitWindow
  numAckedPackets : s.numAckedPackets = t.numAckedPackets
  largestSentAtLastCutback : s.largestSentAtLastCutback = t.largestSentAtLastCutback
  lastCutbackExitedSlowstart : s.lastCutbackExitedSlowstart = t.lastCutbackExitedSlowstart

theorem sameWindows_of_core (h : s.core = t.core) : SameWindows s t := by
  rw [eq_withRest h]
  exact ⟨rfl, rfl, rfl, rfl, rfl, rfl, rfl⟩

/-- **A migration forgets the old path**, unless it has left its mark on
`min_slow_start_exit_window_` or on the number of emulated connections.  Two histories
that begin alike, with the seeds, and set the same options agree on the windows after a
migration, and still after the next congestion event. -/
theorem migration_forgets (F : Floats) (reno : Bool) (limits : Limits)
    (seeds es₁ es₂ : List Op) {s₀ s₁ s₂ : TcpCubicSender CubicBytes}
    (hr₀ : run (step (CubicBytes.backoff F)) (new (CubicBytes.backoff F) reno limits) seeds =
      some s₀)
    (hr₁ : run (step (CubicBytes.backoff F)) s₀ es₁ = some s₁)
    (hr₂ : run (step (CubicBytes.backoff F)) s₀ es₂ = some s₂)
    (hseeds₁ : ∀ op ∈ es₁, ¬op.Seeds) (hseeds₂ : ∀ op ∈ es₂, ¬op.Seeds)
    (hoptions : es₁.filterMap Op.options? = es₂.filterMap Op.options?)
    (hspares₁ : EachStep (step (CubicBytes.backoff F)) (fun s op => op.Spares s) s₀ es₁)
    (hspares₂ : EachStep (step (CubicBytes.backoff F)) (fun s op => op.Spares s) s₀ es₂)
    (hconnections : s₁.numConnections = s₂.numConnections) :
    SameWindows (s₁.onConnectionMigration (CubicBytes.backoff F))
        (s₂.onConnectionMigration (CubicBytes.backoff F)) ∧
      ∀ rttUpdated priorInFlight latestRtt minRtt eventTime ackedPackets lostPackets,
        SameWindows
          ((s₁.onConnectionMigration (CubicBytes.backoff F)).onCongestionEvent
            (CubicBytes.backoff F) rttUpdated priorInFlight latestRtt minRtt eventTime ackedPackets
            lostPackets)
          ((s₂.onConnectionMigration (CubicBytes.backoff F)).onCongestionEvent
            (CubicBytes.backoff F) rttUpdated priorInFlight latestRtt minRtt eventTime ackedPackets
            lostPackets) := by
  have hfixed : s₁.fixed = s₂.fixed := by
    rw [fixed_run hseeds₁ hspares₁ hr₁, fixed_run hseeds₂ hspares₂ hr₂, hoptions]
  have hpaired : Paired (new (CubicBytes.backoff F) reno limits) := Eq.refl 2
  have hpaired₀ : Paired s₀ := run_invariant (fun _ _ _ h hs => h.step hs) hpaired hr₀
  have hpaired₁ : Paired s₁ := run_invariant (fun _ _ _ h hs => h.step hs) hpaired₀ hr₁
  have hpaired₂ : Paired s₂ := run_invariant (fun _ _ _ h hs => h.step hs) hpaired₀ hr₂
  have hconn : s₁.connections = s₂.connections :=
    Prod.ext hconnections (hpaired₁.symm.trans (hconnections.trans hpaired₂))
  have hcore : (s₁.onConnectionMigration (CubicBytes.backoff F)).core =
      (s₂.onConnectionMigration (CubicBytes.backoff F)).core := by
    rw [core_onConnectionMigration, core_onConnectionMigration, hfixed, hconn]
  refine ⟨sameWindows_of_core hcore, fun rttUpdated priorInFlight latestRtt minRtt eventTime
    ackedPackets lostPackets => ?_⟩
  exact sameWindows_of_core (core_onCongestionEvent hcore ⟨rfl, rfl⟩ ⟨rfl, rfl⟩ rttUpdated
    priorInFlight latestRtt minRtt eventTime ackedPackets lostPackets)

/-- With large reductions and a window of 50 packets as options: a history with nothing
more, and one with a timeout, an ack and a loss. -/
theorem migration_forgets_timeout :
    let B := CubicBytes.backoff .exact
    let options : Op := .setFromConfig [.iw50, .sslr]
    let events : List Op := [options, .packetSent 1 1000 true, .packetSent 2 1000 true,
      .retransmissionTimeout true, .packetAcked 1 1000 2000 30000 50000, .packetLost 2 1000 2000]
    (run (step B) (new B false .default) [options]).map (·.congestionWindow) = some 73000 ∧
      (run (step B) (new B false .default) events).map (·.congestionWindow) = some 2920 ∧
      ∀ s₁ s₂, run (step B) (new B false .default) [options] = some s₁ →
        run (step B) (new B false .default) events = some s₂ →
        SameWindows (s₁.onConnectionMigration B) (s₂.onConnectionMigration B) := by
  intro B options events
  refine ⟨by decide +kernel, by decide +kernel, fun s₁ s₂ h₁ h₂ => ?_⟩
  have hn₁ : (run (step B) (new B false .default) [options]).map (·.numConnections) = some 2 := by
    decide +kernel
  have hn₂ : (run (step B) (new B false .default) events).map (·.numConnections) = some 2 := by
    decide +kernel
  rw [h₁] at hn₁
  rw [h₂] at hn₂
  refine (migration_forgets .exact false .default [] [options] events rfl h₁ h₂ ?_ ?_ rfl
    (by decide +kernel) (by decide +kernel)
    (Option.some.inj (hn₁.trans hn₂.symm))).1
  · simp [options, Op.Seeds]
  · simp [options, events, Op.Seeds]

/-- With the same options, a client whose initial window is ten packets: the loss of the
first packet, sent with the window of 50, leaves half of that behind.  On the new path
one history has a window of ten packets after two losses, the other of 25.  And a loss
cuts the window of two emulated connections to 85 %, and that of five to 94 %. -/
theorem not_migration_forgets_cutback :
    let B := CubicBytes.backoff .exact
    let seeds := seeding 1168000 1168000 100000 100000
    let options : Op := .setFromConfig [.iw50, .sslr]
    let cutback : List Op := [.packetSent 1 1000 true, .packetLost 1 1000 1000]
    let losses : List Op := [.connectionMigration, .packetSent 2 1000 true,
      .packetSent 3 1000 true, .packetLost 2 1000 2000, .packetLost 3 1000 2000]
    let exitWindow (s : TcpCubicSender CubicBytes) := (s.numConnections, s.minSlowStartExitWindow)
    (run (step B) (new B false .default) (seeds ++ [options] ++ [.connectionMigration])).map
        exitWindow = some (2, 14600) ∧
      (run (step B) (new B false .default) (seeds ++ [options] ++ cutback ++
        [.connectionMigration])).map exitWindow = some (2, 36500) ∧
      (run (step B) (new B false .default) (seeds ++ [options] ++ losses)).map
        (·.congestionWindow) = some 14600 ∧
      (run (step B) (new B false .default) (seeds ++ [options] ++ cutback ++ losses)).map
        (·.congestionWindow) = some 36500 ∧
      (run (step B) (new B false .default) [.connectionMigration, .packetSent 2 1000 true,
        .packetLost 2 1000 1000]).map (·.congestionWindow) = some 39712 ∧
      (run (step B) (new B false .default) [.setNumEmulatedConnections 5, .connectionMigration,
        .packetSent 2 1000 true, .packetLost 2 1000 1000]).map (·.congestionWindow) =
        some 43916 := by
  decide +kernel

end TcpCubicSender

end Congestion
end QuicNs3
