/-
# The initial round trip time

`set_initial_rtt_us` takes any positive value; the range of 10 ms to 15 s is kept by its
callers, each for itself.  `SetFromConfig` and `ResumeConnectionState` bring their value
into the range, and a migration sets the default.  `CreateQuicSession`
(`net/tools/quic/quic_simple_dispatcher.cc`) passes the mean of the round trip times that
the history has for the client, as it is.  What is wrong there stays until the next of
the other calls, so the range is kept exactly if it is kept at the start
(`always_initialRtt_iff`).
-/

import QuicNs3.History.Access
import QuicNs3.Rtt.Basic

namespace QuicNs3
namespace Rtt

open History Lib

/-- The initial round trip time is from 10 ms to 15 s. -/
def SaneInitialRtt (s : RttStats) : Prop :=
  kMinInitialRoundTripTimeUs ≤ s.initialRttUs ∧ s.initialRttUs ≤ kMaxInitialRoundTripTimeUs

instance (s : RttStats) : Decidable (SaneInitialRtt s) := inferInstanceAs (Decidable (_ ∧ _))

/-- The configuration has an initial round trip time, received or to send. -/
def Config.HasInitialRtt (config : Config) : Prop :=
  0 < config.receivedInitialRoundTripTimeUs.getD 0 ∨
    0 < config.initialRoundTripTimeUsToSend.getD 0

variable {D : Type}

/-- `CreateQuicSession`: the history of the client is used, and `Initialize` makes the
first call of `SetFromConfig`.  `toInt64` converts a `double`, and has no result for one
that is out of range. -/
def createQuicSession (toInt64 : D → Option ℤ) (entry : Option (Seed D)) (config : Config) :
    Option RttStats :=
  match entry with
  | none => some (RttStats.new.setFromConfig config)
  | some seed => do
    let initialRtt ← toInt64 seed.initialRtt
    let initialSrtt ← toInt64 seed.initialSrtt
    some (((RttStats.new.setInitialRttUs initialRtt).setInitialSrttUs initialSrtt).setFromConfig
      config)

/-- What the history has for the client is not used, or is in the range. -/
def SaneEntry (toInt64 : D → Option ℤ) (entry : Option (Seed D)) : Prop :=
  ∀ seed ∈ entry, ∀ us ∈ toInt64 seed.initialRtt,
    us ≤ 0 ∨ (kMinInitialRoundTripTimeUs ≤ us ∧ us ≤ kMaxInitialRoundTripTimeUs)

variable {s t : RttStats} {o : Op} {config : Config}

/-! ## The calls that keep the range -/

theorem saneInitialRtt_clamp (s : RttStats) (us : ℕ) :
    SaneInitialRtt (s.setInitialRttUs (RttStats.clampInitialRtt us)) := by
  have hpos : ¬(RttStats.clampInitialRtt us : ℤ) ≤ 0 := by
    simp only [RttStats.clampInitialRtt, kMinInitialRoundTripTimeUs, kNumMicrosPerMilli]
    omega
  rw [RttStats.setInitialRttUs, if_neg hpos]
  exact ⟨le_max_left _ _, max_le (by decide) (min_le_left _ _)⟩

theorem initialRttUs_addSample {r : ℕ} (h : s.addSample r = some t) :
    t.initialRttUs = s.initialRttUs := by
  unfold RttStats.addSample at h
  dsimp only at h
  split_ifs at h
  · exact Option.some.inj h ▸ rfl
  · obtain ⟨_, -, h⟩ := Option.bind_eq_some_iff.1 h
    obtain ⟨_, -, h⟩ := Option.bind_eq_some_iff.1 h
    exact Option.some.inj h ▸ rfl

theorem initialRttUs_updateRtt {sendDelta ackDelay : ℤ}
    (h : s.updateRtt sendDelta ackDelay = some t) : t.initialRttUs = s.initialRttUs := by
  unfold RttStats.updateRtt at h
  by_cases ha : Accepted sendDelta
  · rw [if_pos ha] at h
    obtain ⟨_, -, h⟩ := Option.bind_eq_some_iff.1 h
    exact (initialRttUs_addSample h).trans rfl
  · rw [if_neg ha] at h
    exact Option.some.inj h ▸ rfl

theorem initialRttUs_setInitialSrttUs (s : RttStats) (us : ℤ) :
    (s.setInitialSrttUs us).initialRttUs = s.initialRttUs := by
  unfold RttStats.setInitialSrttUs
  split_ifs <;> rfl

/-- A configuration that has an initial round trip time sets it, and another one does
nothing. -/
theorem saneInitialRtt_setFromConfig :
    SaneInitialRtt (s.setFromConfig config) ↔ config.HasInitialRtt ∨ SaneInitialRtt s := by
  unfold RttStats.setFromConfig Config.HasInitialRtt
  split_ifs with h₁ h₂
  · exact iff_of_true (saneInitialRtt_clamp s _) (.inl (.inl h₁))
  · exact iff_of_true (saneInitialRtt_clamp s _) (.inl (.inr h₂))
  · exact ⟨.inr, fun h => h.resolve_left (not_or.2 ⟨h₁, h₂⟩)⟩

/-- **Every call keeps the range.** -/
theorem SaneInitialRtt.step (h : SaneInitialRtt s) (hs : s.step o = some t) :
    SaneInitialRtt t := by
  cases o with
  | updateRtt sendDelta ackDelay =>
    unfold SaneInitialRtt
    rw [initialRttUs_updateRtt hs]
    exact h
  | expireSmoothedMetrics => exact Option.some.inj hs ▸ h
  | setInitialSrttUs us =>
    obtain rfl := Option.some.inj hs
    unfold SaneInitialRtt
    rw [initialRttUs_setInitialSrttUs]
    exact h
  | setFromConfig config =>
    exact Option.some.inj hs ▸ saneInitialRtt_setFromConfig.2 (.inr h)
  | resumeConnectionState minRttMs =>
    obtain rfl := Option.some.inj hs
    cases minRttMs with
    | none => exact h
    | some ms => exact saneInitialRtt_clamp s _
  | onConnectionMigration =>
    obtain rfl := Option.some.inj hs
    exact (by decide : SaneInitialRtt RttStats.new)

/-! ## The seed -/

theorem saneInitialRtt_setInitialRttUs (us : ℤ) :
    SaneInitialRtt (RttStats.new.setInitialRttUs us) ↔
      us ≤ 0 ∨ (kMinInitialRoundTripTimeUs ≤ us ∧ us ≤ kMaxInitialRoundTripTimeUs) := by
  unfold RttStats.setInitialRttUs
  split_ifs with h
  · exact iff_of_true (by decide) (.inl h)
  · unfold SaneInitialRtt
    dsimp only
    omega

/-- The range after `CreateQuicSession`. -/
theorem saneInitialRtt_created {toInt64 : D → Option ℤ} {entry : Option (Seed D)}
    (hs : createQuicSession toInt64 entry config = some s) :
    SaneInitialRtt s ↔ config.HasInitialRtt ∨ SaneEntry toInt64 entry := by
  cases entry with
  | none =>
    obtain rfl := Option.some.inj hs
    refine saneInitialRtt_setFromConfig.trans (or_congr_right (iff_of_true (by decide) ?_))
    intro seed hseed
    cases hseed
  | some seed =>
    obtain ⟨initialRtt, hrtt, hs⟩ := Option.bind_eq_some_iff.1 hs
    obtain ⟨initialSrtt, -, hs⟩ := Option.bind_eq_some_iff.1 hs
    obtain rfl := Option.some.inj hs
    refine saneInitialRtt_setFromConfig.trans (or_congr_right ?_)
    have hset := saneInitialRtt_setInitialRttUs initialRtt
    unfold SaneInitialRtt at hset ⊢
    rw [initialRttUs_setInitialSrttUs, hset]
    constructor
    · rintro h _ ⟨⟩ us hus
      exact Option.some.inj (hrtt.symm.trans hus) ▸ h
    · exact fun h => h seed rfl initialRtt hrtt

/-- **When the initial round trip time is always sane**: if the configuration sets it at
the start, or the history has none for the client or one in the range. -/
theorem always_initialRtt_iff (toInt64 : D → Option ℤ) (entry : Option (Seed D)) (config : Config)
    (ops : List Op) (hs : createQuicSession toInt64 entry config = some s) :
    Always RttStats.step SaneInitialRtt s ops ↔
      config.HasInitialRtt ∨ SaneEntry toInt64 entry := by
  rw [← saneInitialRtt_created hs]
  exact ⟨fun h => h [] s List.nil_prefix rfl,
    fun h => always_of_step (fun _ _ _ h ht => h.step ht) h⟩

/-- A client with a mean of 40 ms in the history, through a measurement, a resumption and
a migration. -/
theorem always_initialRtt_forty_ms :
    let entry : Seed ℤ := ⟨(0, 0), (0, 0), (0, 0), 40000, 45000⟩
    let ops : List Op :=
      [.updateRtt 38000 0, .resumeConnectionState (some 5), .onConnectionMigration]
    ∃ s, createQuicSession some (some entry) ⟨none, none⟩ = some s ∧
      Always RttStats.step SaneInitialRtt s ops := by
  intro entry ops
  refine ⟨_, rfl, (always_initialRtt_iff some (some entry) ⟨none, none⟩ ops rfl).2 (.inr ?_)⟩
  rintro _ ⟨⟩ _ ⟨⟩
  decide

/-- A client with 5 ms for every statistic of its round trips. -/
theorem not_initialRtt_five_ms :
    ∃ entry, History.seed (List.replicate 99 (5000 : ℤ)) = .ok entry ∧
      ∃ s, createQuicSession some (some entry) ⟨none, none⟩ = some s ∧ s.initialRttUs = 5000 ∧
        ¬Always RttStats.step SaneInitialRtt s [] := by
  refine ⟨_, rfl, _, rfl, rfl, fun h => ?_⟩
  exact absurd (h [] _ List.nil_prefix rfl) (by decide)

end Rtt
end QuicNs3
