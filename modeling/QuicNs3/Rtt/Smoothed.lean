/-
# The smoothed round trip time

`UpdateRtt` rounds the two terms of its average separately, and the sum of the roundings
of `7m/8` and `m/8` may be `m + 1`.  So the range of the samples is not kept, but one more
at its upper end is, over any number of updates (`nextSmoothedRtt_mem`).

Below `2 ^ 50` nothing else is lost: seven eighths of the smoothed round trip time are
exact in a `double`.  The mean deviation is not exact in a `float`, but it does not pass
the power of two above the samples, so that it always fits an `int64_t`
(`nextMeanDeviation_le`).
-/

import QuicNs3.Rtt.Basic

namespace QuicNs3
namespace Rtt

open Lib

variable {m M n d r : ℕ} {s t : RttStats} {o : Op}

/-! ## The averages -/

theorem toDouble_of_lt (h : n < 2 ^ 53) : toDouble n = n := roundTo_of_lt (by decide) h

theorem toFloat_le (hm : m ≤ 2 ^ 24) {k : ℕ} (h : n ≤ m * 2 ^ k) : toFloat n ≤ m * 2 ^ k :=
  roundTo_le (by decide) hm h

/-- **The update is exact**: the two terms are rounded to integers, a half up, and
nothing else is. -/
theorem nextSmoothedRtt_eq (hn : n ≤ 2 ^ 50) (hr : r < 2 ^ 53) :
    nextSmoothedRtt n r = roundHalfUp (7 * n) 8 + roundHalfUp r 8 := by
  rw [nextSmoothedRtt, toDouble_of_lt (n := n) (by omega), toDouble_of_lt (by omega),
    toDouble_of_lt hr]

/-- **The range is kept**, with one more at its upper end. -/
theorem nextSmoothedRtt_mem (hM : M < 2 ^ 50) (hn : m ≤ n ∧ n ≤ M + 1) (hr : m ≤ r ∧ r ≤ M) :
    m ≤ nextSmoothedRtt n r ∧ nextSmoothedRtt n r ≤ M + 1 := by
  rw [nextSmoothedRtt_eq (by omega) (by omega)]
  unfold roundHalfUp
  omega

/-- **The mean deviation does not pass `2 ^ 50`**, if no deviation does. -/
theorem nextMeanDeviation_le (hn : n ≤ 2 ^ 50) (hd : d ≤ 2 ^ 50) :
    nextMeanDeviation n d ≤ 2 ^ 50 := by
  have h₁ : toFloat n ≤ 1 * 2 ^ 50 := toFloat_le (by decide) (by omega)
  have h₂ : toFloat (3 * toFloat n) ≤ 3 * 2 ^ 50 := toFloat_le (by decide) (by omega)
  have h₃ : toFloat d ≤ 1 * 2 ^ 50 := toFloat_le (by decide) (by omega)
  have h₄ : toFloat (toFloat (3 * toFloat n) + toFloat d) ≤ 4 * 2 ^ 50 :=
    toFloat_le (by decide) (by omega)
  unfold nextMeanDeviation
  omega

/-! ## One call -/

/-- A call of one of the three functions, with a sample or a seed from `m` to `M` if it
has one. -/
def Op.Within (m M : ℕ) : Op → Prop
  | .updateRtt sendDelta ackDelay =>
    Accepted sendDelta → m ≤ rttSample sendDelta ackDelay ∧ rttSample sendDelta ackDelay ≤ M
  | .expireSmoothedMetrics => True
  | .setInitialSrttUs us => 0 < us → m ≤ us ∧ us ≤ M
  | _ => False

/-- The smoothed round trip time is zero still, or in the range. -/
def InRange (m M : ℕ) (s : RttStats) : Prop :=
  s.smoothedRtt = 0 ∨ m ≤ s.smoothedRtt ∧ s.smoothedRtt ≤ M + 1

/-- The invariant of such calls. -/
structure Bounded (m M : ℕ) (s : RttStats) : Prop where
  smoothed : InRange m M s
  latest : s.latestRtt = 0 ∨ m ≤ s.latestRtt ∧ s.latestRtt ≤ M
  deviation_le : s.meanDeviation ≤ 2 ^ 50

/-- What one call does: a smoothed round trip time that has been set is not zero again,
and a sample is averaged in. -/
structure Averages (s : RttStats) (o : Op) (t : RttStats) : Prop where
  ne_zero : s.smoothedRtt ≠ 0 → t.smoothedRtt ≠ 0
  update_eq : ∀ sendDelta ackDelay, o = .updateRtt sendDelta ackDelay → Accepted sendDelta →
    let sample := (rttSample sendDelta ackDelay).toNat
    t.smoothedRtt = if s.smoothedRtt = 0 then sample
      else roundHalfUp (7 * s.smoothedRtt) 8 + roundHalfUp sample 8

theorem int64?_of_lt (h : n < 2 ^ 63) : int64? n = some n := if_pos h

/-- A sample in the range. -/
theorem Bounded.addSample (h : Bounded m M s) (hm : 1 ≤ m) (hM : M < 2 ^ 50)
    (hr : m ≤ r ∧ r ≤ M) :
    ∃ t, s.addSample r = some t ∧ Bounded m M t ∧ t.minRtt = s.minRtt ∧ t.smoothedRtt ≠ 0 ∧
      t.smoothedRtt = if s.smoothedRtt = 0 then r
        else roundHalfUp (7 * s.smoothedRtt) 8 + roundHalfUp r 8 := by
  unfold RttStats.addSample
  dsimp only
  by_cases h0 : s.smoothedRtt = 0
  · rw [if_pos h0]
    refine ⟨_, rfl, ⟨.inr ⟨hr.1, ?_⟩, .inr hr, ?_⟩, rfl, ?_, (if_pos h0).symm⟩
    · dsimp only
      omega
    · dsimp only
      omega
    · dsimp only
      omega
  · have hs : m ≤ s.smoothedRtt ∧ s.smoothedRtt ≤ M + 1 := h.smoothed.resolve_left h0
    have hmem := nextSmoothedRtt_mem hM hs hr
    have hdev : nextMeanDeviation s.meanDeviation ((s.smoothedRtt : ℤ) - r).natAbs ≤ 2 ^ 50 :=
      nextMeanDeviation_le h.deviation_le (by omega)
    rw [if_neg h0, int64?_of_lt (by omega), int64?_of_lt (by omega)]
    refine ⟨_, rfl, ⟨.inr hmem, .inr hr, hdev⟩, rfl, ?_, ?_⟩
    · dsimp only
      omega
    · rw [if_neg h0]
      exact nextSmoothedRtt_eq (by omega) (by omega)

theorem Bounded.expireSmoothedMetrics (h : Bounded m M s) (hM : M < 2 ^ 50) :
    Bounded m M s.expireSmoothedMetrics := by
  have hs : s.smoothedRtt = 0 ∨ m ≤ s.smoothedRtt ∧ s.smoothedRtt ≤ M + 1 := h.smoothed
  have hl := h.latest
  have hd := h.deviation_le
  refine ⟨?_, hl, ?_⟩
  · show max s.smoothedRtt s.latestRtt = 0 ∨ m ≤ max s.smoothedRtt s.latestRtt ∧
      max s.smoothedRtt s.latestRtt ≤ M + 1
    omega
  · show max s.meanDeviation ((s.smoothedRtt : ℤ) - s.latestRtt).natAbs ≤ 2 ^ 50
    omega

/-- The accepted send delta of a call. -/
def Op.delta : Op → Option ℕ
  | .updateRtt sendDelta _ => if Accepted sendDelta then some sendDelta.toNat else none
  | _ => none

/-- The smallest round trip time after a call. -/
def minWith (minRtt : ℕ) : Option ℕ → ℕ
  | none => minRtt
  | some d => if minRtt = 0 ∨ d < minRtt then d else minRtt

/-- **One call** has a result, and keeps the invariant. -/
theorem Bounded.step (h : Bounded m M s) (hm : 1 ≤ m) (hM : M < 2 ^ 50) (ho : o.Within m M) :
    ∃ t, s.step o = some t ∧ Bounded m M t ∧ Averages s o t ∧
      t.minRtt = minWith s.minRtt o.delta := by
  cases o with
  | updateRtt sendDelta ackDelay =>
    by_cases ha : Accepted sendDelta
    · obtain ⟨hlow, hhigh⟩ := ho ha
      have hmin : Bounded m M { s with minRtt := minWith s.minRtt (some sendDelta.toNat) } :=
        ⟨h.smoothed, h.latest, h.deviation_le⟩
      obtain ⟨t, ht, hB, hmin', hne, heq⟩ := hmin.addSample
        (r := (rttSample sendDelta ackDelay).toNat) hm hM (by omega)
      refine ⟨t, ?_, hB, ⟨fun _ => hne, ?_⟩, ?_⟩
      · simp only [RttStats.step, RttStats.updateRtt]
        rw [if_pos ha, int64?_of_lt (by omega)]
        exact ht
      · rintro _ _ ⟨⟩ -
        exact heq
      · rw [hmin', Op.delta, if_pos ha]
    · refine ⟨s, if_neg ha, h, ⟨id, ?_⟩, ?_⟩
      · rintro _ _ ⟨⟩ ha'
        exact absurd ha' ha
      · rw [Op.delta, if_neg ha]
        rfl
  | expireSmoothedMetrics =>
    refine ⟨_, rfl, h.expireSmoothedMetrics hM, ⟨fun h0 => ?_, fun _ _ he => nomatch he⟩, rfl⟩
    show max s.smoothedRtt s.latestRtt ≠ 0
    omega
  | setInitialSrttUs us =>
    refine ⟨_, rfl, ?_, ⟨?_, fun _ _ he => nomatch he⟩, ?_⟩
    all_goals
      unfold RttStats.setInitialSrttUs
      split_ifs with hus
    · exact h
    · have := ho (by omega)
      refine ⟨.inr ?_, h.latest, h.deviation_le⟩
      dsimp only
      omega
    · exact id
    · intro _
      dsimp only
      omega
    · rfl
    · rfl
  | setFromConfig config => exact ho.elim
  | resumeConnectionState minRttMs => exact ho.elim
  | onConnectionMigration => exact ho.elim

/-! ## Any number of calls -/

theorem delta_pos (h : o.delta = some d) : 0 < d := by
  cases o with
  | updateRtt sendDelta ackDelay =>
    rw [Op.delta] at h
    split_ifs at h with ha
    obtain rfl := Option.some.inj h
    have := ha.2
    omega
  | _ => cases h

/-- The minimum of some numbers, none of them zero, and of one more. -/
theorem min?_concat {l : List ℕ} (hl : ∀ n ∈ l, 0 < n) (d : ℕ) :
    (l ++ [d]).min?.getD 0 = minWith (l.min?.getD 0) (some d) := by
  cases l with
  | nil => rfl
  | cons x l =>
    have hpos : 0 < l.foldl min x := by
      refine List.foldlRecOn (motive := fun y : ℕ => 0 < y) _ _ (hl x (by simp)) fun y hy z hz => ?_
      have := hl z (List.mem_cons_of_mem x hz)
      omega
    have hmin : ((x :: l) ++ [d]).min?.getD 0 = min (l.foldl min x) d := by
      rw [List.cons_append, List.min?_cons', List.foldl_append]
      rfl
    rw [hmin, List.min?_cons', Option.getD_some, minWith]
    rcases Nat.lt_or_ge d (l.foldl min x) with hd | hd
    · rw [if_pos (.inr hd), Nat.min_eq_right hd.le]
    · rw [if_neg (by omega), Nat.min_eq_left hd]

theorem bounded_new : Bounded m M .new := ⟨.inl rfl, .inl rfl, Nat.zero_le _⟩

/-- **Any number of calls**, from the start. -/
theorem bounded_run (hm : 1 ≤ m) (hM : M < 2 ^ 50) {ops : List Op}
    (hops : ∀ o ∈ ops, o.Within m M) :
    ∃ s, run RttStats.step .new ops = some s ∧ Bounded m M s ∧
      s.minRtt = (ops.filterMap Op.delta).min?.getD 0 := by
  induction ops using List.reverseRecOn with
  | nil => exact ⟨_, rfl, bounded_new, rfl⟩
  | append_singleton ops o ih =>
    obtain ⟨s, hs, hB, hmin⟩ := ih fun o' ho' => hops o' (List.mem_append_left _ ho')
    obtain ⟨t, ht, hB', -, hmin'⟩ := hB.step hm hM (hops o (by simp))
    refine ⟨t, run_concat_eq_some.2 ⟨s, hs, ht⟩, hB', ?_⟩
    rw [hmin', hmin, List.filterMap_append]
    cases hd : o.delta with
    | none => simp [hd, minWith]
    | some d =>
      rw [List.filterMap_cons_some hd, List.filterMap_nil]
      refine (min?_concat (fun n hn => ?_) d).symm
      obtain ⟨o', -, ho'⟩ := List.mem_filterMap.1 hn
      exact delta_pos ho'

/-- **The smoothed round trip time stays in the range of what it is made of.**  With
samples and seeds from `m` to `M`, every call has a result; the smoothed round trip time is
zero, or from `m` to `M + 1`; it is set once and for all; a sample changes it by exact
arithmetic; and the minimum is that of the send deltas that were accepted. -/
theorem smoothedRtt_inRange (hm : 1 ≤ m) (hM : M < 2 ^ 50) (ops : List Op)
    (hops : ∀ o ∈ ops, o.Within m M) :
    (∀ pre, pre <+: ops → ∃ s, run RttStats.step .new pre = some s ∧ InRange m M s ∧
        s.minRtt = (pre.filterMap Op.delta).min?.getD 0) ∧
      EachStep RttStats.step (fun s o => ∀ t, s.step o = some t → Averages s o t) .new ops := by
  constructor
  · intro pre hpre
    obtain ⟨s, hs, hB, hmin⟩ := bounded_run hm hM fun o ho => hops o (hpre.subset ho)
    exact ⟨s, hs, hB.smoothed, hmin⟩
  · intro pre o s hpre hs t ht
    have hpre' : ∀ o ∈ pre, o.Within m M :=
      fun o ho => hops o (hpre.subset (List.mem_append_left _ ho))
    obtain ⟨s', hs', hB, -⟩ := bounded_run hm hM hpre'
    obtain rfl := Option.some.inj (hs'.symm.trans hs)
    obtain ⟨t', ht', -, hA, -⟩ := hB.step hm hM (hops o (hpre.subset (by simp)))
    exact Option.some.inj (ht'.symm.trans ht) ▸ hA

/-- A seed of 12 and samples of 12 bring the smoothed round trip time to 13; an ack whose
delay is larger than its send delta counts in full, and one with no send delta not at
all. -/
theorem smoothedRtt_inRange_twelve :
    let ops : List Op := [.setInitialSrttUs 12, .updateRtt 20 8, .expireSmoothedMetrics,
      .updateRtt 12 30, .updateRtt 0 0, .setInitialSrttUs (-5)]
    ((∀ pre, pre <+: ops → ∃ s, run RttStats.step .new pre = some s ∧ InRange 12 12 s ∧
        s.minRtt = (pre.filterMap Op.delta).min?.getD 0) ∧
      EachStep RttStats.step (fun s o => ∀ t, s.step o = some t → Averages s o t) .new ops) ∧
    (run RttStats.step .new ops).map (fun s => (s.smoothedRtt, s.minRtt)) = some (13, 12) := by
  refine ⟨smoothedRtt_inRange (by decide) (by decide) _ fun o ho => ?_, by decide⟩
  simp only [List.mem_cons, List.not_mem_nil, or_false] at ho
  rcases ho with rfl | rfl | rfl | rfl | rfl | rfl
  all_goals simp [Op.Within, Accepted, rttSample]

end Rtt
end QuicNs3
