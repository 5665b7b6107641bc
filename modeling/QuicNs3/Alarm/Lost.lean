/-
# When a set alarm is lost

A set alarm should have an event in the simulator that will run `OnAlarm` no
later than its deadline (`Kept`).  It does not always have one.  `CancelImpl`
takes the event back and leaves `task_deadline_` as it was, and `SetImpl` returns
early when `task_deadline_` is not after the new deadline, on the ground that
"tasks can not be un-posted".  So an alarm that is cancelled and set again for a
later time, or simply updated to a later time (`UpdateImpl` cancels first), is
set and has no event: it never fires.

`kept_setImpl` says exactly when `SetImpl` leaves the alarm with an event, and
`always_kept_iff` lifts it to runs: no state of a run has lost the alarm exactly
when every arming of the run (`Arms`) finds `task_deadline_` zero or after the
new deadline, or an event in time that it does not itself cancel.
-/

import QuicNs3.Alarm.Basic

namespace QuicNs3
namespace Alarm

open QuicChromeAlarm Lib

variable {a b : QuicChromeAlarm}

/-- One of the events `pending` is not later than `max(d, now)` on the clock. -/
def InTime (a : QuicChromeAlarm) (pending : List SimEvent) (d : ℤ) : Prop :=
  ∃ e ∈ pending, ((e.time / 1000 : ℕ) : ℤ) ≤ max d a.clockNow

/-- **A set alarm is not lost:** it has a pending event not later than
`max(deadline, now)`. -/
def Kept (a : QuicChromeAlarm) : Prop := a.isSet = true → InTime a a.pending a.deadline

/-- The pending events `CancelImpl` leaves. -/
def surviving (a : QuicChromeAlarm) : List SimEvent :=
  a.pending.filter fun e => some e.uid != a.id

/-- Arming for `d`, with `pending` the events that stay in the simulator, ends
with an event in time: `task_deadline_` does not make `SetImpl` return early, or
one of the events is in time. -/
def Arms (a : QuicChromeAlarm) (pending : List SimEvent) (d : ℤ) : Prop :=
  a.taskDeadline = 0 ∨ d < a.taskDeadline ∨ InTime a pending d

/-- The condition on one operation, in the state before it.  A `Set`, and an
`Update` that is neither a cancellation nor ignored for its granularity, must
arm; nothing is asked of the other operations. -/
def ArmsInTime (a : QuicChromeAlarm) : Op → Prop
  | .set d => Arms a a.pending d
  | .update d granularity =>
    d ≠ 0 → granularity ≤ |d - a.deadline| →
      Arms a (if a.isSet then surviving a else a.pending) d
  | _ => True

instance (a : QuicChromeAlarm) (pending : List SimEvent) (d : ℤ) : Decidable (InTime a pending d) :=
  inferInstanceAs (Decidable (∃ e ∈ pending, _))

instance (a : QuicChromeAlarm) : Decidable (Kept a) :=
  inferInstanceAs (Decidable (_ → _))

instance (a : QuicChromeAlarm) (pending : List SimEvent) (d : ℤ) : Decidable (Arms a pending d) :=
  inferInstanceAs (Decidable (_ ∨ _ ∨ _))

theorem isSet_iff : a.isSet = true ↔ a.deadline ≠ 0 := by
  simp [isSet, isInitialized]

theorem clockNow_nonneg (a : QuicChromeAlarm) : 0 ≤ a.clockNow := Int.natCast_nonneg _

/-- `CancelImpl` changes the events and `id` only. -/
theorem cancelImpl_eq (a : QuicChromeAlarm) :
    a.cancelImpl.pending = surviving a ∧ a.cancelImpl.deadline = a.deadline ∧
      a.cancelImpl.taskDeadline = a.taskDeadline ∧ a.cancelImpl.now = a.now := by
  unfold cancelImpl
  split_ifs with h
  · exact ⟨rfl, rfl, rfl, rfl⟩
  · refine ⟨(List.filter_eq_self.2 fun e he => ?_).symm, rfl, rfl, rfl⟩
    simp only [isRunning, List.any_eq_true, not_exists, not_and, Bool.not_eq_true] at h
    simpa using h e he

/-- An event scheduled `delay` microseconds ahead shows `clockNow + delay`. -/
theorem schedule_inTime (a : QuicChromeAlarm) (delay : ℕ) {d : ℤ}
    (hd : a.clockNow + delay ≤ d) : InTime a (a.schedule delay).pending d := by
  refine ⟨⟨a.nextUid, a.now + 1000 * delay⟩, by simp [schedule], ?_⟩
  refine le_trans ?_ (le_max_left _ _)
  simp only [clockNow] at hd
  push_cast at hd ⊢
  omega

/-- **What `SetImpl` leaves.**  It schedules nothing exactly when the remembered
task deadline is set and not after the deadline; then the alarm is kept only by
an event that was pending before. -/
theorem kept_setImpl (h0 : 0 ≤ a.taskDeadline) :
    Kept a.setImpl ↔ Arms a a.pending a.deadline := by
  unfold setImpl
  by_cases hearly : isInitialized a.taskDeadline ∧ a.taskDeadline ≤ a.deadline
  · rw [if_pos hearly]
    obtain ⟨hinit, hle⟩ := hearly
    have hne : a.taskDeadline ≠ 0 := by simpa [isInitialized] using hinit
    have hset : a.isSet = true := isSet_iff.2 (by omega)
    simp only [Kept, Arms, hset, forall_const, hne, false_or, not_lt.2 hle]
  · rw [if_neg hearly]
    have harm : Arms a a.pending a.deadline := by
      by_cases hz : a.taskDeadline = 0
      · exact Or.inl hz
      · refine Or.inr (Or.inl (not_le.1 fun hle => hearly ⟨?_, hle⟩))
        simpa [isInitialized] using hz
    refine iff_of_true (fun _ => ?_) harm
    by_cases hdue : a.deadline - a.clockNow < 10
    · simp only [if_pos hdue]
      exact schedule_inTime { a with deadline := a.clockNow } 0 (by simp [clockNow, schedule])
    · simp only [if_neg hdue]
      exact schedule_inTime a _ (by show _ ≤ a.deadline; omega)

/-- The task deadline stays a time the clock can show. -/
theorem taskDeadline_nonneg_setImpl (h0 : 0 ≤ a.taskDeadline) : 0 ≤ a.setImpl.taskDeadline := by
  have hc := clockNow_nonneg a
  unfold setImpl
  by_cases hdue : a.deadline - a.clockNow < 10
  · split_ifs <;> simpa [hdue, schedule]
  · split_ifs
    · exact h0
    · simp only [if_neg hdue, schedule]; omega

/-- An `Update` that is neither a cancellation nor ignored ends in `SetImpl`, on
the events a cancellation leaves if the alarm was set. -/
theorem exists_update_eq {d granularity : ℤ} (hd : d ≠ 0) (hg : granularity ≤ |d - a.deadline|) :
    ∃ b : QuicChromeAlarm, a.update d granularity = b.setImpl ∧ b.deadline = d ∧
      b.taskDeadline = a.taskDeadline ∧ b.now = a.now ∧
      b.pending = if a.isSet then surviving a else a.pending := by
  have hinit : isInitialized d = true := by simpa [isInitialized] using hd
  unfold update
  rw [hinit, if_neg (by decide), if_neg (not_lt.2 hg)]
  split_ifs with hset
  · obtain ⟨hp, -, ht, hn⟩ := cancelImpl_eq { a with deadline := 0 }
    exact ⟨_, rfl, rfl, ht, hn, hp⟩
  · exact ⟨_, rfl, rfl, rfl, rfl, rfl⟩

theorem taskDeadline_cancel (a : QuicChromeAlarm) : a.cancel.taskDeadline = a.taskDeadline := by
  unfold cancel
  split_ifs
  · exact (cancelImpl_eq { a with deadline := 0 }).2.2.1
  · rfl

theorem taskDeadline_nonneg_onAlarm (a : QuicChromeAlarm) : 0 ≤ a.onAlarm.taskDeadline := by
  unfold onAlarm
  dsimp only
  split_ifs
  · exact le_rfl
  · exact taskDeadline_nonneg_setImpl le_rfl
  · unfold fire
    split_ifs <;> exact le_rfl

theorem taskDeadline_nonneg_step (a : QuicChromeAlarm) (op : Op) (b : QuicChromeAlarm)
    (h0 : 0 ≤ a.taskDeadline) (h : step a op = some b) : 0 ≤ b.taskDeadline := by
  obtain ⟨d, rfl, -, rfl⟩ | ⟨d, granularity, rfl, rfl⟩ | ⟨rfl, rfl⟩ | ⟨t, rfl, -, rfl⟩ |
    ⟨e, -, rfl, -, rfl⟩ := step_cases h
  · exact taskDeadline_nonneg_setImpl h0
  · by_cases hd : d = 0
    · simpa [update, hd, isInitialized, taskDeadline_cancel] using h0
    · by_cases hg : granularity ≤ |d - a.deadline|
      · obtain ⟨b, he, -, ht, -⟩ := exists_update_eq hd hg
        exact he ▸ taskDeadline_nonneg_setImpl (ht ▸ h0)
      · simpa [update, hd, isInitialized, not_le.1 hg] using h0
  · exact (taskDeadline_cancel a).symm ▸ h0
  · exact h0
  · exact taskDeadline_nonneg_onAlarm _

/-- A cancelled alarm is not set. -/
theorem kept_cancel (a : QuicChromeAlarm) : Kept a.cancel := by
  intro hset
  rw [isSet_iff] at hset
  unfold cancel at hset
  split_ifs at hset with h
  · exact absurd (cancelImpl_eq { a with deadline := 0 }).2.1 hset
  · exact absurd (isSet_iff.2 hset) h

/-- Running an event never loses the alarm: `OnAlarm` forgets the task deadline
before it calls `SetImpl`. -/
theorem kept_onAlarm (a : QuicChromeAlarm) : Kept a.onAlarm := by
  unfold onAlarm
  dsimp only
  split_ifs with hinit hlt
  · intro hset
    simp [isSet] at hset hinit
    exact absurd hset (by simp [hinit])
  · exact (kept_setImpl le_rfl).2 (Or.inl rfl)
  · intro hset
    unfold fire at hset
    split_ifs at hset with h
    · simp [isSet, isInitialized] at hset
    · exact absurd hset h

/-- **One step.**  From a state where the alarm is kept, an operation keeps it
exactly when it arms in time. -/
theorem kept_step (a : QuicChromeAlarm) (op : Op) (b : QuicChromeAlarm) (h0 : 0 ≤ a.taskDeadline)
    (ha : Kept a) (h : step a op = some b) : Kept b ↔ ArmsInTime a op := by
  obtain ⟨d, rfl, -, rfl⟩ | ⟨d, granularity, rfl, rfl⟩ | ⟨rfl, rfl⟩ | ⟨t, rfl, hshow, rfl⟩ |
    ⟨e, -, rfl, -, rfl⟩ := step_cases h
  · exact kept_setImpl h0
  · by_cases hd : d = 0
    · refine iff_of_true ?_ fun h => absurd hd h
      simpa [update, hd, isInitialized] using kept_cancel a
    · by_cases hg : granularity ≤ |d - a.deadline|
      · obtain ⟨b, he, hbd, hbt, hbn, hbp⟩ := exists_update_eq hd hg
        rw [he, kept_setImpl (hbt ▸ h0)]
        simp only [ArmsInTime, Arms, InTime, clockNow, hbd, hbt, hbn, hbp, ne_eq, hd, hg,
          not_false_eq_true, forall_const]
      · refine iff_of_true ?_ fun _ h => absurd h hg
        simpa [update, hd, isInitialized, not_le.1 hg] using ha
  · exact iff_of_true (kept_cancel a) trivial
  · refine iff_of_true (fun hset => ?_) trivial
    obtain ⟨e, he, hle⟩ := ha hset
    simp only [mayShow, Bool.and_eq_true, decide_eq_true_eq] at hshow
    have hnow : a.now / 1000 ≤ t / 1000 := Nat.div_le_div_right hshow.1
    refine ⟨e, he, hle.trans (max_le_max le_rfl ?_)⟩
    exact Int.ofNat_le.2 hnow
  · exact iff_of_true (kept_onAlarm _) trivial

/-- **No set alarm is lost exactly when every arming is in time.**  For every
alarm made at any time and every sequence of `Set`, `Update`, `Cancel`, clock
movements and event executions the simulator allows. -/
theorem always_kept_iff (now : ℕ) (ops : List Op) (b : QuicChromeAlarm)
    (h : run step (new now) ops = some b) :
    Always step Kept (new now) ops ↔ EachStep step ArmsInTime (new now) ops :=
  always_iff_eachStep taskDeadline_nonneg_step kept_step le_rfl (by simp [Kept, isSet_iff, new]) h

/-- At one microsecond, `Set(100)` and an `Update` to the earlier time `50`: the
first arming finds no task deadline, the second one that is after its own. -/
theorem always_kept_update_earlier : Always step Kept (new 1000) [.set 100, .update 50 1] := by
  refine (always_kept_iff 1000 _ _ rfl).2 ?_
  refine eachStep_cons.2 ⟨Or.inl rfl, fun a ha => ?_⟩
  obtain rfl := Option.some.inj ha
  exact eachStep_cons.2 ⟨fun _ _ => by decide, fun _ _ => eachStep_nil⟩

/-- **A set alarm is lost.**  At one microsecond, `Set(100)`, `Cancel`, `Set(200)`:
the last `SetImpl` finds the task deadline `100` of the event that `Cancel` took
back, and returns early. -/
theorem not_always_kept_set_cancel_set :
    (run step (new 1000) [.set 100, .cancel, .set 200]).isSome = true ∧
      ¬ Always step Kept (new 1000) [.set 100, .cancel, .set 200] := by
  refine ⟨rfl, fun h => ?_⟩
  have hlast := h.last (t := (((new 1000).set 100).cancel).set 200) rfl
  exact absurd hlast (by decide)

end Alarm
end QuicNs3
