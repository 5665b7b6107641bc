/-
# When an alarm fires

The delegate of an alarm is called by `Fire`, which only `OnAlarm` calls, when the clock
has reached `deadline_`.  Two things could make it run when it should not: several events
of one alarm can be pending, and `SetImpl` moves a deadline less than 10 microseconds
ahead to the current time.

What the calls of a run mean is written down as a history of notes: the alarm was armed
for a deadline, it was cancelled, or its delegate was called.  An `Update` that is ignored
for its granularity leaves no note.  `fires_as_armed` says that the note before each call
of the delegate is an arming, for a deadline less than 10 microseconds ahead: so the
delegate is called at most once for an arming, and not after a cancellation.
-/

import QuicNs3.Alarm.Lost

namespace QuicNs3
namespace Alarm

open QuicChromeAlarm Lib

/-- What an operation means to the owner of the alarm. -/
inductive Note
  | armed (deadline : ℤ)
  | cancelled
  /-- The delegate is called, at this reading of the clock. -/
  | fired (clock : ℤ)
deriving DecidableEq, Repr

variable {a b : QuicChromeAlarm} {op : Op} {d : ℤ} {l : List Note}

/-- The notes of the step from `a` to `b`.  An `Update` to the time zero cancels. -/
def notes (a b : QuicChromeAlarm) : Op → List Note
  | .set newDeadline => [.armed newDeadline]
  | .update newDeadline granularity =>
    if !isInitialized newDeadline then [.cancelled]
    else if |newDeadline - a.deadline| < granularity then []
    else [.armed newDeadline]
  | .cancel => [.cancelled]
  | .advance _ => []
  | .runEvent _ => (b.delegateCalls.drop a.delegateCalls.length).map .fired

/-- The notes of a run. -/
def history : QuicChromeAlarm → List Op → List Note
  | _, [] => []
  | a, op :: ops =>
    match step a op with
    | none => []
    | some b => notes a b op ++ history b ops

/-- A call of the delegate follows an arming for a deadline less than 10 microseconds
ahead. -/
def FollowsArming (before : List Note) : Note → Prop
  | .fired t => ∃ earlier d, before = earlier ++ [.armed d] ∧ d - 10 < t
  | _ => True

/-- **The deadline of an alarm is the one it was armed for**, or was due when it was
moved to the current time. -/
def Owed (d : ℤ) (a : QuicChromeAlarm) : Prop :=
  a.deadline = d ∨ d - 10 < a.deadline ∧ a.deadline ≤ a.clockNow

/-- What holds of an alarm and the notes so far. -/
structure Noted (l : List Note) (a : QuicChromeAlarm) : Prop where
  follows : EachAfter FollowsArming l
  owed : a.isSet = true → ∃ earlier d, l = earlier ++ [.armed d] ∧ Owed d a

/-! ## One call -/

/-- `SetImpl` keeps the deadline, or moves one that is due. -/
theorem Owed.setImpl (h : Owed d a) : Owed d a.setImpl := by
  unfold Owed at h ⊢
  unfold QuicChromeAlarm.setImpl
  by_cases hearly : isInitialized a.taskDeadline ∧ a.taskDeadline ≤ a.deadline
  · rw [if_pos hearly]
    exact h
  · rw [if_neg hearly]
    by_cases hdue : a.deadline - a.clockNow < 10
    · simp only [if_pos hdue]
      refine Or.inr ⟨?_, le_rfl⟩
      show d - 10 < a.clockNow
      omega
    · simp only [if_neg hdue]
      exact h

theorem delegateCalls_setImpl (a : QuicChromeAlarm) :
    a.setImpl.delegateCalls = a.delegateCalls := by
  unfold setImpl
  split_ifs
  · rfl
  · dsimp only
    split_ifs <;> rfl

/-- An arming is noted. -/
theorem Noted.arm (h : EachAfter FollowsArming l) (hb : Owed d b) :
    Noted (l ++ [.armed d]) b :=
  ⟨h.concat trivial, fun _ => ⟨l, d, rfl, hb⟩⟩

/-- A cancellation is noted. -/
theorem Noted.cancel (h : Noted l a) : Noted (l ++ [.cancelled]) a.cancel := by
  refine ⟨h.follows.concat trivial, fun hset => ?_⟩
  have hzero : a.cancel.deadline = 0 := by
    unfold QuicChromeAlarm.cancel
    split_ifs with hs
    · exact (cancelImpl_eq { a with deadline := 0 }).2.1
    · simpa [isSet, isInitialized] using hs
  exact absurd hzero (isSet_iff.1 hset)

/-- The clock moves on. -/
theorem Noted.advance (h : Noted l a) {time : ℕ} (ht : a.now ≤ time) {pending : List SimEvent} :
    Noted l { a with now := time, pending := pending } := by
  refine ⟨h.follows, fun hset => ?_⟩
  obtain ⟨earlier, d, hl, howed⟩ := h.owed hset
  refine ⟨earlier, d, hl, howed.imp_right fun hdue => ⟨hdue.1, hdue.2.trans ?_⟩⟩
  exact Int.ofNat_le.2 (Nat.div_le_div_right ht)

/-- **An event runs**: the delegate is called only if the deadline has come. -/
theorem Noted.onAlarm (h : Noted l a) :
    Noted (l ++ (a.onAlarm.delegateCalls.drop a.delegateCalls.length).map .fired) a.onAlarm := by
  unfold QuicChromeAlarm.onAlarm
  dsimp only
  split_ifs with hinit hlt
  · rw [List.drop_length, List.map_nil, List.append_nil]
    exact ⟨h.follows, fun hset => h.owed hset⟩
  · -- The alarm was set for later, and waits on.
    rw [delegateCalls_setImpl, List.drop_length, List.map_nil, List.append_nil]
    have hset : a.isSet = true := by simpa [isSet] using hinit
    obtain ⟨earlier, d, hl, howed⟩ := h.owed hset
    have hset' : Owed d { a with taskDeadline := 0 } := howed
    exact ⟨h.follows, fun _ => ⟨earlier, d, hl, hset'.setImpl⟩⟩
  · have hset : a.isSet = true := by simpa [isSet] using hinit
    have hfire : { a with taskDeadline := 0 }.fire =
        { a with
          taskDeadline := 0, deadline := 0
          delegateCalls := a.delegateCalls ++ [a.clockNow] } := if_pos hset
    rw [hfire]
    obtain ⟨earlier, d, hl, howed⟩ := h.owed hset
    have hle : a.deadline ≤ a.clockNow := not_lt.1 hlt
    refine ⟨?_, fun hset' => absurd rfl (isSet_iff.1 hset')⟩
    rw [List.drop_left]
    refine h.follows.concat ⟨earlier, d, hl, ?_⟩
    rcases howed with heq | ⟨hdue, -⟩
    · omega
    · omega

/-! ## Runs -/

/-- **One step.** -/
theorem Noted.step (h : Noted l a) (hs : Alarm.step a op = some b) :
    Noted (l ++ notes a b op) b := by
  obtain ⟨d, rfl, -, rfl⟩ | ⟨d, granularity, rfl, rfl⟩ | ⟨rfl, rfl⟩ | ⟨t, rfl, hshow, rfl⟩ |
    ⟨e, -, rfl, hshow, rfl⟩ := step_cases hs
  · exact Noted.arm h.follows (Owed.setImpl (Or.inl rfl))
  · unfold notes
    dsimp only
    by_cases hd : d = 0
    · subst hd
      exact h.cancel
    · have hinit : isInitialized d = true := by simpa [isInitialized] using hd
      rw [hinit, Bool.not_true, if_neg (by decide)]
      by_cases hg : |d - a.deadline| < granularity
      · rw [if_pos hg, List.append_nil]
        simpa [update, hinit, hg] using h
      · rw [if_neg hg]
        obtain ⟨b, heq, hb, -⟩ := exists_update_eq hd (not_lt.1 hg)
        rw [heq]
        exact Noted.arm h.follows (Owed.setImpl (Or.inl hb))
  · exact h.cancel
  · simp only [mayShow, Bool.and_eq_true, decide_eq_true_eq] at hshow
    show Noted (l ++ []) _
    rw [List.append_nil]
    exact h.advance hshow.1
  · simp only [mayShow, Bool.and_eq_true, decide_eq_true_eq] at hshow
    exact (h.advance hshow.1).onAlarm

/-- What was noted before a run stays true with what the run adds. -/
theorem Noted.history (h : Noted l a) (ops : List Op) :
    EachAfter FollowsArming (l ++ Alarm.history a ops) := by
  induction ops generalizing l a with
  | nil =>
    rw [Alarm.history, List.append_nil]
    exact h.follows
  | cons op ops ih =>
    unfold Alarm.history
    cases hs : Alarm.step a op with
    | none =>
      rw [List.append_nil]
      exact h.follows
    | some b =>
      rw [← List.append_assoc]
      exact ih (h.step hs)

/-- **Alarms fire only when they should.**  For every alarm made at any time and every
sequence of `Set`, `Update`, `Cancel`, clock movements and event executions, what was
noted last before each call of the delegate is an arming, for a deadline less than 10
microseconds after the call. -/
theorem fires_as_armed (now : ℕ) (ops : List Op) :
    EachAfter FollowsArming (history (new now) ops) :=
  Noted.history (l := []) ⟨eachAfter_nil, fun hset => absurd hset (by simp [new, isSet_iff])⟩ ops

/-- At the time zero a deadline that is moved to the current time counts as unset, and the
alarm is armed again with an event pending.  Two events run here, and the delegate is called
once. -/
example : history (new 0) [.set 5, .set 100, .runEvent 0, .runEvent 1] =
    [.armed 5, .armed 100, .fired 100] := by decide

end Alarm
end QuicNs3
