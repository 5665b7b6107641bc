/-
# Events that outlive their alarm

The events of an alarm hold a raw pointer to it.  Neither `QuicChromeAlarm` nor
`QuicAlarm` has a destructor that does anything, and the weak pointers that are
invalidated with the alarm stop no event, so what is pending when an alarm is destroyed
runs on freed memory.

`always_none_outlives` says when this does not happen.  An alarm has at most one pending
event, that of `id` (`AtMostOwn`), as long as it is not armed while it counts as unset and
its event is still pending, which takes an arming at the time zero.  Then an alarm leaves
no event behind exactly if `id` is not running when it is destroyed.
-/

import QuicNs3.Alarm.Lost

namespace QuicNs3
namespace Alarm

open QuicChromeAlarm Lib

variable {a b : QuicChromeAlarm} {op : Op}

/-- An alarm from its construction on.  Of one that is destroyed only the events are left
that refer to it. -/
inductive Lifetime
  | alive (a : QuicChromeAlarm)
  | destroyed (pending : List SimEvent)
deriving DecidableEq, Repr

/-- What happens to an alarm, its destruction included. -/
inductive LifeOp
  | call (op : Op)
  | destroy
deriving DecidableEq, Repr

/-- The destructors: `id` is dropped, and no event is cancelled. -/
def QuicChromeAlarm.destroy (a : QuicChromeAlarm) : Lifetime := .destroyed a.pending

/-- One operation; none is made on an alarm that is destroyed. -/
def lifeStep : Lifetime → LifeOp → Option Lifetime
  | .alive a, .call op => (step a op).map .alive
  | .alive a, .destroy => some a.destroy
  | .destroyed _, _ => none

/-- **No pending event refers to a destroyed alarm.** -/
def NoneOutlives : Lifetime → Prop
  | .alive _ => True
  | .destroyed pending => pending = []

/-- The condition on one operation: the event of `id` is not pending when the alarm is
destroyed, nor when it is armed while it is not set. -/
def LeavesNone : Lifetime → LifeOp → Bool
  | .alive a, .call (.set _) => !a.isRunning
  | .alive a, .call (.update d granularity) =>
    a.isSet || !isInitialized d || decide (|d - a.deadline| < granularity) || !a.isRunning
  | .alive a, .destroy => !a.isRunning
  | _, _ => true

/-! ## At most one event -/

/-- An alarm has no pending event but that of `id`. -/
def AtMostOwn (a : QuicChromeAlarm) : Prop :=
  a.pending = [] ∨ ∃ e, a.pending = [e] ∧ a.id = some e.uid

theorem AtMostOwn.pending_eq_nil (h : AtMostOwn a) (hr : a.isRunning = false) : a.pending = [] := by
  rcases h with h | ⟨e, he, hid⟩
  · exact h
  · exact absurd hr (by simp [isRunning, he, hid])

theorem isRunning_of_pending_eq_nil (h : a.pending = []) : a.isRunning = false := by
  simp [isRunning, h]

/-- Taking the event of `id` back leaves none. -/
theorem AtMostOwn.surviving_eq_nil (h : AtMostOwn a) : surviving a = [] := by
  unfold surviving
  rcases h with h | ⟨e, he, hid⟩
  · rw [h, List.filter_nil]
  · simp [he, hid]

/-- `SetImpl` posts an event only where none is pending. -/
theorem AtMostOwn.setImpl (h : a.pending = []) : AtMostOwn a.setImpl := by
  have hpost : ∀ (c : QuicChromeAlarm) (delay : ℕ), c.pending = [] →
      AtMostOwn (c.schedule delay) := by
    intro c delay hc
    refine Or.inr ⟨⟨c.nextUid, c.now + 1000 * delay⟩, ?_, rfl⟩
    show c.pending ++ [_] = [_]
    rw [hc, List.nil_append]
  unfold QuicChromeAlarm.setImpl
  split_ifs with hearly
  · exact Or.inl h
  · dsimp only
    split_ifs with hdue
    · exact hpost { a with deadline := a.clockNow } 0 h
    · exact hpost a _ h

theorem AtMostOwn.cancel (h : AtMostOwn a) : AtMostOwn a.cancel := by
  have hown : AtMostOwn { a with deadline := 0 } := h
  unfold QuicChromeAlarm.cancel
  split_ifs
  · exact Or.inl ((cancelImpl_eq _).1.trans hown.surviving_eq_nil)
  · exact h

theorem AtMostOwn.onAlarm (h : a.pending = []) : AtMostOwn a.onAlarm := by
  have hpending : { a with taskDeadline := 0 }.pending = [] := h
  unfold QuicChromeAlarm.onAlarm
  dsimp only
  split_ifs
  · exact Or.inl h
  · exact AtMostOwn.setImpl hpending
  · unfold fire
    split_ifs
    · exact Or.inl h
    · exact Or.inl h

/-- **One step**: an alarm that has only the event of `id` gets no other. -/
theorem AtMostOwn.step (h : AtMostOwn a) (hC : LeavesNone (.alive a) (.call op) = true)
    (hs : Alarm.step a op = some b) : AtMostOwn b := by
  obtain ⟨d, rfl, -, rfl⟩ | ⟨d, granularity, rfl, rfl⟩ | ⟨rfl, rfl⟩ | ⟨t, rfl, -, rfl⟩ |
    ⟨e, he, rfl, -, rfl⟩ := step_cases hs
  · have hr : a.isRunning = false := by simpa [LeavesNone] using hC
    have hpending : { a with deadline := d }.pending = [] := h.pending_eq_nil hr
    exact AtMostOwn.setImpl hpending
  · by_cases hd : d = 0
    · subst hd
      exact h.cancel
    · have hinit : isInitialized d = true := by simpa [isInitialized] using hd
      by_cases hg : |d - a.deadline| < granularity
      · simpa [update, hinit, hg] using h
      · obtain ⟨b, heq, -, -, -, hp⟩ := exists_update_eq hd (not_lt.1 hg)
        rw [heq]
        refine AtMostOwn.setImpl (hp.trans ?_)
        split_ifs with hset
        · exact h.surviving_eq_nil
        · refine h.pending_eq_nil ?_
          simpa [LeavesNone, hset, hinit, hg] using hC
  · exact h.cancel
  · exact h
  · -- The event that runs is the only one.
    refine AtMostOwn.onAlarm ?_
    rcases h with h | ⟨e', hp, -⟩
    · exact absurd (h ▸ he) List.not_mem_nil
    · obtain rfl : e = e' := List.mem_singleton.1 (hp ▸ he)
      show a.pending.filter (fun e' => e'.uid != e.uid) = []
      rw [hp]
      simp

/-! ## Runs -/

/-- What holds of an alarm while it lives, and what it leaves behind. -/
def Tidy : Lifetime → Prop
  | .alive a => AtMostOwn a
  | .destroyed pending => pending = []

theorem tidy_step (w : Lifetime) (x : LifeOp) (w' : Lifetime) (h : Tidy w)
    (hC : LeavesNone w x = true) (hs : lifeStep w x = some w') : Tidy w' := by
  cases w with
  | destroyed pending => exact absurd hs (by simp [lifeStep])
  | alive a =>
    cases x with
    | call op =>
      obtain ⟨b, hb, rfl⟩ := Option.map_eq_some_iff.1 hs
      exact AtMostOwn.step h hC hb
    | destroy =>
      obtain rfl := Option.some.inj hs
      exact AtMostOwn.pending_eq_nil h (by simpa [LeavesNone] using hC)

/-- **No event outlives its alarm** in any run whose steps leave none: where the event of
`id` is not pending when the alarm is destroyed, and the alarm was not armed while it was
unset and its event pending.  An alarm that is destroyed while its event is pending always
leaves it behind. -/
theorem always_none_outlives (now : ℕ) (xs : List LifeOp)
    (hxs : EachStep lifeStep (fun w x => LeavesNone w x = true) (.alive (new now)) xs) :
    Always lifeStep NoneOutlives (.alive (new now)) xs ∧
      ∀ a : QuicChromeAlarm, a.isRunning = true → ¬ NoneOutlives a.destroy := by
  constructor
  · have htidy : Always lifeStep Tidy (.alive (new now)) xs :=
      always_of_eachStep tidy_step (Or.inl rfl) hxs
    refine htidy.mono fun w hw => ?_
    cases w with
    | alive a => trivial
    | destroyed pending => exact hw
  · intro a hr hnone
    have hpending : a.pending = [] := hnone
    exact absurd hr (by simp [isRunning_of_pending_eq_nil hpending])

/-- An alarm is destroyed after it has fired. -/
theorem none_outlives_fired :
    let xs : List LifeOp := [.call (.set 100), .call (.runEvent 0), .destroy]
    Always lifeStep NoneOutlives (.alive (new 1000)) xs ∧
      run lifeStep (.alive (new 1000)) xs = some (.destroyed []) :=
  ⟨(always_none_outlives 1000 _ (by decide)).1, by decide⟩

/-- **An event outlives its alarm**: an alarm is set and destroyed, and its event is still
pending. -/
theorem exists_event_outlives :
    run lifeStep (.alive (new 1000)) [.call (.set 100), .destroy] =
        some (.destroyed [⟨0, 100000⟩]) ∧
      ¬ Always lifeStep NoneOutlives (.alive (new 1000)) [.call (.set 100), .destroy] := by
  refine ⟨by decide, fun h => ?_⟩
  have hlast : NoneOutlives (.destroyed [⟨0, 100000⟩]) := h.last (by decide)
  exact absurd hlast (by simp [NoneOutlives])

end Alarm
end QuicNs3
