/-
# The alarm of the ns-3 port

`QuicAlarm` (`model/net/quic/core/quic_alarm.cc`) and its one subclass here,
`QuicChromeAlarm` (`model/net/quic/chromium/quic_chromium_alarm_factory.cc`).
The base class keeps `deadline_`, zero when the alarm is not set.  The subclass
keeps `task_deadline_`, the deadline its last task was posted for, and `id`, the
simulator event of that task.

Chromium posted a task it could not take back.  The port schedules a simulator
event instead, which it can cancel, so the two pieces of state are written in
different places:

| member | written by |
| --- | --- |
| `deadline_` | `Set`, `Cancel`, `Update`, `UpdateImpl`, `SetImpl` when due, `Fire` |
| `task_deadline_` | the end of `SetImpl`, the start of `OnAlarm` |
| `id` | `SetImpl` when it schedules, `CancelImpl` |

Time.  A `QuicTime` is a number of microseconds, uninitialized when zero.  The
simulator counts nanoseconds, and `QuicChromiumClock::Now` reads it rounded down
to microseconds.  An event runs once, at its time, unless it is cancelled
first; the simulator runs the events in the order of their times, so its clock
never passes one that is pending.  `EventId::IsRunning` holds exactly of a
pending event.  The weak pointer of an event is unwrapped when the event is
scheduled (`GetWeakPtr().get()`), so `InvalidateWeakPtrs` stops nothing.
-/

import QuicNs3.Lib.Run
import Mathlib.Algebra.Order.Ring.Int

namespace QuicNs3
namespace Alarm

/-- `QuicTime::IsInitialized`. -/
def isInitialized (time : ℤ) : Bool := time != 0

/-- An event of the simulator that calls `OnAlarmWrapper`, at `time` nanoseconds. -/
structure SimEvent where
  uid : ℕ
  time : ℕ
deriving DecidableEq, Repr

/-- A `QuicChromeAlarm` and what the simulator holds of it: the clock in
nanoseconds and the events of this alarm that are neither run nor cancelled.
`delegateCalls` are the clock readings at which `delegate_->OnAlarm()` ran. -/
structure QuicChromeAlarm where
  deadline : ℤ
  taskDeadline : ℤ
  id : Option ℕ
  now : ℕ
  pending : List SimEvent
  nextUid : ℕ
  delegateCalls : List ℤ
deriving DecidableEq, Repr

namespace QuicChromeAlarm

/-- The constructor, run when the simulator shows `now`. -/
def new (now : ℕ) : QuicChromeAlarm where
  deadline := 0
  taskDeadline := 0
  id := none
  now := now
  pending := []
  nextUid := 0
  delegateCalls := []

/-- `clock_->Now()`. -/
def clockNow (a : QuicChromeAlarm) : ℤ := (a.now / 1000 : ℕ)

/-- `QuicAlarm::IsSet`. -/
def isSet (a : QuicChromeAlarm) : Bool := isInitialized a.deadline

/-- `id.IsRunning()`. -/
def isRunning (a : QuicChromeAlarm) : Bool := a.pending.any fun e => some e.uid == a.id

/-- `id = Simulator::Schedule(MicroSeconds(delay), ...)`. -/
def schedule (a : QuicChromeAlarm) (delay : ℕ) : QuicChromeAlarm :=
  { a with
    id := some a.nextUid
    nextUid := a.nextUid + 1
    pending := a.pending ++ [⟨a.nextUid, a.now + 1000 * delay⟩] }

/-- `QuicChromeAlarm::SetImpl`. -/
def setImpl (a : QuicChromeAlarm) : QuicChromeAlarm :=
  if isInitialized a.taskDeadline ∧ a.taskDeadline ≤ a.deadline then a
  else
    let delay := a.deadline - a.clockNow
    let b :=
      if delay < 10 then { a with deadline := a.clockNow }.schedule 0
      else a.schedule delay.toNat
    { b with taskDeadline := b.deadline }

/-- `QuicChromeAlarm::CancelImpl`. -/
def cancelImpl (a : QuicChromeAlarm) : QuicChromeAlarm :=
  if a.isRunning then
    { a with pending := a.pending.filter fun e => some e.uid != a.id, id := none }
  else a

/-- `QuicAlarm::Set`. -/
def set (a : QuicChromeAlarm) (newDeadline : ℤ) : QuicChromeAlarm :=
  { a with deadline := newDeadline }.setImpl

/-- `QuicAlarm::Cancel`. -/
def cancel (a : QuicChromeAlarm) : QuicChromeAlarm :=
  if a.isSet then { a with deadline := 0 }.cancelImpl else a

/-- `QuicAlarm::UpdateImpl`, which the subclass does not override. -/
def updateImpl (a : QuicChromeAlarm) : QuicChromeAlarm :=
  let newDeadline := a.deadline
  let b := { a with deadline := 0 }.cancelImpl
  { b with deadline := newDeadline }.setImpl

/-- `QuicAlarm::Update`. -/
def update (a : QuicChromeAlarm) (newDeadline granularity : ℤ) : QuicChromeAlarm :=
  if !isInitialized newDeadline then a.cancel
  else if |newDeadline - a.deadline| < granularity then a
  else if a.isSet then { a with deadline := newDeadline }.updateImpl
  else { a with deadline := newDeadline }.setImpl

/-- `QuicAlarm::Fire`.  The delegate may call `Set`, `Update` or `Cancel`; it is
called last, so what it does is what the next operations do. -/
def fire (a : QuicChromeAlarm) : QuicChromeAlarm :=
  if a.isSet then { a with deadline := 0, delegateCalls := a.delegateCalls ++ [a.clockNow] } else a

/-- `QuicChromeAlarm::OnAlarm`. -/
def onAlarm (a : QuicChromeAlarm) : QuicChromeAlarm :=
  let a := { a with taskDeadline := 0 }
  if !isInitialized a.deadline then a
  else if a.clockNow < a.deadline then a.setImpl
  else a.fire

end QuicChromeAlarm

/-- What can happen to an alarm: the three calls, the simulator moving its clock
to `t` nanoseconds, and the simulator running an event. -/
inductive Op
  | set (newDeadline : ℤ)
  | update (newDeadline granularity : ℤ)
  | cancel
  | advance (t : ℕ)
  | runEvent (uid : ℕ)
deriving DecidableEq, Repr

/-- The simulator may show the time `t`: its clock does not go back, and no
pending event is passed over. -/
def mayShow (a : QuicChromeAlarm) (t : ℕ) : Bool :=
  decide (a.now ≤ t) && a.pending.all fun e => decide (t ≤ e.time)

/-- One operation.  `Set` is made on an alarm that is not set; the simulator runs
a pending event at its time and only when no other is due before it. -/
def step (a : QuicChromeAlarm) : Op → Option QuicChromeAlarm
  | .set newDeadline => if a.isSet then none else some (a.set newDeadline)
  | .update newDeadline granularity => some (a.update newDeadline granularity)
  | .cancel => some a.cancel
  | .advance t => if mayShow a t then some { a with now := t } else none
  | .runEvent uid =>
    (a.pending.find? fun e => e.uid == uid).bind fun e =>
      if mayShow a e.time then
        some { a with
          now := e.time
          pending := a.pending.filter fun e' => e'.uid != uid }.onAlarm
      else none

/-- What one operation does, each with the guard it is made under. -/
theorem step_cases {a b : QuicChromeAlarm} {op : Op} (h : step a op = some b) :
    (∃ d, op = .set d ∧ a.isSet = false ∧ b = a.set d) ∨
      (∃ d granularity, op = .update d granularity ∧ b = a.update d granularity) ∨
      (op = .cancel ∧ b = a.cancel) ∨
      (∃ t, op = .advance t ∧ mayShow a t ∧ b = { a with now := t }) ∨
      ∃ e ∈ a.pending, op = .runEvent e.uid ∧ mayShow a e.time ∧
        b = { a with
          now := e.time
          pending := a.pending.filter fun e' => e'.uid != e.uid }.onAlarm := by
  cases op with
  | set d =>
    simp only [step, Option.ite_none_left_eq_some, Option.some.injEq] at h
    exact Or.inl ⟨d, rfl, by simpa using h.1, h.2.symm⟩
  | update d granularity => exact Or.inr (Or.inl ⟨d, granularity, rfl, (Option.some.inj h).symm⟩)
  | cancel => exact Or.inr (Or.inr (Or.inl ⟨rfl, (Option.some.inj h).symm⟩))
  | advance t =>
    simp only [step, Option.ite_none_right_eq_some, Option.some.injEq] at h
    exact Or.inr (Or.inr (Or.inr (Or.inl ⟨t, rfl, h.1, h.2.symm⟩)))
  | runEvent uid =>
    simp only [step, Option.bind_eq_some_iff, Option.ite_none_right_eq_some,
      Option.some.injEq] at h
    obtain ⟨e, he, hshow, rfl⟩ := h
    obtain rfl : e.uid = uid := by simpa using List.find?_some he
    exact Or.inr (Or.inr (Or.inr (Or.inr ⟨e, List.mem_of_find?_eq_some he, rfl, hshow, rfl⟩)))

end Alarm
end QuicNs3
