/-
# Functions that call each other

A family of functions that may call each other is given by its bodies: `body call c s` is
what the call `c` does in the state `s`, where `call` stands for the calls it makes itself.
`exec body` ties the knot, with fuel for the depth of the calls; `none` is a call that does
not return.

`exec_correct` is the rule of total correctness.  To show that every call returns and meets
its postcondition, it is enough to show this for each body, and to assume it there of the
calls with a smaller measure.
-/

import Mathlib.Data.Nat.Notation

namespace QuicNs3
namespace Lib

variable {C σ : Type*}

/-- The calls of a family of functions, nested at most as deep as the fuel allows. -/
def exec (body : (C → σ → Option σ) → C → σ → Option σ) : ℕ → C → σ → Option σ
  | 0, _, _ => none
  | fuel + 1, c, s => body (exec body fuel) c s

/-- A call returns, with the postcondition. -/
def Returns (call : C → σ → Option σ) (Q : C → σ → σ → Prop) (c : C) (s : σ) : Prop :=
  ∃ t, call c s = some t ∧ Q c s t

/-- **The rule of total correctness.** -/
theorem exec_correct {body : (C → σ → Option σ) → C → σ → Option σ} {P : C → σ → Prop}
    {Q : C → σ → σ → Prop} (measure : C → σ → ℕ)
    (hbody : ∀ call c s, P c s →
      (∀ c' s', measure c' s' < measure c s → P c' s' → Returns call Q c' s') →
      Returns (body call) Q c s)
    {fuel : ℕ} {c : C} {s : σ} (hfuel : measure c s < fuel) (hP : P c s) :
    Returns (exec body fuel) Q c s := by
  induction fuel generalizing c s with
  | zero => exact absurd hfuel (Nat.not_lt_zero _)
  | succ fuel ih =>
    exact hbody (exec body fuel) c s hP fun c' s' hlt hP' =>
      ih (Nat.lt_of_lt_of_le hlt (Nat.le_of_lt_succ hfuel)) hP'

end Lib
end QuicNs3
