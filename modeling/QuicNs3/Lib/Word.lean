/-
# Counters of 64 bits

Sums and differences of unsigned 64-bit counters, which wrap, and when they do not.
-/

import Mathlib.Algebra.Order.Ring.Int

namespace QuicNs3
namespace Lib

variable {a b : ℕ}

/-- The sum of two 64-bit counters. -/
def wrapAdd (a b : ℕ) : ℕ := (a + b) % 2 ^ 64

/-- The difference of two 64-bit counters. -/
def wrapSub (a b : ℕ) : ℕ := (a + 2 ^ 64 - b) % 2 ^ 64

theorem wrapAdd_lt : wrapAdd a b < 2 ^ 64 := Nat.mod_lt _ (by decide)

/-- A sum that fits is the sum. -/
theorem wrapAdd_eq (h : a + b < 2 ^ 64) : wrapAdd a b = a + b := Nat.mod_eq_of_lt h

/-- A difference that is not negative is the difference. -/
theorem wrapSub_eq (h : b ≤ a) (ha : a < 2 ^ 64) : wrapSub a b = a - b := by
  unfold wrapSub
  omega

end Lib
end QuicNs3
