/-
# Sums of which one term changes

The balance of a change: what the sum gains is what the term gains.  It is stated without
subtraction, so that `omega` can use it.
-/

import Mathlib.Algebra.BigOperators.Group.Finset.Basic
import Mathlib.Algebra.Order.Ring.Int

namespace QuicNs3
namespace Lib

variable {n p : ℕ} {f g : ℕ → ℕ}

/-- One term of a sum changes. -/
theorem sum_range_change (hp : p < n) (h : ∀ q, q ≠ p → g q = f q) :
    ∑ q ∈ Finset.range n, g q + f p = ∑ q ∈ Finset.range n, f q + g p := by
  have hmem : p ∈ Finset.range n := Finset.mem_range.2 hp
  have hrest : ∑ q ∈ (Finset.range n).erase p, g q = ∑ q ∈ (Finset.range n).erase p, f q :=
    Finset.sum_congr rfl fun q hq => h q (Finset.ne_of_mem_erase hq)
  rw [← Finset.add_sum_erase _ g hmem, ← Finset.add_sum_erase _ f hmem, hrest]
  omega

/-- The same for a term that may lie outside the range, and then does not change. -/
theorem sum_range_change_of_le (hp : n ≤ p → g p = f p) (h : ∀ q, q ≠ p → g q = f q) :
    ∑ q ∈ Finset.range n, g q + f p = ∑ q ∈ Finset.range n, f q + g p := by
  rcases Nat.lt_or_ge p n with hlt | hle
  · exact sum_range_change hlt h
  · have hall : ∀ q, g q = f q := fun q => by
      rcases eq_or_ne q p with rfl | hne
      · exact hp hle
      · exact h q hne
    rw [hall p, Finset.sum_congr rfl fun q _ => hall q]

/-- A term is added at the end. -/
theorem sum_range_extend (h : ∀ q < n, g q = f q) :
    ∑ q ∈ Finset.range (n + 1), g q = ∑ q ∈ Finset.range n, f q + g n := by
  rw [Finset.sum_range_succ, Finset.sum_congr rfl fun q hq => h q (Finset.mem_range.1 hq)]

end Lib
end QuicNs3
