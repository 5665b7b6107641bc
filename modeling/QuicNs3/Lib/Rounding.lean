/-
# Rounding to a number of bits

A conversion or an operation in floating point returns the exact result rounded to the
number of significant bits of the format: 24 for a `float`, 53 for a `double`.  For
naturals this is `roundTo`; results that are not integers are handled by scaling with a
power of two, which does not round.

A number with few enough bits is its own rounding, and rounding does not go up past such a
number (`roundTo_le`).  This is all that bounds on sums and products of rounded numbers
need: no error has to be followed through a computation.
-/

import QuicNs3.Lib.Decimal

namespace QuicNs3
namespace Lib

/-- `p / q` rounded to an integer, a tie up. -/
def roundHalfUp (p q : ℕ) : ℕ := (2 * p + q) / (2 * q)

/-- The exponent of the last place of `n`, with `bits` significant bits. -/
def lastPlace (bits n : ℕ) : ℕ := Nat.log2 n + 1 - bits

/-- `n` rounded to `bits` significant bits, a tie to the even one. -/
def roundTo (bits n : ℕ) : ℕ :=
  roundHalfEven n (2 ^ lastPlace bits n) * 2 ^ lastPlace bits n

variable {bits n m k p q c : ℕ}

/-! ## Rounding a quotient -/

theorem roundHalfEven_one (p : ℕ) : roundHalfEven p 1 = p := by
  unfold roundHalfEven
  rw [if_pos (.inl (by omega)), Nat.div_one]

theorem roundHalfEven_le (hq : 0 < q) (h : p ≤ c * q) : roundHalfEven p q ≤ c := by
  unfold roundHalfEven
  have hdiv : p / q ≤ c := Nat.div_le_of_le_mul (Nat.mul_comm c q ▸ h)
  split_ifs with hr
  · exact hdiv
  · -- Rounded up, the quotient is not whole.
    have hrest : 0 < p % q := by
      by_contra h0
      exact hr (.inl (by omega))
    have hne : p / q ≠ c := by
      rintro rfl
      have := Nat.div_add_mod p q
      rw [Nat.mul_comm] at this
      omega
    omega

/-! ## Rounding to bits -/

/-- A number that has few enough bits is not rounded. -/
theorem roundTo_of_lt (hbits : 0 < bits) (h : n < 2 ^ bits) : roundTo bits n = n := by
  have hlast : lastPlace bits n = 0 := by
    unfold lastPlace
    rcases Nat.eq_zero_or_pos n with rfl | hn
    · rw [Nat.log2_zero]
      omega
    · have := (Nat.log2_lt hn.ne').2 h
      omega
  rw [roundTo, hlast, Nat.pow_zero, roundHalfEven_one, Nat.mul_one]

/-- Where the last place is not the first, `n` fills its bits. -/
theorem pow_le_of_lastPlace_pos (hbits : 0 < bits) (h : 0 < lastPlace bits n) :
    2 ^ (bits - 1) * 2 ^ lastPlace bits n ≤ n := by
  have hlog : bits - 1 + lastPlace bits n = Nat.log2 n := by
    unfold lastPlace at h ⊢
    omega
  have hn : n ≠ 0 := by
    rintro rfl
    unfold lastPlace at h
    rw [Nat.log2_zero] at h
    omega
  rw [← Nat.pow_add, hlog]
  exact Nat.log2_self_le hn

/-- A number with few enough bits and a finer last place than `n` is not above the power
of two that `n` reaches. -/
theorem le_pow_of_lt_lastPlace (hbits : 0 < bits) (hm : m ≤ 2 ^ bits)
    (hk : k < lastPlace bits n) : m * 2 ^ k ≤ 2 ^ (bits - 1) * 2 ^ lastPlace bits n := by
  calc m * 2 ^ k ≤ 2 ^ bits * 2 ^ (lastPlace bits n - 1) :=
        Nat.mul_le_mul hm (Nat.pow_le_pow_right (by omega) (by omega))
    _ = 2 ^ (bits - 1) * 2 ^ lastPlace bits n := by
        rw [← Nat.pow_add, ← Nat.pow_add]
        congr 1
        omega

/-- A number whose last place is not finer than that of `n`, in units of the latter. -/
theorem mul_pow_eq_of_lastPlace_le (hk : lastPlace bits n ≤ k) :
    m * 2 ^ k = m * 2 ^ (k - lastPlace bits n) * 2 ^ lastPlace bits n := by
  rw [Nat.mul_assoc, ← Nat.pow_add, Nat.sub_add_cancel hk]

/-- **Rounding does not go up past a number with few enough bits.** -/
theorem roundTo_le (hbits : 0 < bits) (hm : m ≤ 2 ^ bits) (h : n ≤ m * 2 ^ k) :
    roundTo bits n ≤ m * 2 ^ k := by
  have hpos : 0 < 2 ^ lastPlace bits n := Nat.two_pow_pos _
  rcases Nat.lt_or_ge k (lastPlace bits n) with hk | hk
  · have hlow := pow_le_of_lastPlace_pos hbits (Nat.zero_lt_of_lt hk)
    have hhigh := le_pow_of_lt_lastPlace hbits hm hk
    calc roundTo bits n ≤ 2 ^ (bits - 1) * 2 ^ lastPlace bits n :=
          Nat.mul_le_mul_right _ (roundHalfEven_le hpos (h.trans hhigh))
      _ ≤ m * 2 ^ k := hlow.trans h
  · rw [mul_pow_eq_of_lastPlace_le hk] at h ⊢
    exact Nat.mul_le_mul_right _ (roundHalfEven_le hpos h)

end Lib
end QuicNs3
