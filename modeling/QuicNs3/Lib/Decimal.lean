/-
# Numbers as text

The decimal text of a natural number and of an integer, as `printf` writes them with
`%d`, and the text of a positive double with two decimals, as it writes it with `%.2f`.

`decimal` and `decimalInt` are injective, and no text here has a character other than
digits, a sign and a point.  A double is given by the exact quotient of two naturals
that it rounds (`binary64`, to 53 significant bits, ties to even), for values from `1`
on, where the exponent range of the format plays no role.
-/

import Mathlib.Algebra.Order.Ring.Int
import Mathlib.Data.Nat.Log

namespace QuicNs3
namespace Lib

/-- The decimal digits of a number. -/
def decimal (n : ℕ) : List Char := Nat.toDigits 10 n

/-- The decimal digits of an integer, with a sign if it is negative. -/
def decimalInt (z : ℤ) : List Char :=
  if z < 0 then '-' :: decimal z.natAbs else decimal z.natAbs

/-- `p / q` rounded to an integer, a tie to the even one. -/
def roundHalfEven (p q : ℕ) : ℕ :=
  if 2 * (p % q) < q ∨ (2 * (p % q) = q ∧ p / q % 2 = 0) then p / q else p / q + 1

/-- The double nearest to `p / q ≥ 1`, as a quotient of naturals. -/
def binary64 (p q : ℕ) : ℕ × ℕ :=
  let e := Nat.log2 (p / q)
  if e ≤ 52 then (roundHalfEven (p * 2 ^ (52 - e)) q, 2 ^ (52 - e))
  else (roundHalfEven p (q * 2 ^ (e - 52)) * 2 ^ (e - 52), 1)

/-- A quotient with two decimals, correctly rounded. -/
def fixed2 (x : ℕ × ℕ) : List Char :=
  let n := roundHalfEven (100 * x.1) x.2
  decimal (n / 100) ++ '.' :: decimal (n % 100 / 10) ++ decimal (n % 10)

theorem decimal_ne_nil (n : ℕ) : decimal n ≠ [] := Nat.toDigits_ne_nil

theorem isDigit_of_mem_decimal {c : Char} {n : ℕ} (h : c ∈ decimal n) : c.isDigit :=
  Nat.isDigit_of_mem_toDigits (by decide) (by decide) h

/-- **A number can be read back from its digits.** -/
theorem decimal_injective : Function.Injective decimal := by
  intro m n h
  have hread := congrArg (fun l => Nat.ofDigitChars 10 l 0) h
  simpa [decimal] using hread

theorem decimalInt_ne_nil (z : ℤ) : decimalInt z ≠ [] := by
  unfold decimalInt
  split_ifs
  · simp
  · exact decimal_ne_nil _

/-- The characters of an integer. -/
theorem isDigit_or_of_mem_decimalInt {c : Char} {z : ℤ} (h : c ∈ decimalInt z) :
    c.isDigit ∨ c = '-' := by
  unfold decimalInt at h
  split_ifs at h
  · rcases List.mem_cons.1 h with rfl | h
    · exact .inr rfl
    · exact .inl (isDigit_of_mem_decimal h)
  · exact .inl (isDigit_of_mem_decimal h)

theorem decimalInt_injective : Function.Injective decimalInt := by
  have hsign : ∀ n l, decimal n ≠ '-' :: l := fun n l h => by
    have := isDigit_of_mem_decimal (h ▸ List.mem_cons_self .. : '-' ∈ decimal n)
    exact absurd this (by decide)
  intro y z h
  unfold decimalInt at h
  split_ifs at h with hy hz hz
  · have := decimal_injective (List.cons.inj h).2
    omega
  · exact absurd h.symm (hsign _ _)
  · exact absurd h (hsign _ _)
  · have := decimal_injective h
    omega

theorem isDigit_or_of_mem_fixed2 {c : Char} {x : ℕ × ℕ} (h : c ∈ fixed2 x) :
    c.isDigit ∨ c = '.' := by
  simp only [fixed2, List.mem_append, List.mem_cons] at h
  rcases h with (h | rfl | h) | h
  · exact .inl (isDigit_of_mem_decimal h)
  · exact .inr rfl
  · exact .inl (isDigit_of_mem_decimal h)
  · exact .inl (isDigit_of_mem_decimal h)

end Lib
end QuicNs3
