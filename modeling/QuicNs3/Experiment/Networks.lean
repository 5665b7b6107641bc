/-
# The client network of a round

Model of how `examples/quic-mapreduce.cc` chooses the network of the simulated clients from
the number of the round.  The octets of `10.4.1.0` are read, the second is replaced by the
last digit of the round to the base 255, and the digits before it are added to the first one
by one (`addDigits`).

For the rounds that are accepted, from 1 to 65535, at most two digits are added, so the loop
is arithmetic (`octets_eq`), and the text determines the octets (`leftIp_eq_iff`).
`network_ok_iff` says for which rounds the network is one, and for which pairs of rounds it
is not the same.
-/

import QuicNs3.History.Format
import QuicNs3.Lib.Decimal
import Mathlib.Data.Nat.Digits.Defs

namespace QuicNs3
namespace Experiment

open History (Stop Stream separated access)
open Lib

/-! ## The computation -/

/-- `isspace`. -/
def isSpace (c : Char) : Bool := c ∈ [' ', '\t', '\n', '\x0b', '\x0c', '\r']

/-- `std::stoi`, with `none` for an exception. -/
def stoi (s : List Char) : Option ℤ :=
  let s := s.dropWhile isSpace
  let negative := s.head? = some '-'
  let s := if s.head? = some '-' ∨ s.head? = some '+' then s.tail else s
  let digits := s.takeWhile Char.isDigit
  let value : ℤ := Nat.ofDigitChars 10 digits 0
  let value := if negative then -value else value
  if digits ≠ [] ∧ -2147483648 ≤ value ∧ value ≤ 2147483647 then some value else none

/-- `split(s, sv, flag)`.  An exception ends the program. -/
def split (s : List Char) (flag : Char) : Except Stop (List ℤ) :=
  (Stream.open s).forLines flag
    (fun sv temp => (stoi temp).elim (.error .exit) fun v => .ok (sv ++ [v])) []

/-- The loop over the digits of the round. -/
def addDigits : ℕ → ℤ → ℤ → Except Stop ℤ
  | 0, _, _ => .error .outOfFuel
  | fuel + 1, round, first =>
    if round > 0 then addDigits fuel (round / 255) (first + round % 255) else .ok first

/-- The vector `sv` of a round. -/
def octets (round : ℤ) : Except Stop (List ℤ) := do
  let sv ← split ['1', '0', '.', '4', '.', '1', '.', '0'] '.'
  let _ ← access sv 1
  let sv := sv.set 1 (round % 255)
  let first ← access sv 0
  let first ← addDigits ((round / 255).toNat + 1) (round / 255) first
  .ok (sv.set 0 first)

/-- `leftIp`. -/
def leftIp (round : ℤ) : Except Stop (List Char) :=
  if round > 0 ∧ round < 65536 then do
    let sv ← octets round
    let a ← access sv 0
    let b ← access sv 1
    let c ← access sv 2
    let d ← access sv 3
    .ok (decimalInt a ++ '.' :: (decimalInt b ++ '.' :: (decimalInt c ++ '.' :: decimalInt d)))
  else .ok ['1', '0', '.', '4', '.', '1', '.', '0']

/-- The networks of the other side and of the routers, `10.2.1.0` and `10.3.1.0`. -/
def fixedNetworks : List (List Char) :=
  [['1', '0', '.', '2', '.', '1', '.', '0'], ['1', '0', '.', '3', '.', '1', '.', '0']]

/-! ## The loop -/

/-- **The loop adds the digits** to the base 255. -/
theorem addDigits_eq {fuel n : ℕ} (first : ℤ) (h : n < fuel) :
    addDigits fuel n first = .ok (first + (Nat.digits 255 n).sum) := by
  induction fuel generalizing n first with
  | zero => exact absurd h (Nat.not_lt_zero n)
  | succ fuel ih =>
    rw [addDigits]
    rcases Nat.eq_zero_or_pos n with rfl | hpos
    · simp
    · have hless : n / 255 < fuel := by omega
      have hround : (n : ℤ) / 255 = ((n / 255 : ℕ) : ℤ) := by omega
      rw [if_pos (by omega), hround, ih _ hless, Nat.digits_def' (by decide) hpos, List.sum_cons]
      congr 1
      push_cast
      omega

/-- What is added for a round that is accepted. -/
theorem sum_digits_of_lt {n : ℕ} (h : n < 258) :
    (Nat.digits 255 n).sum = n % 255 + n / 255 := by
  rcases Nat.eq_zero_or_pos n with rfl | hpos
  · rfl
  · rw [Nat.digits_def' (by decide) hpos, List.sum_cons]
    rcases Nat.eq_zero_or_pos (n / 255) with hzero | hpos'
    · rw [hzero]
      rfl
    · have hone : n / 255 = 1 := by omega
      rw [hone]
      rfl

/-- **The octets of a round.** -/
theorem octets_eq {r : ℤ} (hpos : 0 < r) (hlt : r < 65536) :
    octets r = .ok [10 + (r / 255 % 255 + r / 255 / 255), r % 255, 1, 0] := by
  have hsplit : split ['1', '0', '.', '4', '.', '1', '.', '0'] '.' = .ok [10, 4, 1, 0] := by decide
  have hround : r / 255 = (((r / 255).toNat : ℕ) : ℤ) := by omega
  have hloop : addDigits ((r / 255).toNat + 1) (r / 255) 10 =
      .ok (10 + (r / 255 % 255 + r / 255 / 255)) := by
    have hsum := addDigits_eq 10 (Nat.lt_succ_self (r / 255).toNat)
    rw [← hround, sum_digits_of_lt (by omega)] at hsum
    rw [hsum]
    congr 2
    push_cast
    omega
  rw [octets, hsplit]
  show (addDigits _ _ 10).bind _ = _
  rw [hloop]
  rfl

/-! ## The text -/

theorem point_not_mem_decimalInt (z : ℤ) : '.' ∉ decimalInt z := fun h => by
  rcases isDigit_or_of_mem_decimalInt h with h | h <;> exact absurd h (by decide)

/-- The text of four octets. -/
def dotted (a b c d : ℤ) : List Char := separated '.' ([a, b, c, d].map decimalInt)

theorem dotted_inj {a b c d a' b' c' d' : ℤ} (h : dotted a b c d = dotted a' b' c' d') :
    a = a' ∧ b = b' ∧ c = c' ∧ d = d' := by
  have hclean : ∀ ls : List ℤ, ∀ l ∈ ls.map decimalInt, '.' ∉ l ∧ l ≠ [] := by
    intro ls l hl
    obtain ⟨z, -, rfl⟩ := List.mem_map.1 hl
    exact ⟨point_not_mem_decimalInt z, decimalInt_ne_nil z⟩
  have hsplit : History.split (dotted a b c d) '.' = .ok ([a, b, c, d].map decimalInt) :=
    History.split_separated (by simp) (hclean _)
  rw [h, dotted, History.split_separated (by simp) (hclean _)] at hsplit
  have hlist := decimalInt_injective.list_map (Except.ok.inj hsplit)
  simp only [List.cons.injEq, and_true] at hlist
  exact ⟨hlist.1.symm, hlist.2.1.symm, hlist.2.2.1.symm, hlist.2.2.2.symm⟩

/-- **The text of a round.** -/
theorem leftIp_eq {r : ℤ} (hpos : 0 < r) (hlt : r < 65536) :
    leftIp r = .ok (dotted (10 + (r / 255 % 255 + r / 255 / 255)) (r % 255) 1 0) := by
  rw [leftIp, if_pos ⟨hpos, hlt⟩, octets_eq hpos hlt]
  rfl

/-- **Equal texts** are equal octets. -/
theorem leftIp_eq_iff {r a b : ℤ} (hpos : 0 < r) (hlt : r < 65536) :
    leftIp r = .ok (dotted a b 1 0) ↔
      10 + (r / 255 % 255 + r / 255 / 255) = a ∧ r % 255 = b := by
  rw [leftIp_eq hpos hlt]
  constructor
  · intro h
    obtain ⟨h₁, h₂, -, -⟩ := dotted_inj (Except.ok.inj h)
    exact ⟨h₁, h₂⟩
  · rintro ⟨rfl, rfl⟩
    rfl

/-! ## The networks -/

/-- The network of a round has four octets of at most 255, and is not one of the two fixed
networks. -/
structure ValidNetwork (r : ℤ) : Prop where
  octets : ∃ sv, octets r = .ok sv ∧ sv.length = 4 ∧ ∀ o ∈ sv, 0 ≤ o ∧ o ≤ 255
  apart : ∀ net ∈ fixedNetworks, leftIp r ≠ .ok net

/-- The rounds whose digits before the last do not add up to more than 245, without the two
whose networks are taken. -/
def Usable (r : ℤ) : Prop := (r < 62730 ∨ 65025 ≤ r) ∧ r ≠ 2 ∧ r ≠ 3

/-- One of the rounds has three digits, and the other is what is left when the first digit is
added to the second. -/
def SameDigitSum (r r' : ℤ) : Prop :=
  65025 ≤ r ∧ r = r' + 64770 ∨ 65025 ≤ r' ∧ r' = r + 64770

theorem octets_valid_iff {r : ℤ} (hpos : 0 < r) (hlt : r < 65536) :
    (∃ sv, octets r = .ok sv ∧ sv.length = 4 ∧ ∀ o ∈ sv, 0 ≤ o ∧ o ≤ 255) ↔
      r < 62730 ∨ 65025 ≤ r := by
  rw [octets_eq hpos hlt]
  constructor
  · rintro ⟨sv, hsv, -, hvalid⟩
    obtain rfl := Except.ok.inj hsv
    have := (hvalid _ (List.mem_cons_self ..)).2
    omega
  · intro h
    refine ⟨_, rfl, rfl, fun o ho => ?_⟩
    simp only [List.mem_cons, List.not_mem_nil, or_false] at ho
    omega

theorem apart_iff {r : ℤ} (hpos : 0 < r) (hlt : r < 65536) :
    (∀ net ∈ fixedNetworks, leftIp r ≠ .ok net) ↔ r ≠ 2 ∧ r ≠ 3 := by
  have hfixed : fixedNetworks = [dotted 10 2 1 0, dotted 10 3 1 0] := by decide
  rw [hfixed, List.forall_mem_cons, List.forall_mem_singleton, ne_eq, ne_eq,
    leftIp_eq_iff hpos hlt, leftIp_eq_iff hpos hlt]
  omega

theorem leftIp_injOn_iff {r r' : ℤ} (hpos : 0 < r) (hlt : r < 65536) (hpos' : 0 < r')
    (hlt' : r' < 65536) : (leftIp r = leftIp r' → r = r') ↔ ¬SameDigitSum r r' := by
  rw [leftIp_eq hpos' hlt', leftIp_eq_iff hpos hlt, SameDigitSum]
  omega

/-- **Distinct valid networks.**  For two accepted rounds, the network of the first is valid
and not that of the second, exactly if the first round is usable and the two have not the
same digits, added up. -/
theorem network_ok_iff (r r' : ℤ) (hpos : 0 < r) (hlt : r < 65536) (hpos' : 0 < r')
    (hlt' : r' < 65536) :
    (ValidNetwork r ∧ (leftIp r = leftIp r' → r = r')) ↔ Usable r ∧ ¬SameDigitSum r r' := by
  rw [leftIp_injOn_iff hpos hlt hpos' hlt']
  refine and_congr_left fun _ => ?_
  rw [Usable, ← octets_valid_iff hpos hlt, ← apart_iff hpos hlt]
  exact ⟨fun h => ⟨h.octets, h.apart⟩, fun h => ⟨h.1, h.2⟩⟩

/-- The rounds 4 and 300. -/
theorem network_ok_four :
    (ValidNetwork 4 ∧ (leftIp 4 = leftIp 300 → (4 : ℤ) = 300)) ↔
      Usable 4 ∧ ¬SameDigitSum 4 300 :=
  network_ok_iff 4 300 (by decide) (by decide) (by decide) (by decide)

/-- **Rounds with bad networks:** round 2 has the network of the other side, round 62730 an
octet of 256, and rounds 255 and 65025 have one network. -/
theorem not_network_ok :
    leftIp 2 = .ok ['1', '0', '.', '2', '.', '1', '.', '0'] ∧ ¬ValidNetwork 2 ∧
      octets 62730 = .ok [256, 0, 1, 0] ∧ ¬ValidNetwork 62730 ∧ leftIp 255 = leftIp 65025 := by
  have htwo : leftIp 2 = .ok ['1', '0', '.', '2', '.', '1', '.', '0'] := by decide
  have hbig : octets 62730 = .ok [256, 0, 1, 0] := by decide
  refine ⟨htwo, fun h => h.apart _ (List.mem_cons_self ..) htwo, hbig, fun h => ?_, by decide⟩
  obtain ⟨sv, hsv, -, hvalid⟩ := h.octets
  obtain rfl := Except.ok.inj (hbig.symm.trans hsv)
  exact absurd (hvalid 256 (List.mem_cons_self ..)).2 (by decide)

end Experiment
end QuicNs3
