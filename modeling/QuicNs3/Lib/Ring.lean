/-
# A ring of blocks

A window of offsets that moves forward is stored in a ring of `capacity` bytes, which is cut
into blocks of `size` bytes; the last block may be shorter.  An offset lies in the block
`blockIndex`, at the position `inBlock` there.  Two offsets of one window never share a place
(`eq_of_place_eq`), the offsets up to the end of a block lie behind each other in it
(`place_add`), and a block that is left and entered again before the ring is once around is
not left a second time (`not_left_twice`).
-/

import Mathlib.Algebra.Order.Ring.Int
import Mathlib.Data.Nat.ModEq

namespace QuicNs3
namespace Lib
namespace Ring

variable {capacity size o o' x y z start k : ℕ}

/-- The block of an offset. -/
def blockIndex (capacity size o : ℕ) : ℕ := o % capacity / size

/-- The place of an offset in its block. -/
def inBlock (capacity size o : ℕ) : ℕ := o % capacity % size

/-- How many blocks there are. -/
def blocksCount (capacity size : ℕ) : ℕ := (capacity + size - 1) / size

/-- How many bytes of a block are used. -/
def blockCapacity (capacity size i : ℕ) : ℕ :=
  if i + 1 = blocksCount capacity size then
    if capacity % size = 0 then size else capacity % size
  else size

theorem mod_capacity_eq (capacity size o : ℕ) :
    o % capacity = size * blockIndex capacity size o + inBlock capacity size o :=
  (Nat.div_add_mod _ _).symm

theorem inBlock_lt (hsize : 0 < size) : inBlock capacity size o < size := Nat.mod_lt _ hsize

theorem blockIndex_lt (hcap : 0 < capacity) (hsize : 0 < size) :
    blockIndex capacity size o < blocksCount capacity size := by
  have hpos := Nat.mod_lt o hcap
  unfold blockIndex blocksCount
  rw [Nat.div_lt_iff_lt_mul hsize]
  have := Nat.lt_div_mul_add hsize (a := capacity + size - 1)
  omega

/-- A block ends where the next one begins, or with the ring. -/
theorem blockCapacity_eq (hsize : 0 < size) {i : ℕ} (hi : i < blocksCount capacity size) :
    blockCapacity capacity size i = min size (capacity - size * i) := by
  have hdiv := Nat.div_add_mod capacity size
  have hmod := Nat.mod_lt capacity hsize
  have hcount : blocksCount capacity size =
      if capacity % size = 0 then capacity / size else capacity / size + 1 := by
    unfold blocksCount
    split_ifs with h
    · rw [Nat.div_eq_of_lt_le]
      · rw [Nat.mul_comm]
        omega
      · rw [Nat.add_mul, Nat.mul_comm]
        omega
    · rw [Nat.div_eq_of_lt_le]
      · rw [Nat.add_mul, Nat.mul_comm]
        omega
      · rw [Nat.add_mul, Nat.add_mul, Nat.mul_comm]
        omega
  unfold blockCapacity
  rw [hcount] at hi ⊢
  split_ifs at hi ⊢ with h₁ h₂ h₂
  · have : size * (i + 1) = size * (capacity / size) := by rw [h₂]
    rw [Nat.mul_add] at this
    omega
  · have : size * (i + 2) ≤ size * (capacity / size) := Nat.mul_le_mul_left _ (by omega)
    rw [Nat.mul_add] at this
    omega
  · obtain rfl : i = capacity / size := by omega
    omega
  · have : size * (i + 1) ≤ size * (capacity / size) := Nat.mul_le_mul_left _ (by omega)
    rw [Nat.mul_add] at this
    omega

theorem blockCapacity_le (hsize : 0 < size) {i : ℕ} : blockCapacity capacity size i ≤ size := by
  have := Nat.mod_lt capacity hsize
  unfold blockCapacity
  split_ifs <;> omega

/-- **The rest of a block** holds the offsets that follow. -/
theorem place_add (hcap : 0 < capacity) (hsize : 0 < size)
    (hk : k < blockCapacity capacity size (blockIndex capacity size o) -
      inBlock capacity size o) :
    blockIndex capacity size (o + k) = blockIndex capacity size o ∧
      inBlock capacity size (o + k) = inBlock capacity size o + k := by
  have hpos := Nat.mod_lt o hcap
  have hplace := mod_capacity_eq capacity size o
  rw [blockCapacity_eq hsize (blockIndex_lt hcap hsize)] at hk
  have hsum : (o + k) % capacity = o % capacity + k := by
    rw [Nat.add_mod_of_add_mod_lt]
    · rw [Nat.mod_eq_of_lt (a := k) (by omega)]
    · rw [Nat.mod_eq_of_lt (a := k) (by omega)]
      omega
  have hnext : (o + k) % capacity =
      (inBlock capacity size o + k) + size * blockIndex capacity size o := by omega
  constructor
  · show (o + k) % capacity / size = _
    rw [hnext, Nat.add_mul_div_left _ _ hsize, Nat.div_eq_of_lt (by omega), Nat.zero_add]
  · show (o + k) % capacity % size = _
    rw [hnext, Nat.add_mul_mod_self_left, Nat.mod_eq_of_lt (by omega)]

/-- There is always room for a byte. -/
theorem inBlock_lt_blockCapacity (hcap : 0 < capacity) (hsize : 0 < size) :
    inBlock capacity size o < blockCapacity capacity size (blockIndex capacity size o) := by
  have hpos := Nat.mod_lt o hcap
  have hplace := mod_capacity_eq capacity size o
  have hlt : inBlock capacity size o < size := inBlock_lt hsize
  rw [blockCapacity_eq hsize (blockIndex_lt hcap hsize)]
  omega

/-- Behind a block comes the next one, and behind the last the first. -/
theorem place_of_end (hcap : 0 < capacity) (hsize : 0 < size)
    (hk : inBlock capacity size o + k =
      blockCapacity capacity size (blockIndex capacity size o)) :
    blockIndex capacity size (o + k) =
        (blockIndex capacity size o + 1) % blocksCount capacity size ∧
      inBlock capacity size (o + k) = 0 := by
  have hlt := blockIndex_lt (o := o) hcap hsize
  have hpos := Nat.mod_lt o hcap
  have hplace := mod_capacity_eq capacity size o
  rw [blockCapacity_eq hsize hlt] at hk
  unfold blockIndex inBlock
  rw [← Nat.mod_add_mod]
  change blockIndex capacity size o < _ at hlt
  have hmul : size * (blockIndex capacity size o + 1) = size * blockIndex capacity size o + size :=
    Nat.mul_succ ..
  rcases lt_or_ge (size * (blockIndex capacity size o + 1)) capacity with h | h
  · have hnext : blockIndex capacity size o + 1 < blocksCount capacity size := by
      unfold blocksCount
      rw [← Nat.succ_le_iff, Nat.le_div_iff_mul_le hsize, Nat.succ_eq_add_one, Nat.add_mul,
        Nat.mul_comm]
      omega
    have hsum : o % capacity + k = size * (blockIndex capacity size o + 1) := by omega
    rw [hsum, Nat.mod_eq_of_lt h, Nat.mul_div_cancel_left _ hsize, Nat.mul_mod_right]
    exact ⟨(Nat.mod_eq_of_lt hnext).symm, rfl⟩
  · have hlast : blockIndex capacity size o + 1 = blocksCount capacity size := by
      refine le_antisymm hlt ?_
      unfold blocksCount
      rw [← Nat.lt_succ_iff, Nat.div_lt_iff_lt_mul hsize, Nat.succ_mul, Nat.mul_comm]
      omega
    have hsum : o % capacity + k = capacity := by omega
    change _ = (blockIndex capacity size o + 1) % _ ∧ _
    rw [hsum, hlast, Nat.mod_self, Nat.mod_self, Nat.zero_div, Nat.zero_mod]
    exact ⟨rfl, rfl⟩

/-- The first offset behind a block is not in it, if there is another block. -/
theorem blockIndex_ne_of_end (hcap : size < capacity) (hsize : 0 < size)
    (hk : inBlock capacity size o + k =
      blockCapacity capacity size (blockIndex capacity size o)) :
    blockIndex capacity size (o + k) ≠ blockIndex capacity size o := by
  have hlt := blockIndex_lt (o := o) (show 0 < capacity by omega) hsize
  have hcount : 1 < blocksCount capacity size := by
    unfold blocksCount
    rw [← Nat.succ_le_iff, Nat.le_div_iff_mul_le hsize]
    omega
  rw [(place_of_end (by omega) hsize hk).1]
  rcases Nat.lt_or_ge (blockIndex capacity size o + 1) (blocksCount capacity size) with h | h
  · rw [Nat.mod_eq_of_lt h]
    omega
  · rw [show blockIndex capacity size o + 1 = blocksCount capacity size by omega, Nat.mod_self]
    omega

/-- **Two offsets of a window have different places.** -/
theorem eq_of_place_eq (ho : start ≤ o) (ho' : start ≤ o') (hlt : o < start + capacity)
    (hlt' : o' < start + capacity) (hb : blockIndex capacity size o = blockIndex capacity size o')
    (hi : inBlock capacity size o = inBlock capacity size o') : o = o' := by
  have hmod : o % capacity = o' % capacity := by
    rw [mod_capacity_eq capacity size o, mod_capacity_eq capacity size o', hb, hi]
  rcases le_total o o' with h | h
  · have hdvd := (Nat.modEq_iff_dvd' h).1 hmod
    have := Nat.eq_zero_of_dvd_of_lt hdvd (by omega)
    omega
  · have hdvd := (Nat.modEq_iff_dvd' h).1 hmod.symm
    have := Nat.eq_zero_of_dvd_of_lt hdvd (by omega)
    omega

/-- **A block is not left twice** on the way once around the ring. -/
theorem not_left_twice (capacity size : ℕ) (hyx : y ≤ x) (hxo : x ≤ o) (hoz : o ≤ z)
    (hz : z ≤ y + capacity)
    (hx : blockIndex capacity size x ≠ blockIndex capacity size y)
    (ho : blockIndex capacity size o = blockIndex capacity size y)
    (hz' : blockIndex capacity size z ≠ blockIndex capacity size y) : False := by
  have hcap : 0 < capacity := by
    rcases Nat.eq_zero_or_pos capacity with rfl | h
    · obtain rfl : z = y := by omega
      exact absurd rfl hz'
    · exact h
  have hzy : z ≠ y + capacity := by
    rintro rfl
    refine hz' ?_
    unfold blockIndex
    rw [Nat.add_mod_right]
  -- An offset of the window is on the lap of its first one, or on the next.
  have hlap : ∀ w, y ≤ w → w < y + capacity →
      (w % capacity = y % capacity + (w - y)) ∨
        (w % capacity + capacity = y % capacity + (w - y)) := by
    intro w hw hw'
    obtain ⟨d, rfl⟩ := Nat.exists_eq_add_of_le hw
    have hy := Nat.mod_lt y hcap
    rw [Nat.add_sub_cancel_left, Nat.add_mod, Nat.mod_eq_of_lt (a := d) (by omega)]
    rcases lt_or_ge (y % capacity + d) capacity with h | h
    · exact .inl (Nat.mod_eq_of_lt h)
    · right
      rw [Nat.mod_eq_sub_mod h, Nat.mod_eq_of_lt (by omega)]
      omega
  have hxl := hlap x hyx (by omega)
  have hol := hlap o (by omega) (by omega)
  have hzl := hlap z (by omega) (by omega)
  have hxlt := Nat.mod_lt x hcap
  have holt := Nat.mod_lt o hcap
  have hzlt := Nat.mod_lt z hcap
  unfold blockIndex at hx ho hz'
  rcases hol with hol | hol
  · refine hx (le_antisymm ?_ ?_)
    · rw [← ho]
      exact Nat.div_le_div_right (by omega)
    · exact Nat.div_le_div_right (by omega)
  · refine hz' (le_antisymm ?_ ?_)
    · exact Nat.div_le_div_right (by omega)
    · rw [← ho]
      exact Nat.div_le_div_right (by omega)

end Ring
end Lib
end QuicNs3
