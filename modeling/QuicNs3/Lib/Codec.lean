/-
# Encodings of fixed size

A `Codec α` writes a value of `α` in a fixed number of bytes and reads one from the front of
a buffer.  What is asked of it is part of the structure: what was written is read back, and a
buffer that is long enough is read, by `size` bytes.  Nothing is asked of a buffer that is
too short.

Numbers can be written with the least significant byte first (`littleEndian`) or last
(`bigEndian`), and other types through one that contains them (`via`).
-/

import Mathlib.Algebra.Order.Ring.Int
import Mathlib.Data.List.Basic

namespace QuicNs3
namespace Lib

/-- An encoding of `α` in `size` bytes. -/
structure Codec (α : Type*) where
  size : ℕ
  write : α → List UInt8
  read : List UInt8 → Option (α × List UInt8)
  length_write : ∀ a, (write a).length = size
  read_write : ∀ a rest, read (write a ++ rest) = some (a, rest)
  read_of_le : ∀ bs, size ≤ bs.length → ∃ a, read bs = some (a, bs.drop size)

attribute [simp] Codec.length_write Codec.read_write

namespace Codec

variable {α β : Type*} (c : Codec α)

/-- Read a value from the middle of a buffer. -/
theorem read_drop (bs : List UInt8) (k n : ℕ) (hn : c.size = n) (h : k + n ≤ bs.length) :
    ∃ a, c.read (bs.drop k) = some (a, bs.drop (k + n)) := by
  have hsize : c.size ≤ (bs.drop k).length := by
    rw [List.length_drop, hn]
    omega
  obtain ⟨a, ha⟩ := c.read_of_le _ hsize
  exact ⟨a, by rw [ha, hn, List.drop_drop]⟩

/-- The encoding of a type by one that contains it. -/
def via (c : Codec β) (f : α → β) (g : β → α) (h : ∀ a, g (f a) = a) : Codec α where
  size := c.size
  write a := c.write (f a)
  read bs := (c.read bs).map fun r => (g r.1, r.2)
  length_write a := c.length_write (f a)
  read_write a rest := by simp [h]
  read_of_le bs hbs := by
    obtain ⟨b, hb⟩ := c.read_of_le bs hbs
    exact ⟨g b, by rw [hb]; rfl⟩

/-- The encoding that reads the value of the first `size` bytes, and nothing from fewer. -/
def ofValue (size : ℕ) (write : α → List UInt8) (value : List UInt8 → α)
    (length_write : ∀ a, (write a).length = size) (value_write : ∀ a, value (write a) = a) :
    Codec α where
  size := size
  write := write
  read bs := if size ≤ bs.length then some (value (bs.take size), bs.drop size) else none
  length_write := length_write
  read_write a rest := by
    have hsize : size ≤ (write a ++ rest).length := by
      rw [List.length_append, length_write]
      exact Nat.le_add_right ..
    rw [if_pos hsize, List.take_left' (length_write a), List.drop_left' (length_write a),
      value_write]
  read_of_le bs hbs := ⟨_, if_pos hbs⟩

/-- One byte. -/
def byte : Codec UInt8 :=
  ofValue 1 (fun b => [b]) (fun bs => bs.headD 0) (fun _ => rfl) fun _ => rfl

end Codec

/-! ## Numbers -/

/-- The `n` least significant bytes of a number, the least significant first. -/
def toLittleEndian : ℕ → ℕ → List UInt8
  | 0, _ => []
  | n + 1, v => UInt8.ofNat v :: toLittleEndian n (v / 256)

/-- The number written in these bytes, the least significant first. -/
def ofLittleEndian : List UInt8 → ℕ
  | [] => 0
  | b :: bs => b.toNat + 256 * ofLittleEndian bs

theorem length_toLittleEndian (n v : ℕ) : (toLittleEndian n v).length = n := by
  induction n generalizing v with
  | zero => rfl
  | succ n ih => rw [toLittleEndian, List.length_cons, ih]

/-- The bytes of a number that fits into them. -/
theorem ofLittleEndian_toLittleEndian {n v : ℕ} (h : v < 256 ^ n) :
    ofLittleEndian (toLittleEndian n v) = v := by
  induction n generalizing v with
  | zero => exact (Nat.lt_one_iff.1 h).symm
  | succ n ih =>
    have hrest : v / 256 < 256 ^ n := Nat.div_lt_of_lt_mul (by rwa [Nat.pow_succ'] at h)
    rw [toLittleEndian, ofLittleEndian, ih hrest, UInt8.toNat_ofNat']
    exact Nat.mod_add_div v 256

namespace Codec

/-- The number in `n` bytes, the least significant first. -/
def littleValue (n : ℕ) (bs : List UInt8) : Fin (256 ^ n) :=
  ⟨ofLittleEndian bs % 256 ^ n, Nat.mod_lt _ (Nat.pow_pos (by decide))⟩

theorem littleValue_toLittleEndian {n : ℕ} (v : Fin (256 ^ n)) :
    littleValue n (toLittleEndian n v) = v := by
  refine Fin.ext ?_
  show ofLittleEndian (toLittleEndian n v) % 256 ^ n = v
  rw [ofLittleEndian_toLittleEndian v.isLt]
  exact Nat.mod_eq_of_lt v.isLt

/-- Numbers in `n` bytes, the least significant first. -/
def littleEndian (n : ℕ) : Codec (Fin (256 ^ n)) :=
  ofValue n (fun v => toLittleEndian n v) (littleValue n) (fun v => length_toLittleEndian n v)
    littleValue_toLittleEndian

/-- Numbers in `n` bytes, the least significant last. -/
def bigEndian (n : ℕ) : Codec (Fin (256 ^ n)) :=
  ofValue n (fun v => (toLittleEndian n v).reverse) (fun bs => littleValue n bs.reverse)
    (fun v => by rw [List.length_reverse, length_toLittleEndian])
    fun v => by rw [List.reverse_reverse, littleValue_toLittleEndian]

end Codec

end Lib
end QuicNs3
