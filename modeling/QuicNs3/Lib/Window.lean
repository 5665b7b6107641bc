/-
# A window of numbered items

A sender numbers what it sends and keeps the items from some number on: items are
added at the back under the next number, changed in place, and taken off the
front once nobody needs them.  `Window α` is such a queue, with `base` the number
of its first item.

The two measures of a window are the items it has (`get?`) and their weight
(`total μ`, for a weight `μ : α → ℕ` of one item).  For each operation there is
one lemma about each of them.
-/

import Mathlib.Algebra.Order.BigOperators.Group.List
import Mathlib.Algebra.Order.Group.Nat
import Mathlib.Algebra.Order.Ring.Int

namespace QuicNs3
namespace Lib

/-- A queue of items with consecutive numbers. -/
structure Window (α : Type) where
  /-- The number of the first item. -/
  base : ℕ
  items : List α
  deriving Repr, DecidableEq

namespace Window

variable {α : Type} {w : Window α} {n m : ℕ} {a b : α} {f : α → α} {p : ℕ → α → Bool}
  {μ : α → ℕ}

/-- The number of the item added next. -/
def next (w : Window α) : ℕ := w.base + w.items.length

/-- The item with number `n`. -/
def get? (w : Window α) (n : ℕ) : Option α :=
  if n < w.base then none else w.items[n - w.base]?

/-- Change the item with number `n`. -/
def modify (w : Window α) (n : ℕ) (f : α → α) : Window α :=
  if n < w.base then w else { w with items := w.items.modify (n - w.base) f }

/-- Add items at the back. -/
def append (w : Window α) (l : List α) : Window α := { w with items := w.items ++ l }

/-- Add one item at the back. -/
def push (w : Window α) (a : α) : Window α := w.append [a]

/-- Take items off the front while `p` holds of their number and the item. -/
def dropWhile (p : ℕ → α → Bool) : ℕ → List α → Window α
  | n, [] => ⟨n, []⟩
  | n, a :: l => if p n a then dropWhile p (n + 1) l else ⟨n, a :: l⟩

/-- The items `dropWhile` takes off. -/
def takeWhile (p : ℕ → α → Bool) : ℕ → List α → List α
  | _, [] => []
  | n, a :: l => if p n a then a :: takeWhile p (n + 1) l else []

/-- What `g` says of each item. -/
def map {β : Type} (g : α → β) (w : Window α) : Window β := ⟨w.base, w.items.map g⟩

/-- The numbers of the items, in order. -/
def numbers (w : Window α) : List ℕ := List.range' w.base w.items.length

/-- The weight of all items. -/
def total (w : Window α) (μ : α → ℕ) : ℕ := (w.items.map μ).sum

/-! ## The items -/

theorem get?_isSome_iff : (w.get? n).isSome ↔ w.base ≤ n ∧ n < w.next := by
  unfold get? next
  split_ifs with h
  · simp
    omega
  · simp
    omega

theorem lt_next_of_get? (h : w.get? n = some a) : n < w.next :=
  (get?_isSome_iff.1 (by simp [h])).2

theorem base_le_of_get? (h : w.get? n = some a) : w.base ≤ n :=
  (get?_isSome_iff.1 (by simp [h])).1

theorem mem_of_get? (h : w.get? n = some a) : a ∈ w.items := by
  unfold get? at h
  split_ifs at h
  exact List.mem_of_getElem? h

theorem exists_get?_of_mem (h : a ∈ w.items) : ∃ n, w.get? n = some a := by
  obtain ⟨k, hk⟩ := List.mem_iff_getElem?.1 h
  refine ⟨w.base + k, ?_⟩
  rw [get?, if_neg (by omega), Nat.add_sub_cancel_left]
  exact hk

theorem mem_numbers : n ∈ w.numbers ↔ w.base ≤ n ∧ n < w.next := by
  simp [numbers, next, List.mem_range'_1]

@[simp] theorem base_modify : (w.modify n f).base = w.base := by
  unfold modify
  split_ifs <;> rfl

@[simp] theorem next_modify : (w.modify n f).next = w.next := by
  unfold modify next
  split_ifs <;> simp

theorem get?_modify : (w.modify n f).get? m = if m = n then (w.get? n).map f else w.get? m := by
  unfold modify
  split_ifs with hn hm hm
  · subst hm
    simp [get?, hn]
  · rfl
  · subst hm
    simp [get?, hn]
  · show (if m < w.base then none else (w.items.modify (n - w.base) f)[m - w.base]?) = w.get? m
    unfold get?
    split_ifs with hb
    · rfl
    · have hne : n - w.base ≠ m - w.base := by omega
      simp [hne]

theorem get?_modify_self (h : w.get? n = some a) : (w.modify n f).get? n = some (f a) := by
  simp [get?_modify, h]

theorem get?_modify_of_ne (h : m ≠ n) : (w.modify n f).get? m = w.get? m := by
  simp [get?_modify, h]

theorem get?_map {β : Type} {g : α → β} : (w.map g).get? n = (w.get? n).map g := by
  show (if n < w.base then none else (w.items.map g)[n - w.base]?) = _
  unfold get?
  split_ifs
  · rfl
  · rw [List.getElem?_map]

/-- A change that `g` does not see. -/
theorem map_modify {β : Type} {g : α → β} (h : ∀ a, g (f a) = g a) :
    (w.modify n f).map g = w.map g := by
  have hlist : ∀ (l : List α) (i : ℕ), (l.modify i f).map g = l.map g := by
    intro l
    induction l with
    | nil => simp
    | cons b l ih =>
      intro i
      cases i with
      | zero => simp [h]
      | succ i => simp [ih]
  unfold modify map
  split_ifs
  · rfl
  · rw [hlist]

/-- Two changes of one item are one. -/
theorem modify_modify {g : α → α} :
    (w.modify n f).modify n g = w.modify n fun a => g (f a) := by
  unfold modify
  split_ifs with h
  · rfl
  · dsimp only
    rw [List.modify_modify_eq]
    rfl

@[simp] theorem next_append (l : List α) : (w.append l).next = w.next + l.length := by
  simp [next, append, Nat.add_assoc]

theorem get?_append (l : List α) :
    (w.append l).get? m = if m < w.next then w.get? m else l[m - w.next]? := by
  have hx : (w.append l).get? m = if m < w.base then none else (w.items ++ l)[m - w.base]? := rfl
  rw [hx]
  unfold get? next
  split_ifs with hb hm hm
  · rfl
  · omega
  · rw [List.getElem?_append_left (by omega)]
  · rw [List.getElem?_append_right (by omega), Nat.sub_sub]

theorem get?_push : (w.push a).get? m = if m = w.next then some a else w.get? m := by
  unfold push
  rw [get?_append]
  split_ifs with hlt heq heq
  · omega
  · rfl
  · simp [heq]
  · have hnone : w.get? m = none := by
      rw [← Option.not_isSome_iff_eq_none, get?_isSome_iff]
      omega
    rw [hnone, List.getElem?_eq_none (by simp; omega)]

theorem next_dropWhile (l : List α) : (dropWhile p n l).next = n + l.length := by
  induction l generalizing n with
  | nil => rfl
  | cons a l ih =>
    unfold dropWhile
    split_ifs
    · rw [ih]
      simp
      omega
    · rfl

theorem le_base_dropWhile (l : List α) : n ≤ (dropWhile p n l).base := by
  induction l generalizing n with
  | nil => exact Nat.le_refl n
  | cons a l ih =>
    unfold dropWhile
    split_ifs
    · exact Nat.le_trans (Nat.le_succ n) ih
    · exact Nat.le_refl n

/-- What is left is what was there, from the new front on. -/
theorem get?_dropWhile (l : List α) :
    (dropWhile p n l).get? m =
      if m < (dropWhile p n l).base then none else (Window.mk n l).get? m := by
  induction l generalizing n with
  | nil =>
    simp [dropWhile, get?]
  | cons a l ih =>
    unfold dropWhile
    split_ifs with hp hm hm
    · rw [ih, if_pos hm]
    · rw [ih, if_neg hm]
      have hb := le_base_dropWhile (p := p) (n := n + 1) l
      have h₁ : ¬ m < n + 1 := by omega
      have h₂ : ¬ m < n := by omega
      obtain ⟨k, hk⟩ : ∃ k, m - n = k + 1 := ⟨m - n - 1, by omega⟩
      have hk' : m - (n + 1) = k := by omega
      simp [get?, h₁, h₂, hk, hk']
    · simp only [get?]
      rw [if_pos hm]
    · rfl

/-- An item that is still needed is not taken off. -/
theorem base_dropWhile_le {l : List α} (h : (Window.mk n l).get? m = some a)
    (hp : p m a = false) : (dropWhile p n l).base ≤ m := by
  induction l generalizing n with
  | nil =>
    simp [get?] at h
  | cons b l ih =>
    have hb : n ≤ m := base_le_of_get? h
    unfold dropWhile
    split_ifs with hpb
    · rcases Nat.eq_or_lt_of_le hb with rfl | hlt
      · obtain rfl : b = a := by simpa [get?] using h
        exact absurd (hp.symm.trans hpb) (by decide)
      · refine ih ?_
        obtain ⟨k, hk⟩ : ∃ k, m - n = k + 1 := ⟨m - n - 1, by omega⟩
        have hk' : m - (n + 1) = k := by omega
        have h₁ : ¬ m < n + 1 := by omega
        have h₂ : ¬ m < n := by omega
        simpa [get?, h₁, h₂, hk, hk'] using h
    · exact hb

/-- What is taken off was not needed. -/
theorem exists_of_mem_takeWhile {l : List α} (h : a ∈ takeWhile p n l) : ∃ m, p m a = true := by
  induction l generalizing n with
  | nil => simp [takeWhile] at h
  | cons b l ih =>
    unfold takeWhile at h
    split_ifs at h with hp
    · rcases List.mem_cons.1 h with rfl | h
      · exact ⟨n, hp⟩
      · exact ih h
    · simp at h

/-! ## The weight -/

theorem total_append (l : List α) : (w.append l).total μ = w.total μ + (l.map μ).sum := by
  simp [total, append]

theorem total_map {β : Type} {g : α → β} {ν : β → ℕ} :
    (w.map g).total ν = w.total fun a => ν (g a) := by
  simp [total, map, Function.comp_def]

/-- Changing one item changes the weight by as much as that of the item. -/
theorem total_modify (h : w.get? n = some a) :
    (w.modify n f).total μ + μ a = w.total μ + μ (f a) := by
  have hlist : ∀ (l : List α) (i : ℕ), l[i]? = some a →
      ((l.modify i f).map μ).sum + μ a = (l.map μ).sum + μ (f a) := by
    intro l
    induction l with
    | nil => simp
    | cons b l ih =>
      intro i hi
      cases i with
      | zero =>
        obtain rfl : b = a := by simpa using hi
        simp only [List.modify_zero_cons, List.map_cons, List.sum_cons]
        omega
      | succ i =>
        have := ih i (by simpa using hi)
        simp only [List.modify_succ_cons, List.map_cons, List.sum_cons]
        omega
  have hb : ¬ n < w.base := Nat.not_lt.2 (base_le_of_get? h)
  unfold total modify
  rw [if_neg hb]
  refine hlist w.items (n - w.base) ?_
  simpa [get?, hb] using h

theorem le_total (h : w.get? n = some a) : μ a ≤ w.total μ := by
  have hb : ¬ n < w.base := Nat.not_lt.2 (base_le_of_get? h)
  have hi : w.items[n - w.base]? = some a := by simpa [get?, hb] using h
  exact List.le_sum_of_mem (List.mem_map_of_mem (List.mem_of_getElem? hi))

/-- Taking off items without weight leaves the weight as it is. -/
theorem total_dropWhile {l : List α} (hp : ∀ m, ∀ a ∈ l, p m a = true → μ a = 0) :
    (dropWhile p n l).total μ = (l.map μ).sum := by
  induction l generalizing n with
  | nil => rfl
  | cons a l ih =>
    unfold dropWhile
    split_ifs with h
    · rw [ih fun m b hb => hp m b (List.mem_cons_of_mem a hb), List.map_cons, List.sum_cons,
        hp n a List.mem_cons_self h, Nat.zero_add]
    · rfl

end Window
end Lib
end QuicNs3
