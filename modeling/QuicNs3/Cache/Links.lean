/-
# `attach` and `detach` on a linked list

The list of an `LRUCache` runs from `head_` over its nodes to `tail_`
(`Heap.IsList`).  On a list without repetitions `detach` takes out any of its
nodes and `attach` puts a node that is not on it behind `head_`; neither goes
through a null pointer, and neither changes a key or a value
(`detach_isList`, `attach_isList`).
-/

import QuicNs3.Cache.Basic
import QuicNs3.Lib.Linked

namespace QuicNs3
namespace Cache

open Lib

variable {K T : Type} {h h' : Heap K T} {p q : Ptr} {x : Option Ptr} {nodes xs ys : List Ptr}

namespace Heap

/-- The nodes from `head_` to `tail_`, both excluded, are `nodes`. -/
def IsList (h : Heap K T) (nodes : List Ptr) : Prop :=
  Linked (fun p => (h p).next) (fun p => (h p).prev) (.head :: (nodes ++ [.tail]))

/-- `h'` holds the keys and the values of `h`. -/
def SameEntries (h h' : Heap K T) : Prop := ∀ p, (h' p).key = (h p).key ∧ (h' p).data = (h p).data

theorem SameEntries.trans {h₁ h₂ h₃ : Heap K T} (h₁₂ : SameEntries h₁ h₂)
    (h₂₃ : SameEntries h₂ h₃) : SameEntries h₁ h₃ := fun p =>
  ⟨(h₂₃ p).1.trans (h₁₂ p).1, (h₂₃ p).2.trans (h₁₂ p).2⟩

@[simp] theorem setNext_next : (h.setNext p x q).next = if q = p then x else (h q).next := by
  by_cases hq : q = p <;> simp [setNext, Function.update, hq]

@[simp] theorem setNext_prev : (h.setNext p x q).prev = (h q).prev := by
  by_cases hq : q = p <;> simp [setNext, Function.update, hq]

@[simp] theorem setPrev_next : (h.setPrev p x q).next = (h q).next := by
  by_cases hq : q = p <;> simp [setPrev, Function.update, hq]

@[simp] theorem setPrev_prev : (h.setPrev p x q).prev = if q = p then x else (h q).prev := by
  by_cases hq : q = p <;> simp [setPrev, Function.update, hq]

theorem sameEntries_setNext : SameEntries h (h.setNext p x) := fun q => by
  by_cases hq : q = p <;> simp [setNext, Function.update, hq]

theorem sameEntries_setPrev : SameEntries h (h.setPrev p x) := fun q => by
  by_cases hq : q = p <;> simp [setPrev, Function.update, hq]

@[simp] theorem setEntry_next {k : K} {v : T} : (h.setEntry p k v q).next = (h q).next := by
  by_cases hq : q = p <;> simp [setEntry, Function.update, hq]

@[simp] theorem setEntry_prev {k : K} {v : T} : (h.setEntry p k v q).prev = (h q).prev := by
  by_cases hq : q = p <;> simp [setEntry, Function.update, hq]

@[simp] theorem setEntry_self {k : K} {v : T} :
    (h.setEntry p k v p).key = k ∧ (h.setEntry p k v p).data = v := by
  simp [setEntry]

theorem setEntry_of_ne {k : K} {v : T} (hq : q ≠ p) : h.setEntry p k v q = h q := by
  simp [setEntry, hq]

theorem isList_setEntry {k : K} {v : T} (hl : h.IsList nodes) :
    (h.setEntry p k v).IsList nodes := by
  simpa only [IsList, setEntry_next, setEntry_prev] using hl

/-- **`detach` takes a node out of the list.** -/
theorem detach_isList (hl : h.IsList (xs ++ p :: ys))
    (hnd : (Ptr.head :: (xs ++ p :: ys ++ [.tail])).Nodup) :
    ∃ h', h.detach p = some h' ∧ h'.IsList (xs ++ ys) ∧ SameEntries h h' := by
  -- the neighbours of `p`, a sentinel if `p` is the first or the last node
  obtain ⟨pre, a, ha⟩ : ∃ pre a, Ptr.head :: xs = pre ++ [a] :=
    ⟨_, _, (List.dropLast_append_getLast (by simp)).symm⟩
  obtain ⟨b, post, hb⟩ : ∃ b post, ys ++ [Ptr.tail] = b :: post := by
    cases ys with
    | nil => exact ⟨_, _, rfl⟩
    | cons y ys => exact ⟨_, _, rfl⟩
  have hsplit : Ptr.head :: (xs ++ p :: ys ++ [.tail]) = pre ++ a :: p :: b :: post := by
    rw [List.append_assoc, List.cons_append, hb, ← List.cons_append, ha]; simp
  have hjoin : Ptr.head :: (xs ++ ys ++ [.tail]) = pre ++ a :: b :: post := by
    rw [List.append_assoc, hb, ← List.cons_append, ha]; simp
  rw [IsList, hsplit] at hl
  rw [hsplit] at hnd
  obtain ⟨hprev, hnext⟩ := hl.neighbours
  refine ⟨(h.setNext a (h p).next).setPrev b (h p).prev, ?_, ?_,
    sameEntries_setNext.trans sameEntries_setPrev⟩
  · simp [detach, hprev, hnext]
  · rw [IsList, hjoin]
    refine hl.unlink hnd ?_ (fun y hy => ?_) ?_ (fun y hy => ?_)
    · simp [hnext]
    · simp [hy]
    · simp [hprev]
    · simp [hy]

/-- **`attach` puts a node behind `head_`.** -/
theorem attach_isList (hl : h.IsList nodes) (hnd : (Ptr.head :: (nodes ++ [.tail])).Nodup)
    (hp : p ∉ Ptr.head :: (nodes ++ [.tail])) :
    ∃ h', h.attach p = some h' ∧ h'.IsList (p :: nodes) ∧ SameEntries h h' := by
  obtain ⟨b, post, hb⟩ : ∃ b post, nodes ++ [Ptr.tail] = b :: post := by
    cases nodes with
    | nil => exact ⟨_, _, rfl⟩
    | cons y ys => exact ⟨_, _, rfl⟩
  rw [IsList, hb] at hl
  rw [hb] at hnd hp
  have hnext : (h .head).next = some b := (List.isChain_cons_cons.1 hl).1.1
  simp only [List.mem_cons, not_or] at hp
  refine ⟨((((h.setNext p (h .head).next).setNext .head (some p)).setPrev b (some p)).setPrev p
    (some .head)), ?_, ?_, ?_⟩
  · simp [attach, hnext, hp.1]
  · rw [IsList, List.cons_append, hb]
    refine hl.link hnd (by simpa using hp) ?_ ?_ (fun y hy hyp => ?_) ?_ ?_ (fun y hyp hy => ?_)
    · simp
    · simp [hnext, hp.1]
    · simp [hy, hyp]
    · simp
    · simp [Ne.symm hp.2.1]
    · simp [hy, hyp]
  · exact ((sameEntries_setNext.trans sameEntries_setNext).trans sameEntries_setPrev).trans
      sameEntries_setPrev

end Heap

end Cache
end QuicNs3
