/-
# Doubly linked lists of pointers

A doubly linked list is a list of pointers whose neighbours point at each other:
`Linked next prev l` says of consecutive `x`, `y` in `l` that `next x` is `y` and
`prev y` is `x`.  The fields are two functions on pointers, so that an update of
one field is an update of one function.

`Linked.unlink` is the removal of a pointer from between two others and
`Linked.link` the insertion of one, each for any new fields that differ from the
old ones only where the operation writes.
-/

import Mathlib.Data.List.Chain
import Mathlib.Data.List.Nodup

namespace QuicNs3
namespace Lib

variable {P : Type*} {next prev next' prev' : P → Option P}

/-- Consecutive pointers of `l` point at each other. -/
def Linked (next prev : P → Option P) (l : List P) : Prop :=
  l.IsChain fun x y => next x = some y ∧ prev y = some x

/-- The links of a part of the list that the new fields do not touch. -/
theorem Linked.congr {l : List P} (h : Linked next prev l)
    (hl : ∀ x ∈ l, ∀ y ∈ l, next x = some y → prev y = some x →
      next' x = next x ∧ prev' y = prev y) : Linked next' prev' l := by
  refine List.IsChain.imp_of_mem_imp (fun x y hx hy hxy => ?_) h
  obtain ⟨hn, hp⟩ := hl x hx y hy hxy.1 hxy.2
  exact ⟨hn.trans hxy.1, hp.trans hxy.2⟩

/-- Both sides of a link. -/
theorem linked_append_cons_cons {xs ys : List P} {a b : P} :
    Linked next prev (xs ++ a :: b :: ys) ↔
      Linked next prev (xs ++ [a]) ∧ (next a = some b ∧ prev b = some a) ∧
        Linked next prev (b :: ys) :=
  List.isChain_append_cons_cons

/-- What a pointer inside the list points at. -/
theorem Linked.neighbours {xs ys : List P} {a p b : P}
    (h : Linked next prev (xs ++ a :: p :: b :: ys)) : prev p = some a ∧ next p = some b := by
  obtain ⟨-, hap, hr⟩ := linked_append_cons_cons.1 h
  exact ⟨hap.2, (List.isChain_cons_cons.1 hr).1.1⟩

/-- **Unlinking.**  `p` is taken from between `a` and `b` by letting `next a` be
`b` and `prev b` be `a`. -/
theorem Linked.unlink {xs ys : List P} {a p b : P}
    (h : Linked next prev (xs ++ a :: p :: b :: ys)) (hnd : (xs ++ a :: p :: b :: ys).Nodup)
    (hna : next' a = some b) (hn : ∀ x, x ≠ a → next' x = next x)
    (hpb : prev' b = some a) (hp : ∀ y, y ≠ b → prev' y = prev y) :
    Linked next' prev' (xs ++ a :: b :: ys) := by
  obtain ⟨hl, ⟨hap, hpa⟩, hr⟩ := linked_append_cons_cons.1 h
  obtain ⟨⟨hpn, hbp⟩, hr⟩ := List.isChain_cons_cons.1 hr
  simp only [List.nodup_append, List.nodup_cons, List.mem_cons] at hnd
  refine linked_append_cons_cons.2 ⟨?_, ⟨hna, hpb⟩, ?_⟩
  · refine hl.congr fun x hx y hy hxy hyx => ⟨hn x ?_, hp y ?_⟩
    · rintro rfl
      obtain rfl : p = y := Option.some.inj (hap.symm.trans hxy)
      grind
    · grind
  · refine Linked.congr hr fun x hx y hy hxy hyx => ⟨hn x ?_, hp y ?_⟩
    · grind
    · rintro rfl
      obtain rfl : p = x := Option.some.inj (hbp.symm.trans hyx)
      grind

/-- **Linking.**  `p`, not in the list, is put after its first pointer `a`. -/
theorem Linked.link {ys : List P} {a p b : P}
    (h : Linked next prev (a :: b :: ys)) (hnd : (a :: b :: ys).Nodup) (hpl : p ∉ a :: b :: ys)
    (hna : next' a = some p) (hnp : next' p = some b)
    (hn : ∀ x, x ≠ a → x ≠ p → next' x = next x)
    (hpp : prev' p = some a) (hpb : prev' b = some p)
    (hp : ∀ y, y ≠ p → y ≠ b → prev' y = prev y) :
    Linked next' prev' (a :: p :: b :: ys) := by
  obtain ⟨⟨hab, hba⟩, hr⟩ := List.isChain_cons_cons.1 h
  simp only [List.nodup_cons, List.mem_cons] at hnd hpl
  refine List.isChain_cons_cons.2 ⟨⟨hna, hpp⟩, List.isChain_cons_cons.2 ⟨⟨hnp, hpb⟩, ?_⟩⟩
  refine Linked.congr hr fun x hx y hy hxy hyx => ⟨hn x ?_ ?_, hp y ?_ ?_⟩
  · grind
  · grind
  · grind
  · rintro rfl
    obtain rfl : a = x := Option.some.inj (hba.symm.trans hyx)
    grind

end Lib
end QuicNs3
