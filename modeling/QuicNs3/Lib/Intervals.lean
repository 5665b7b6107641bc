/-
# Intervals one behind the other

A list of intervals, each given by its two ends, in the order in which they lie and
without overlap.  Replacing one interval by parts of itself keeps the list so
(`Consecutive.replace`), and the first and the last interval bound the others.

Intervals of a linear order that do not even touch (`Separated`) are determined by the points in
them (`Separated.ext`), so that a list of them is a set of points in the only way to write it
down.
-/

import Mathlib.Order.Defs.LinearOrder
import Mathlib.Order.Basic
import Mathlib.Order.Bounds.Basic

namespace QuicNs3
namespace Lib

/-- Intervals that lie one behind the other. -/
structure Consecutive {α : Type*} [Preorder α] (l : List (α × α)) : Prop where
  sorted : l.Pairwise fun g g' => g.2 ≤ g'.1
  le : ∀ g ∈ l, g.1 ≤ g.2

namespace Consecutive

variable {α : Type*} [Preorder α] {l before mid after : List (α × α)} {g x : α × α}

theorem nil : Consecutive ([] : List (α × α)) :=
  ⟨List.Pairwise.nil, fun _ h => absurd h List.not_mem_nil⟩

theorem singleton (h : g.1 ≤ g.2) : Consecutive [g] :=
  ⟨List.pairwise_singleton _ _, fun _ hx => (List.mem_singleton.1 hx).symm ▸ h⟩

theorem pair {a b c d : α} (h₁ : a ≤ b) (h₂ : b ≤ c) (h₃ : c ≤ d) :
    Consecutive [(a, b), (c, d)] := by
  refine ⟨List.pairwise_pair.2 h₂, fun x hx => ?_⟩
  rcases List.mem_cons.1 hx with rfl | hx
  · exact h₁
  · obtain rfl := List.mem_singleton.1 hx
    exact h₃

/-- An interval is replaced by parts of it. -/
theorem replace (h : Consecutive (before ++ g :: after)) (hm : Consecutive mid)
    (hin : ∀ m ∈ mid, g.1 ≤ m.1 ∧ m.2 ≤ g.2) : Consecutive (before ++ mid ++ after) := by
  obtain ⟨hsorted, hle⟩ := h
  obtain ⟨hbefore, hrest, hacross⟩ := List.pairwise_append.1 hsorted
  obtain ⟨hg, hafter⟩ := List.pairwise_cons.1 hrest
  refine ⟨?_, fun x hx => ?_⟩
  · rw [List.append_assoc]
    refine List.pairwise_append.2 ⟨hbefore, List.pairwise_append.2 ⟨hm.sorted, hafter, ?_⟩, ?_⟩
    · exact fun m hmem a ha => (hin m hmem).2.trans (hg a ha)
    · intro b hb m hmem
      rcases List.mem_append.1 hmem with hmem | ha
      · exact (hacross b hb g (List.mem_cons_self ..)).trans (hin m hmem).1
      · exact hacross b hb m (List.mem_cons_of_mem _ ha)
  · rcases List.mem_append.1 hx with hx | hx
    · rcases List.mem_append.1 hx with hx | hx
      · exact hle x (List.mem_append_left _ hx)
      · exact hm.le x hx
    · exact hle x (List.mem_append_right _ (List.mem_cons_of_mem _ hx))

/-- The first interval begins first. -/
theorem head_le (h : Consecutive (g :: l)) (hx : x ∈ g :: l) : g.1 ≤ x.1 := by
  rcases List.mem_cons.1 hx with rfl | hx
  · exact le_rfl
  · exact (h.le g (List.mem_cons_self ..)).trans ((List.pairwise_cons.1 h.sorted).1 x hx)

end Consecutive

/-! ## Points where an ordered list is cut -/

/-- Where a condition goes down along an ordered list, it holds of nothing behind the first
element of which it does not hold. -/
theorem not_of_mem_dropWhile {β : Type*} {r : β → β → Prop} {p : β → Bool} {x : β}
    (hp : ∀ a b, r a b → p b = true → p a = true) :
    ∀ {l : List β}, l.Pairwise r → x ∈ l.dropWhile p → p x = false
  | [], _, hx => absurd hx List.not_mem_nil
  | a :: l, hl, hx => by
    obtain ⟨ha, hl⟩ := List.pairwise_cons.1 hl
    cases hpa : p a with
    | true =>
      rw [List.dropWhile_cons_of_pos hpa] at hx
      exact not_of_mem_dropWhile hp hl hx
    | false =>
      rw [List.dropWhile_cons_of_neg (by rw [hpa]; exact Bool.false_ne_true)] at hx
      rcases List.mem_cons.1 hx with rfl | hx
      · exact hpa
      · by_contra hpx
        exact absurd (hp a x (ha x hx) (by simpa using hpx)) (by rw [hpa]; exact Bool.false_ne_true)

/-! ## The points in intervals -/

section Points

variable {α : Type*} [LinearOrder α] {l l' before mid after : List (α × α)} {g x : α × α} {o : α}

/-- A point in one of the intervals, each without its upper end. -/
def Covered (l : List (α × α)) (o : α) : Prop := ∃ g ∈ l, g.1 ≤ o ∧ o < g.2

@[simp] theorem not_covered_nil : ¬ Covered [] o := by
  rintro ⟨g, hg, -⟩
  exact List.not_mem_nil hg

@[simp] theorem covered_cons : Covered (g :: l) o ↔ g.1 ≤ o ∧ o < g.2 ∨ Covered l o := by
  unfold Covered
  simp only [List.mem_cons, or_and_right, exists_or, exists_eq_left]

@[simp] theorem covered_append : Covered (l ++ l') o ↔ Covered l o ∨ Covered l' o := by
  unfold Covered
  simp only [List.mem_append, or_and_right, exists_or]

/-- The interval between two points, if there is something between them. -/
def stretch (a b : α) : List (α × α) := if a < b then [(a, b)] else []

theorem mem_stretch {a b : α} : g ∈ stretch a b ↔ a < b ∧ g = (a, b) := by
  unfold stretch
  split
  case isTrue h => rw [List.mem_singleton, and_iff_right h]
  case isFalse h => simp only [List.not_mem_nil, h, false_and]

theorem covered_stretch {a b : α} : Covered (stretch a b) o ↔ a ≤ o ∧ o < b := by
  constructor
  · rintro ⟨g, hg, hin⟩
    obtain ⟨-, rfl⟩ := mem_stretch.1 hg
    exact hin
  · intro hin
    exact ⟨(a, b), mem_stretch.2 ⟨hin.1.trans_lt hin.2, rfl⟩, hin⟩

/-- **Intervals that do not touch.** -/
structure Separated (l : List (α × α)) : Prop where
  apart : l.Pairwise fun g g' => g.2 < g'.1
  lt : ∀ g ∈ l, g.1 < g.2

namespace Separated

theorem nil : Separated ([] : List (α × α)) :=
  ⟨List.Pairwise.nil, fun _ h => absurd h List.not_mem_nil⟩

theorem singleton (h : g.1 < g.2) : Separated [g] :=
  ⟨List.pairwise_singleton _ _, fun _ hx => (List.mem_singleton.1 hx).symm ▸ h⟩

theorem pair {a b c d : α} (h₁ : a < b) (h₂ : b < c) (h₃ : c < d) :
    Separated [(a, b), (c, d)] := by
  refine ⟨List.pairwise_pair.2 h₂, fun x hx => ?_⟩
  rcases List.mem_cons.1 hx with rfl | hx
  · exact h₁
  · obtain rfl := List.mem_singleton.1 hx
    exact h₃

theorem stretch (a b : α) : Separated (stretch a b) := by
  unfold Lib.stretch
  split
  case isTrue h => exact singleton h
  case isFalse => exact nil

theorem tail (h : Separated (g :: l)) : Separated l :=
  ⟨(List.pairwise_cons.1 h.apart).2, fun x hx => h.lt x (List.mem_cons_of_mem _ hx)⟩

theorem cons (hg : g.1 < g.2) (hl : Separated l) (hlt : ∀ x ∈ l, g.2 < x.1) :
    Separated (g :: l) :=
  ⟨List.pairwise_cons.2 ⟨hlt, hl.apart⟩, List.forall_mem_cons.2 ⟨hg, hl.lt⟩⟩

theorem append (h : Separated l) (h' : Separated l') (hlt : ∀ x ∈ l, ∀ y ∈ l', x.2 < y.1) :
    Separated (l ++ l') :=
  ⟨List.pairwise_append.2 ⟨h.apart, h'.apart, hlt⟩, List.forall_mem_append.2 ⟨h.lt, h'.lt⟩⟩

theorem left (h : Separated (l ++ l')) : Separated l :=
  ⟨(List.pairwise_append.1 h.apart).1, fun x hx => h.lt x (List.mem_append_left _ hx)⟩

theorem right (h : Separated (l ++ l')) : Separated l' :=
  ⟨(List.pairwise_append.1 h.apart).2.1, fun x hx => h.lt x (List.mem_append_right _ hx)⟩

theorem lt_across (h : Separated (l ++ l')) {x y : α × α} (hx : x ∈ l) (hy : y ∈ l') :
    x.2 < y.1 :=
  (List.pairwise_append.1 h.apart).2.2 x hx y hy

/-- The intervals behind one begin behind its end. -/
theorem lt_of_mem (h : Separated (before ++ g :: after)) (hx : x ∈ after) : g.2 < x.1 :=
  (List.pairwise_cons.1 h.right.apart).1 x hx

/-- The intervals before one end before its beginning. -/
theorem lt_of_mem_before (h : Separated (before ++ g :: after)) (hx : x ∈ before) :
    x.2 < g.1 :=
  h.lt_across hx (List.mem_cons_self ..)

/-- An interval is replaced by others that keep within it. -/
theorem replace (h : Separated (before ++ g :: after)) (hm : Separated mid)
    (hin : ∀ m ∈ mid, g.1 ≤ m.1 ∧ m.2 ≤ g.2) : Separated (before ++ (mid ++ after)) := by
  refine h.left.append (hm.append h.right.tail fun m hmem x hx => ?_) fun x hx m hmem => ?_
  · exact (hin m hmem).2.trans_lt (h.lt_of_mem hx)
  · rcases List.mem_append.1 hmem with hmem | hmem
    · exact (h.lt_of_mem_before hx).trans_le (hin m hmem).1
    · exact h.lt_across hx (List.mem_cons_of_mem _ hmem)

/-- An interval loses some of its points. -/
theorem covered_replace {P : α → Prop} (h : Separated (before ++ g :: after))
    (hP : ∀ o, P o → g.1 ≤ o ∧ o < g.2)
    (hmid : ∀ o, Covered mid o ↔ (g.1 ≤ o ∧ o < g.2) ∧ ¬ P o) :
    Covered (before ++ (mid ++ after)) o ↔ Covered (before ++ g :: after) o ∧ ¬ P o := by
  -- The other intervals have nothing in common with this one.
  have hbefore : Covered before o → ¬ P o := by
    rintro ⟨x, hx, hin⟩ ho
    exact absurd (hin.2.trans (h.lt_of_mem_before hx)) (not_lt.2 (hP o ho).1)
  have hafter : Covered after o → ¬ P o := by
    rintro ⟨x, hx, hin⟩ ho
    exact absurd ((hP o ho).2.trans (h.lt_of_mem hx)) (not_lt.2 hin.1)
  rw [covered_append, covered_append, covered_append, covered_cons, hmid o]
  constructor
  · rintro (hc | hc | hc)
    · exact ⟨.inl hc, hbefore hc⟩
    · exact ⟨.inr (.inl hc.1), hc.2⟩
    · exact ⟨.inr (.inr hc), hafter hc⟩
  · rintro ⟨hc | hc | hc, ho⟩
    · exact .inl hc
    · exact .inr (.inl ⟨hc, ho⟩)
    · exact .inr (.inr hc)

/-- The first interval begins first. -/
theorem head_le (h : Separated (g :: l)) (hx : x ∈ g :: l) : g.1 ≤ x.1 := by
  rcases List.mem_cons.1 hx with rfl | hx
  · exact le_rfl
  · exact ((h.lt g (List.mem_cons_self ..)).trans ((List.pairwise_cons.1 h.apart).1 x hx)).le

/-- The last interval ends last. -/
theorem le_last (h : Separated (l ++ [g])) (hx : x ∈ l ++ [g]) : x.2 ≤ g.2 := by
  rcases List.mem_append.1 hx with hx | hx
  · exact ((h.lt_of_mem_before hx).trans (h.right.lt g (List.mem_singleton_self g))).le
  · rw [List.mem_singleton.1 hx]

/-- Points behind the first interval begin behind its end. -/
theorem lt_of_covered (h : Separated (g :: l)) (ho : Covered l o) : g.2 < o := by
  obtain ⟨x, hx, hin⟩ := ho
  exact ((List.pairwise_cons.1 h.apart).1 x hx).trans_le hin.1

/-- The first interval begins with the first point. -/
theorem head_le_of_covered (h : Separated (g :: l)) (ho : Covered (g :: l) o) : g.1 ≤ o := by
  rcases covered_cons.1 ho with hin | hin
  · exact hin.1
  · exact (h.lt g (List.mem_cons_self ..)).le.trans (h.lt_of_covered hin).le

/-- The first interval ends with the first point behind it that is missing. -/
theorem not_covered_end (h : Separated (g :: l)) : ¬ Covered (g :: l) g.2 := by
  intro hc
  rcases covered_cons.1 hc with hin | hin
  · exact lt_irrefl _ hin.2
  · exact lt_irrefl _ (h.lt_of_covered hin)

/-- **Intervals that do not touch are determined by their points.** -/
theorem ext (h : Separated l) (h' : Separated l') (heq : ∀ o, Covered l o ↔ Covered l' o) :
    l = l' := by
  induction l generalizing l' with
  | nil =>
    cases l' with
    | nil => rfl
    | cons g' l' =>
      have hg' := h'.lt g' (List.mem_cons_self ..)
      exact absurd ((heq g'.1).2 (covered_cons.2 (.inl ⟨le_rfl, hg'⟩))) not_covered_nil
  | cons g l ih =>
    have hg := h.lt g (List.mem_cons_self ..)
    cases l' with
    | nil => exact absurd ((heq g.1).1 (covered_cons.2 (.inl ⟨le_rfl, hg⟩))) not_covered_nil
    | cons g' l' =>
      have hg' := h'.lt g' (List.mem_cons_self ..)
      have hmin : g.1 = g'.1 := le_antisymm
        (h.head_le_of_covered ((heq g'.1).2 (covered_cons.2 (.inl ⟨le_rfl, hg'⟩))))
        (h'.head_le_of_covered ((heq g.1).1 (covered_cons.2 (.inl ⟨le_rfl, hg⟩))))
      -- The end of the shorter of the two would be in the other one.
      have hmax : g.2 = g'.2 := by
        rcases lt_trichotomy g.2 g'.2 with hlt | heq' | hlt
        · exact absurd ((heq g.2).2 (covered_cons.2 (.inl ⟨hmin ▸ hg.le, hlt⟩))) h.not_covered_end
        · exact heq'
        · exact absurd ((heq g'.2).1 (covered_cons.2 (.inl ⟨hmin ▸ hg'.le, hlt⟩)))
            h'.not_covered_end
      obtain rfl : g = g' := Prod.ext hmin hmax
      refine congrArg (g :: ·) (ih h.tail h'.tail fun o => ?_)
      constructor
      · intro ho
        rcases covered_cons.1 ((heq o).1 (covered_cons.2 (.inr ho))) with hin | hin
        · exact absurd hin.2 (not_lt.2 (h.lt_of_covered ho).le)
        · exact hin
      · intro ho
        rcases covered_cons.1 ((heq o).2 (covered_cons.2 (.inr ho))) with hin | hin
        · exact absurd hin.2 (not_lt.2 (h'.lt_of_covered ho).le)
        · exact hin

end Separated

/-- The points of a set up to the first gap in it. -/
def firstBlock (S : Set α) : Set α := {o | o ∈ S ∧ ∀ k ∈ S, ∀ m, k ≤ m → m ≤ o → m ∈ S}

/-- **The intervals of a set.** -/
structure Represents (l : List (α × α)) (S : Set α) : Prop where
  separated : Separated l
  mem_iff : ∀ o, Covered l o ↔ o ∈ S

namespace Represents

variable {S T : Set α} {a b : α}

/-- A set has one list of intervals. -/
theorem unique (h : Represents l S) (h' : Represents l' S) : l = l' :=
  h.separated.ext h'.separated fun o => (h.mem_iff o).trans (h'.mem_iff o).symm

theorem empty : Represents ([] : List (α × α)) ∅ :=
  ⟨Separated.nil, fun _ => iff_of_false not_covered_nil (Set.notMem_empty _)⟩

theorem nil_iff : Represents ([] : List (α × α)) S ↔ S = ∅ := by
  constructor
  · intro h
    exact Set.eq_empty_iff_forall_notMem.2 fun o ho => not_covered_nil ((h.mem_iff o).2 ho)
  · rintro rfl
    exact empty

/-- Points that are there already. -/
theorem union_of_subset (h : Represents l S) (hT : T ⊆ S) : Represents l (S ∪ T) :=
  (Set.union_eq_self_of_subset_right hT).symm ▸ h

/-- The first point is where the first interval begins. -/
theorem isLeast (h : Represents (g :: l) S) : IsLeast S g.1 := by
  have hg := h.separated.lt g (List.mem_cons_self ..)
  refine ⟨(h.mem_iff g.1).1 (covered_cons.2 (.inl ⟨le_rfl, hg⟩)), fun o ho => ?_⟩
  exact h.separated.head_le_of_covered ((h.mem_iff o).2 ho)

theorem head_iff (h : Represents l S) : l.head?.map (·.1) = some a ↔ IsLeast S a := by
  cases l with
  | nil =>
    obtain rfl := nil_iff.1 h
    exact iff_of_false (Option.some_ne_none a).symm fun ha => ha.1
  | cons g l =>
    exact ⟨fun he => Option.some.inj he ▸ h.isLeast, fun ha => congrArg some (h.isLeast.unique ha)⟩

/-- The first interval reaches up to the first gap. -/
theorem firstBlock_eq (h : Represents (g :: l) S) : firstBlock S = {o | g.1 ≤ o ∧ o < g.2} := by
  ext o
  constructor
  · rintro ⟨ho, hblock⟩
    have hge := h.isLeast.2 ho
    refine ⟨hge, not_le.1 fun hle => h.separated.not_covered_end ?_⟩
    have hg := h.separated.lt g (List.mem_cons_self ..)
    exact (h.mem_iff _).2 (hblock g.1 h.isLeast.1 g.2 hg.le hle)
  · rintro ⟨hge, hlt⟩
    have hin : ∀ m, g.1 ≤ m → m ≤ o → m ∈ S := fun m hm hmo =>
      (h.mem_iff m).1 (covered_cons.2 (.inl ⟨hm, hmo.trans_lt hlt⟩))
    exact ⟨hin o hge le_rfl, fun k hk m hkm hmo => hin m ((h.isLeast.2 hk).trans hkm) hmo⟩

theorem tail (h : Represents (g :: l) S) : Represents l (S \ firstBlock S) := by
  refine ⟨h.separated.tail, fun o => ?_⟩
  rw [h.firstBlock_eq, Set.mem_sdiff, ← h.mem_iff, covered_cons]
  constructor
  · intro ho
    exact ⟨.inr ho, fun hin => absurd hin.2 (not_lt.2 (h.separated.lt_of_covered ho).le)⟩
  · rintro ⟨hin | ho, hno⟩
    · exact absurd hin hno
    · exact ho

/-- Some of the intervals become one that has more points. -/
theorem extend (mid : List (α × α)) (h : Represents (before ++ (mid ++ after)) S) (hab : a < b)
    (hbefore : ∀ x ∈ before, x.2 < a) (hafter : ∀ y ∈ after, b < y.1)
    (hcov : ∀ o, a ≤ o ∧ o < b ↔ Covered mid o ∨ o ∈ T) :
    Represents (before ++ (a, b) :: after) (S ∪ T) := by
  constructor
  · refine h.separated.left.append (h.separated.right.right.cons hab hafter) fun x hx y hy => ?_
    rcases List.mem_cons.1 hy with rfl | hy
    · exact hbefore x hx
    · exact h.separated.lt_across hx (List.mem_append_right _ hy)
  · intro o
    rw [Set.mem_union, ← h.mem_iff, covered_append, covered_append, covered_append, covered_cons]
    have := hcov o
    tauto

end Represents

end Points

end Lib
end QuicNs3
