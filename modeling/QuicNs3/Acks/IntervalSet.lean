/-
# Sets of intervals

`net/base/interval.h` and `net/base/interval_set.h`.  An `IntervalSet` keeps intervals `[min, max)`
in the order of their lower bounds, a longer one before a shorter one that begins with it.  `Add`
inserts an interval and merges what now overlaps or touches (`Compact`), from the interval before
the new one to the last one that the new one reaches.  `Difference` with an interval walks along
the set and takes the interval out of those that it meets.

A set whose intervals do not touch keeps that, and its points are the union with the new interval
(`add_spec`), or the difference (`difference_spec`); the lookup finds them (`contains_iff`).
-/

import QuicNs3.Lib.Intervals
import Mathlib.Data.List.Basic
import Mathlib.Data.List.TakeWhile
import Mathlib.Order.Interval.Set.Defs
import Mathlib.Order.MinMax
import Mathlib.Tactic.Common

namespace QuicNs3
namespace Acks

open Lib

variable {α : Type*} [LinearOrder α]

/-- `Interval`: the inclusive lower and the exclusive upper bound. -/
abbrev Interval (α : Type*) := α × α

namespace Interval

/-- `Empty`. -/
def empty (i : Interval α) : Bool := decide (i.2 ≤ i.1)

/-- `Contains`. -/
def contains (i : Interval α) (t : α) : Bool := decide (i.1 ≤ t) && decide (t < i.2)

/-- `Intersects`. -/
def intersects (i j : Interval α) : Bool :=
  !i.empty && !j.empty && decide (i.1 < j.2) && decide (j.1 < i.2)

/-- `Difference`: what is left of the interval below and above the other one, each of which may
be empty. -/
def difference (i j : Interval α) : Option (Interval α) × Option (Interval α) :=
  if i.empty then (none, none)
  else if j.empty then (some i, none)
  else if i.1 < j.2 ∧ j.1 ≤ i.1 ∧ j.2 < i.2 then (none, some (j.2, i.2))
  else if j.1 < i.2 ∧ i.2 ≤ j.2 ∧ i.1 < j.1 then (some (i.1, j.1), none)
  else if i.1 < j.1 ∧ j.2 < i.2 then (some (i.1, j.1), some (j.2, i.2))
  else if j.1 ≤ i.1 ∧ i.2 ≤ j.2 then (none, none)
  else (some i, none)

/-- `IntervalComparator`: by the lower bound, then the longer one first. -/
def before (a b : Interval α) : Bool := decide (a.1 < b.1 ∨ a.1 = b.1 ∧ b.2 < a.2)

end Interval

/-- `IntervalSet`: its intervals in the order of the comparator. -/
abbrev IntervalSet (α : Type*) := List (Interval α)

namespace IntervalSet

/-- `Compact`, from `prev` over the intervals up to the end of the range.  The merged interval
begins where `prev` did, so that it is inserted in its place. -/
def compact (prev : Interval α) : IntervalSet α → IntervalSet α
  | [] => [prev]
  | it :: rest =>
    if it.1 ≤ prev.2 then compact (prev.1, max prev.2 it.2) rest else prev :: compact it rest

/-- The intervals up to `upper_bound`. -/
def upTo (i : Interval α) (s : IntervalSet α) : IntervalSet α :=
  s.takeWhile fun y => !Interval.before i y

/-- The intervals from `upper_bound` on. -/
def above (i : Interval α) (s : IntervalSet α) : IntervalSet α :=
  s.dropWhile fun y => !Interval.before i y

/-- The rest of `Add`, with the interval inserted between `lower` and `upper`. -/
def merge (lower : IntervalSet α) (i : Interval α) (upper : IntervalSet α) : IntervalSet α :=
  -- `Compact` begins with the interval to the left, if there is one.
  match lower.getLast? with
  | some p => lower.dropLast ++ (compact p (i :: upTo (i.2, i.2) upper) ++ above (i.2, i.2) upper)
  | none => compact i (upTo (i.2, i.2) upper) ++ above (i.2, i.2) upper

/-- `Add`. -/
def add (s : IntervalSet α) (i : Interval α) : IntervalSet α :=
  let upper := s.dropWhile (Interval.before · i)
  if i.empty then s
  -- This interval already exists.
  else if upper.head?.any fun y => !Interval.before i y then s
  else merge (s.takeWhile (Interval.before · i)) i upper

/-- `Contains`. -/
def contains (s : IntervalSet α) (v : α) : Bool := (upTo (v, v) s).getLast?.any (·.contains v)

/-- Whether `SpanningInterval` meets an interval. -/
def spanIntersects (s : IntervalSet α) (i : Interval α) : Bool :=
  match s.head?, s.getLast? with
  | some first, some last => Interval.intersects (first.1, last.2) i
  | _, _ => false

/-- `FindIntersectionCandidate`: the intervals before the candidate, and those from it on. -/
def findIntersectionCandidate (s : IntervalSet α) (i : Interval α) :
    IntervalSet α × IntervalSet α :=
  match (upTo i s).getLast? with
  | some p => ((upTo i s).dropLast, p :: above i s)
  | none => ([], s)

/-- The loop of `Difference` with one interval: the result from `mine` on.  Behind the upper part
of an interval, and before an interval that begins above it, there is nothing left to take away. -/
def differenceLoop (t : Interval α) : IntervalSet α → IntervalSet α
  | [] => []
  | m :: mine =>
    if m.intersects t then
      (m.difference t).1.toList ++
        match (m.difference t).2 with
        | some hi => hi :: mine
        | none => differenceLoop t mine
    else if m.2 ≤ t.1 then m :: differenceLoop t mine
    else m :: mine

/-- `Difference` with an interval, which makes a set of it. -/
def difference (s : IntervalSet α) (i : Interval α) : IntervalSet α :=
  if s.spanIntersects i then
    (s.findIntersectionCandidate i).1 ++ differenceLoop i (s.findIntersectionCandidate i).2
  else s

end IntervalSet

/-! ## Intervals -/

section Intervals

variable {i j : Interval α} {o : α}

theorem Interval.empty_iff : i.empty = true ↔ i.2 ≤ i.1 := decide_eq_true_iff

theorem Interval.empty_eq_false_iff : i.empty = false ↔ i.1 < i.2 :=
  decide_eq_false_iff_not.trans not_le

theorem Interval.contains_iff : i.contains o = true ↔ i.1 ≤ o ∧ o < i.2 := by
  simp only [Interval.contains, Bool.and_eq_true, decide_eq_true_eq]

theorem Interval.before_iff : i.before j = true ↔ i.1 < j.1 ∨ i.1 = j.1 ∧ j.2 < i.2 :=
  decide_eq_true_iff

theorem Interval.intersects_iff :
    i.intersects j = true ↔ i.1 < i.2 ∧ j.1 < j.2 ∧ i.1 < j.2 ∧ j.1 < i.2 := by
  simp only [Interval.intersects, Bool.and_eq_true, Bool.not_eq_true', empty_eq_false_iff,
    decide_eq_true_eq, and_assoc]

theorem Interval.le_of_before (h : i.before j = true) : i.1 ≤ j.1 := by
  rcases before_iff.1 h with hlt | ⟨heq, -⟩
  · exact hlt.le
  · exact heq.le

theorem Interval.le_of_not_before (h : i.before j = false) : j.1 ≤ i.1 :=
  not_lt.1 fun hlt => Bool.false_ne_true (h.symm.trans (before_iff.2 (.inl hlt)))

/-- The comparator tells different intervals apart. -/
theorem Interval.eq_of_not_before (h : i.before j = false) (h' : j.before i = false) : i = j := by
  have hmin := le_antisymm (le_of_not_before h') (le_of_not_before h)
  refine Prod.ext hmin (le_antisymm ?_ ?_) <;> refine not_lt.1 fun hlt => ?_
  · exact Bool.false_ne_true (h.symm.trans (before_iff.2 (.inr ⟨hmin, hlt⟩)))
  · exact Bool.false_ne_true (h'.symm.trans (before_iff.2 (.inr ⟨hmin.symm, hlt⟩)))

/-- What is left of an interval is what lies below and what lies above the other one. -/
theorem Interval.difference_of_intersects (h : i.intersects j = true) :
    (i.difference j).1.toList = stretch i.1 j.1 ∧
      (i.difference j).2.toList = stretch j.2 i.2 := by
  obtain ⟨hi, hj, hij, hji⟩ := intersects_iff.1 h
  unfold Interval.difference stretch
  rw [empty_eq_false_iff.2 hi, empty_eq_false_iff.2 hj]
  rcases lt_or_ge i.1 j.1 with hlo | hlo <;> rcases lt_or_ge j.2 i.2 with hhi | hhi
  · simp [hlo, hhi, hlo.not_ge, hhi.not_ge]
  · simp [hlo, hhi, hlo.not_ge, hhi.not_gt, hji]
  · simp [hlo, hhi, hlo.not_gt, hij]
  · simp [hlo, hhi, hlo.not_gt, hhi.not_gt]

end Intervals

namespace IntervalSet

variable {s lower upper mine : IntervalSet α} {i p g : Interval α} {o v : α}

/-! ## Adding -/

/-- **What `Compact` makes of intervals in the order of their lower bounds.** -/
structure Compacted (l r : IntervalSet α) (prev : Interval α) : Prop where
  separated : Separated r
  covered : ∀ o, Covered r o ↔ Covered l o
  ge : ∀ g ∈ r, prev.1 ≤ g.1
  ends : ∀ g ∈ r, ∃ x ∈ l, g.2 = x.2

theorem compact_spec : ∀ (l : IntervalSet α) (prev : Interval α),
    (prev :: l).Pairwise (fun x y => x.1 ≤ y.1) → (∀ x ∈ prev :: l, x.1 < x.2) →
      Compacted (prev :: l) (compact prev l) prev
  | [], prev, _, hne => by
    have hprev := hne prev (List.mem_cons_self ..)
    refine ⟨Separated.singleton hprev, fun _ => Iff.rfl, fun g hg => ?_, fun g hg => ⟨g, hg, rfl⟩⟩
    rw [List.mem_singleton.1 hg]
  | it :: rest, prev, hs, hne => by
    obtain ⟨hprev, hs'⟩ := List.pairwise_cons.1 hs
    obtain ⟨hit, hrest⟩ := List.pairwise_cons.1 hs'
    obtain ⟨hne₁, hne₂⟩ := List.forall_mem_cons.1 hne
    obtain ⟨hne₃, hne₄⟩ := List.forall_mem_cons.1 hne₂
    have hle := hprev it (List.mem_cons_self ..)
    unfold compact
    split
    case isTrue htouch =>
      -- The merged interval covers what both did, since they touch.
      have ih := compact_spec rest (prev.1, max prev.2 it.2)
        (List.pairwise_cons.2 ⟨fun x hx => hprev x (List.mem_cons_of_mem _ hx), hrest⟩)
        (List.forall_mem_cons.2 ⟨hne₁.trans_le (le_max_left _ _), hne₄⟩)
      refine ⟨ih.separated, fun o => (ih.covered o).trans ?_, ih.ge, fun g hg => ?_⟩
      · rw [covered_cons, covered_cons, covered_cons, ← or_assoc]
        refine or_congr_left ⟨fun ⟨h₁, h₂⟩ => ?_, ?_⟩
        · rcases lt_or_ge o prev.2 with hlt | hge
          · exact .inl ⟨h₁, hlt⟩
          · exact .inr ⟨htouch.trans hge, (lt_max_iff.1 h₂).resolve_left hge.not_gt⟩
        · rintro (⟨h₁, h₂⟩ | ⟨h₁, h₂⟩)
          · exact ⟨h₁, h₂.trans_le (le_max_left _ _)⟩
          · exact ⟨hle.trans h₁, h₂.trans_le (le_max_right _ _)⟩
      · obtain ⟨x, hx, he⟩ := ih.ends g hg
        rcases List.mem_cons.1 hx with rfl | hx
        · rcases max_choice prev.2 it.2 with hmax | hmax
          · exact ⟨prev, List.mem_cons_self .., he.trans hmax⟩
          · exact ⟨it, List.mem_cons_of_mem _ (List.mem_cons_self ..), he.trans hmax⟩
        · exact ⟨x, List.mem_cons_of_mem _ (List.mem_cons_of_mem _ hx), he⟩
    case isFalse hgap =>
      have ih := compact_spec rest it hs' hne₂
      refine ⟨ih.separated.cons hne₁ fun g hg => (not_le.1 hgap).trans_le (ih.ge g hg),
        fun o => ?_, fun g hg => ?_, fun g hg => ?_⟩
      · rw [covered_cons, covered_cons, ih.covered]
      · rcases List.mem_cons.1 hg with rfl | hg
        · exact le_rfl
        · exact hle.trans (ih.ge g hg)
      · rcases List.mem_cons.1 hg with rfl | hg
        · exact ⟨g, List.mem_cons_self .., rfl⟩
        · obtain ⟨x, hx, he⟩ := ih.ends g hg
          exact ⟨x, List.mem_cons_of_mem _ hx, he⟩

/-- Compacted intervals take the place of what they came from. -/
theorem Compacted.separated_between {pre l r post : IntervalSet α} (h : Compacted l r p)
    (hpre : Separated (pre ++ post)) (hlt : ∀ x ∈ pre, x.2 < p.1)
    (hgt : ∀ x ∈ l, ∀ y ∈ post, x.2 < y.1) : Separated (pre ++ (r ++ post)) := by
  refine hpre.left.append (h.separated.append hpre.right fun g hg y hy => ?_) fun x hx g hg => ?_
  · obtain ⟨x, hx, he⟩ := h.ends g hg
    exact he ▸ hgt x hx y hy
  · rcases List.mem_append.1 hg with hg | hg
    · exact (hlt x hx).trans_le (h.ge g hg)
    · exact hpre.lt_across hx hg

theorem upTo_append_above (i : Interval α) (s : IntervalSet α) : upTo i s ++ above i s = s :=
  List.takeWhile_append_dropWhile

theorem le_of_mem_upTo (h : g ∈ upTo i s) : g.1 ≤ i.1 := by
  have hb := List.mem_takeWhile_imp h
  rw [Bool.not_eq_true'] at hb
  exact Interval.le_of_not_before hb

/-- The lower bounds of intervals that do not touch. -/
theorem strict_of_separated (hs : Separated s) : s.Pairwise fun x y => x.1 < y.1 :=
  hs.apart.imp_of_mem fun hx _ hxy => (hs.lt _ hx).trans hxy

theorem before_of_mem_above (hs : Separated s) (h : g ∈ above i s) : i.before g = true := by
  have hmono : ∀ a b : Interval α, a.1 < b.1 → (!i.before b) = true → (!i.before a) = true := by
    intro a b hab hb
    rw [Bool.not_eq_true', ← Bool.not_eq_true, Interval.before_iff] at hb ⊢
    rintro (hlt | ⟨heq, -⟩)
    · exact hb (.inl (hlt.trans hab))
    · exact hb (.inl (heq.trans_lt hab))
  simpa using not_of_mem_dropWhile hmono (strict_of_separated hs) h

/-- Behind the first interval that begins above a point all do. -/
theorem lt_of_mem_above (hs : Separated s) (h : g ∈ above (v, v) s) : v < g.1 := by
  have hg := hs.lt g (List.dropWhile_sublist _ |>.mem h)
  rcases Interval.before_iff.1 (before_of_mem_above hs h) with hlt | ⟨heq, hlt⟩
  · exact hlt
  · exact absurd (heq.trans_lt hg) (not_lt.2 hlt.le)

/-- `Compact` begins with the last interval of `lower`, or with the new one if there is none. -/
theorem merge_eq (hs : Separated (lower ++ upper)) (i : Interval α) :
    ∃ pre near first rest, lower = pre ++ near ∧
      near ++ i :: upTo (i.2, i.2) upper = first :: rest ∧ (∀ x ∈ pre, x.2 < first.1) ∧
      merge lower i upper = pre ++ (compact first rest ++ above (i.2, i.2) upper) := by
  unfold merge
  rcases List.eq_nil_or_concat' lower with rfl | ⟨pre, p, rfl⟩
  · exact ⟨[], [], i, _, rfl, rfl, fun x hx => absurd hx List.not_mem_nil, rfl⟩
  · refine ⟨pre, [p], p, _, rfl, rfl, fun x hx => hs.left.lt_of_mem_before hx, ?_⟩
    rw [List.getLast?_append_of_ne_nil _ (List.cons_ne_nil _ _), List.getLast?_singleton,
      List.dropLast_concat]
    rfl

/-- The inserted interval and what it touches become one. -/
theorem merge_spec (hs : Separated (lower ++ upper)) (hi : i.1 < i.2)
    (hlow : ∀ g ∈ lower, g.1 ≤ i.1) (hup : ∀ g ∈ upper, i.1 ≤ g.1) :
    Separated (merge lower i upper) ∧
      ∀ o, Covered (merge lower i upper) o ↔ Covered (lower ++ upper) o ∨ i.1 ≤ o ∧ o < i.2 := by
  obtain ⟨pre, near, first, rest, rfl, hfirst, hpre, hmerge⟩ := merge_eq hs i
  rw [hmerge]
  have hgt : ∀ y ∈ above (i.2, i.2) upper, i.2 < y.1 := fun y hy => lt_of_mem_above hs.right hy
  have hsplit := upTo_append_above (i.2, i.2) upper
  generalize upTo (i.2, i.2) upper = next at hfirst hsplit
  generalize above (i.2, i.2) upper = far at hgt hsplit
  obtain rfl := hsplit
  have hnext := hs.right.left
  have hup' : ∀ g ∈ next, i.1 ≤ g.1 := fun g hg => hup g (List.mem_append_left _ hg)
  have hlow' : ∀ g ∈ near, g.1 ≤ i.1 := fun g hg => hlow g (List.mem_append_right _ hg)
  have hsorted : (first :: rest).Pairwise fun x y => x.1 ≤ y.1 := by
    rw [← hfirst]
    refine List.pairwise_append.2 ⟨(strict_of_separated hs.left.right).imp le_of_lt,
      List.pairwise_cons.2 ⟨hup', (strict_of_separated hnext).imp le_of_lt⟩, fun x hx => ?_⟩
    exact List.forall_mem_cons.2 ⟨hlow' x hx, fun y hy => (hlow' x hx).trans (hup' y hy)⟩
  have hne : ∀ x ∈ first :: rest, x.1 < x.2 := by
    rw [← hfirst]
    exact List.forall_mem_append.2 ⟨hs.left.right.lt, List.forall_mem_cons.2 ⟨hi, hnext.lt⟩⟩
  have hcross : ∀ x ∈ first :: rest, ∀ y ∈ far, x.2 < y.1 := by
    rw [← hfirst]
    refine List.forall_mem_append.2 ⟨fun x hx y hy => ?_,
      List.forall_mem_cons.2 ⟨hgt, fun x hx y hy => hs.right.lt_across hx hy⟩⟩
    exact hs.lt_across (List.mem_append_right _ hx) (List.mem_append_right _ hy)
  have hc := compact_spec rest first hsorted hne
  constructor
  · refine hc.separated_between (hs.left.left.append hs.right.right fun x hx y hy => ?_) hpre hcross
    exact hs.lt_across (List.mem_append_left _ hx) (List.mem_append_right _ hy)
  · intro o
    simp only [covered_append, hc.covered, ← hfirst, covered_cons]
    tauto

/-- **`Add` is the union with the interval.** -/
theorem add_spec (hs : Separated s) (i : Interval α) :
    Separated (s.add i) ∧ ∀ o, Covered (s.add i) o ↔ Covered s o ∨ i.1 ≤ o ∧ o < i.2 := by
  unfold add
  dsimp only
  split
  case isTrue he =>
    refine ⟨hs, fun o => (or_iff_left fun hin => ?_).symm⟩
    exact absurd (Interval.empty_iff.1 he) (not_le.2 (hin.1.trans_lt hin.2))
  case isFalse he =>
    have hi : i.1 < i.2 := not_le.1 fun hle => he (Interval.empty_iff.2 hle)
    have hcut := List.takeWhile_append_dropWhile (p := (Interval.before · i)) (l := s)
    have hmono : ∀ a b : Interval α, a.1 < b.1 → b.before i = true → a.before i = true := by
      intro a b hab hb
      rw [Interval.before_iff] at hb ⊢
      rcases hb with hlt | ⟨heq, -⟩
      · exact .inl (hab.trans hlt)
      · exact .inl (hab.trans_eq heq)
    have hupper : ∀ g ∈ s.dropWhile (Interval.before · i), g.before i = false := fun g hg =>
      not_of_mem_dropWhile (p := (Interval.before · i)) hmono (strict_of_separated hs) hg
    split
    case isTrue hex =>
      -- The interval that is not before the new one, and not behind it, is the new one.
      obtain ⟨y, hy, hby⟩ := (Option.any_eq_true _ _).1 hex
      have hmem := List.mem_of_mem_head? hy
      have heq : y = i := Interval.eq_of_not_before (hupper y hmem) (by simpa using hby)
      refine ⟨hs, fun o => (or_iff_left_of_imp fun hin => ⟨i, ?_, hin⟩).symm⟩
      exact heq ▸ (List.dropWhile_sublist _).mem hmem
    case isFalse =>
      have h := merge_spec (hcut.symm ▸ hs) hi
        (fun g hg => Interval.le_of_before (List.mem_takeWhile_imp (p := (Interval.before · i)) hg))
        (fun g hg => Interval.le_of_not_before (hupper g hg))
      rwa [hcut] at h

theorem add_represents {S : Set α} (h : Represents s S) (i : Interval α) :
    Represents (s.add i) (S ∪ Set.Ico i.1 i.2) := by
  obtain ⟨hsep, hcov⟩ := add_spec h.separated i
  exact ⟨hsep, fun o => by rw [hcov, h.mem_iff, Set.mem_union, Set.mem_Ico]⟩

/-! ## Looking up -/

/-- **`Contains` finds the points of the set.** -/
theorem contains_iff (hs : Separated s) : s.contains v = true ↔ Covered s v := by
  have habove : ¬ Covered (above (v, v) s) v := by
    rintro ⟨g, hg, hin⟩
    exact absurd hin.1 (not_le.2 (lt_of_mem_above hs hg))
  have hcut := upTo_append_above (v, v) s
  have hcov : Covered s v ↔ Covered (upTo (v, v) s) v := by
    conv_lhs => rw [← hcut]
    rw [covered_append, or_iff_left habove]
  have hsep : Separated (upTo (v, v) s) := (hcut.symm ▸ hs).left
  unfold contains
  rw [hcov]
  have hle : ∀ g ∈ upTo (v, v) s, g.1 ≤ v := fun g hg => le_of_mem_upTo hg
  generalize upTo (v, v) s = lower at hsep hle
  rcases List.eq_nil_or_concat' lower with rfl | ⟨lower, p, rfl⟩
  · exact iff_of_false Bool.false_ne_true not_covered_nil
  · -- The intervals before the last one end before it begins.
    have hlower : ¬ Covered lower v := by
      rintro ⟨g, hg, hin⟩
      have hp := hle p (List.mem_append_right _ (List.mem_singleton_self p))
      exact absurd (hin.2.trans (hsep.lt_of_mem_before hg)) (not_lt.2 hp)
    rw [List.getLast?_append_of_ne_nil _ (List.cons_ne_nil _ _), List.getLast?_singleton,
      Option.any_some, Interval.contains_iff, covered_append, or_iff_right hlower, covered_cons,
      or_iff_left not_covered_nil]

/-! ## Taking away -/

/-- **The loop takes the points of the interval away**, and makes none where there was none. -/
structure Subtracted (t : Interval α) (mine r : IntervalSet α) : Prop where
  separated : Separated r
  covered : ∀ o, Covered r o ↔ Covered mine o ∧ ¬ (t.1 ≤ o ∧ o < t.2)
  gt : ∀ a, (∀ m ∈ mine, a < m.1) → ∀ g ∈ r, a < g.1

variable {m t : Interval α} {r : IntervalSet α}

/-- The interval below the other one is left, and what is left behind it. -/
theorem Subtracted.overlap (hint : m.intersects t = true) (hr : Separated r)
    (hcov : ∀ o, Covered r o ↔ (t.2 ≤ o ∧ o < m.2) ∨ Covered mine o ∧ ¬ (t.1 ≤ o ∧ o < t.2))
    (hgt : ∀ g ∈ r, m.1 < g.1 ∧ t.1 < g.1) : Subtracted t (m :: mine) (stretch m.1 t.1 ++ r) := by
  obtain ⟨-, ht, hmt, htm⟩ := Interval.intersects_iff.1 hint
  refine ⟨(Separated.stretch _ _).append hr fun x hx g hg => ?_, fun o => ?_,
    fun a ha => List.forall_mem_append.2 ⟨fun x hx => ?_, fun g hg => ?_⟩⟩
  · obtain ⟨-, rfl⟩ := mem_stretch.1 hx
    exact (hgt g hg).2
  · rw [covered_append, covered_stretch, hcov, covered_cons]
    constructor
    · rintro (⟨h₁, h₂⟩ | ⟨h₁, h₂⟩ | ⟨hc, hno⟩)
      · exact ⟨.inl ⟨h₁, h₂.trans htm⟩, fun hin => absurd hin.1 (not_le.2 h₂)⟩
      · exact ⟨.inl ⟨hmt.le.trans h₁, h₂⟩, fun hin => absurd hin.2 (not_lt.2 h₁)⟩
      · exact ⟨.inr hc, hno⟩
    · rintro ⟨⟨h₁, h₂⟩ | hc, hno⟩
      · rcases lt_or_ge o t.1 with hlt | hge
        · exact .inl ⟨h₁, hlt⟩
        · exact .inr (.inl ⟨not_lt.1 fun hlt => hno ⟨hge, hlt⟩, h₂⟩)
      · exact .inr (.inr ⟨hc, hno⟩)
  · obtain ⟨-, rfl⟩ := mem_stretch.1 hx
    exact ha m (List.mem_cons_self ..)
  · exact (ha m (List.mem_cons_self ..)).trans (hgt g hg).1

theorem differenceLoop_spec (t : Interval α) : ∀ mine : IntervalSet α, Separated mine →
    Subtracted t mine (differenceLoop t mine)
  | [], hs => ⟨hs, fun o => iff_of_false not_covered_nil fun h => not_covered_nil h.1,
      fun _ _ _ hg => absurd hg List.not_mem_nil⟩
  | m :: mine, hs => by
    have ih := differenceLoop_spec t mine hs.tail
    have hm := hs.lt m (List.mem_cons_self ..)
    have hbehind := (List.pairwise_cons.1 hs.apart).1
    unfold differenceLoop
    split
    case isTrue hint =>
      obtain ⟨-, ht, hmt, htm⟩ := Interval.intersects_iff.1 hint
      obtain ⟨hlo, hhi⟩ := Interval.difference_of_intersects hint
      rw [hlo]
      split
      case h_1 hi heq =>
        rw [heq, Option.toList_some] at hhi
        obtain ⟨hlt, rfl⟩ := mem_stretch.1 (hhi ▸ List.mem_singleton_self hi)
        refine .overlap hint (hs.tail.cons hlt hbehind) (fun o => ?_)
          (List.forall_mem_cons.2 ⟨⟨hmt, ht⟩, fun g hg => ?_⟩)
        · have hafter : Covered mine o → ¬(t.1 ≤ o ∧ o < t.2) := fun hc hin =>
            lt_asymm hin.2 (hlt.trans (hs.lt_of_covered hc))
          rw [covered_cons, and_iff_left_of_imp hafter]
        · exact ⟨hm.trans (hbehind g hg), htm.trans (hbehind g hg)⟩
      case h_2 heq =>
        rw [heq, Option.toList_none] at hhi
        refine .overlap hint ih.separated (fun o => ?_) fun g hg =>
          ⟨hm.trans (ih.gt m.2 hbehind g hg), htm.trans (ih.gt m.2 hbehind g hg)⟩
        have hnone : ¬(t.2 ≤ o ∧ o < m.2) := by
          rw [← covered_stretch, ← hhi]
          exact not_covered_nil
        rw [ih.covered, or_iff_right hnone]
    case isFalse hint =>
      split
      case isTrue hle =>
        refine ⟨ih.separated.cons hm (ih.gt m.2 hbehind), fun o => ?_, fun a ha =>
          List.forall_mem_cons.2 ⟨ha m (List.mem_cons_self ..),
            ih.gt a fun x hx => ha x (List.mem_cons_of_mem _ hx)⟩⟩
        rw [covered_cons, ih.covered, covered_cons, or_and_right]
        refine or_congr_left (iff_self_and.2 fun hin hin' => ?_)
        exact absurd (hin.2.trans_le (hle.trans hin'.1)) (lt_irrefl o)
      case isFalse hgt =>
        -- The other interval lies before this one, or is empty.
        refine ⟨hs, fun o => (and_iff_left_of_imp fun hc hin => hint ?_).symm, fun _ ha => ha⟩
        have hge := hs.head_le_of_covered hc
        exact Interval.intersects_iff.2 ⟨hm, hin.1.trans_lt hin.2, hge.trans_lt hin.2,
          not_le.1 hgt⟩

/-- The candidate is the first interval that can meet one: the intervals before it end too
early. -/
theorem findIntersectionCandidate_spec (hs : Separated s) (i : Interval α) :
    (s.findIntersectionCandidate i).1 ++ (s.findIntersectionCandidate i).2 = s ∧
      ∀ g ∈ (s.findIntersectionCandidate i).1, g.2 < i.1 := by
  have hcut := upTo_append_above i s
  have hle : ∀ g ∈ upTo i s, g.1 ≤ i.1 := fun g hg => le_of_mem_upTo hg
  have hsep : Separated (upTo i s) := (hcut.symm ▸ hs).left
  unfold findIntersectionCandidate
  generalize upTo i s = lower at hcut hle hsep
  rcases List.eq_nil_or_concat' lower with rfl | ⟨lower, p, rfl⟩
  · exact ⟨rfl, fun g hg => absurd hg List.not_mem_nil⟩
  · rw [List.getLast?_append_of_ne_nil _ (List.cons_ne_nil _ _), List.getLast?_singleton,
      List.dropLast_concat]
    refine ⟨(List.append_assoc lower [p] _).symm.trans hcut, fun g hg => ?_⟩
    exact (hsep.lt_of_mem_before hg).trans_le
      (hle p (List.mem_append_right _ (List.mem_singleton_self p)))

/-- All points lie between the two ends. -/
theorem covered_span {first last : Interval α} (hs : Separated s) (hf : s.head? = some first)
    (hl : s.getLast? = some last) (ho : Covered s o) : first.1 ≤ o ∧ o < last.2 := by
  constructor
  · obtain ⟨l, rfl⟩ := List.head?_eq_some_iff.1 hf
    exact hs.head_le_of_covered ho
  · obtain ⟨l, rfl⟩ := List.getLast?_eq_some_iff.1 hl
    rcases covered_append.1 ho with ⟨g, hg, hin⟩ | hin
    · have hlast := hs.right.lt last (List.mem_singleton_self last)
      exact hin.2.trans ((hs.lt_of_mem_before hg).trans hlast)
    · exact ((covered_cons.1 hin).resolve_right not_covered_nil).2

theorem exists_ends (ho : Covered s o) :
    ∃ first last, s.head? = some first ∧ s.getLast? = some last := by
  obtain ⟨g, hg, -⟩ := ho
  have hne := List.ne_nil_of_mem hg
  exact ⟨s.head hne, s.getLast hne, List.head?_eq_some_head hne, List.getLast?_eq_some_getLast hne⟩

/-- Sets with a point in common overlap as a whole. -/
theorem spanIntersects_of_covered (hs : Separated s) (ho : Covered s o) (hi : i.1 ≤ o ∧ o < i.2) :
    s.spanIntersects i = true := by
  obtain ⟨first, last, hf, hl⟩ := exists_ends ho
  obtain ⟨h₁, h₂⟩ := covered_span hs hf hl ho
  unfold spanIntersects
  rw [hf, hl]
  exact Interval.intersects_iff.2 ⟨h₁.trans_lt h₂, hi.1.trans_lt hi.2, h₁.trans_lt hi.2,
    hi.1.trans_lt h₂⟩

/-- **`Difference` takes the points of an interval away.** -/
theorem difference_spec (hs : Separated s) (i : Interval α) :
    Separated (s.difference i) ∧
      ∀ o, Covered (s.difference i) o ↔ Covered s o ∧ ¬ (i.1 ≤ o ∧ o < i.2) := by
  unfold difference
  split
  case isTrue =>
    obtain ⟨hcut, hskip⟩ := findIntersectionCandidate_spec hs i
    generalize s.findIntersectionCandidate i = c at *
    have hsep : Separated (c.1 ++ c.2) := hcut.symm ▸ hs
    have hloop := differenceLoop_spec i c.2 hsep.right
    refine ⟨hsep.left.append hloop.separated fun x hx =>
      hloop.gt x.2 fun m hm => hsep.lt_across hx hm, fun o => ?_⟩
    · rw [covered_append, hloop.covered, ← hcut, covered_append, or_and_right]
      refine or_congr_left (iff_self_and.2 ?_)
      rintro ⟨g, hg, hin⟩ hi
      exact absurd (hin.2.trans (hskip g hg)) (not_lt.2 hi.1)
  case isFalse hno =>
    exact ⟨hs, fun o => (and_iff_left_of_imp fun hc hin =>
      hno (spanIntersects_of_covered hs hc hin)).symm⟩

theorem difference_represents {S : Set α} (h : Represents s S) (i : Interval α) :
    Represents (s.difference i) (S \ Set.Ico i.1 i.2) := by
  obtain ⟨hsep, hcov⟩ := difference_spec h.separated i
  exact ⟨hsep, fun o => by rw [hcov, h.mem_iff, Set.mem_sdiff, Set.mem_Ico]⟩

end IntervalSet

end Acks
end QuicNs3
