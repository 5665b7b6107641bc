/-
# The queue of packet numbers

`PacketNumberQueue` of `quic_ack_frame.cc` keeps the packet numbers of an acknowledgement as
intervals, in an `IntervalSet` or, under a flag, in a deque that it maintains itself.  The deque
has fast paths for numbers at its two ends and searches the others from the back.

Whatever is added and removed, both hold the intervals of the same set (`run_agrees`): a number or
a range comes in, everything below a number goes, or the smallest block of numbers goes.
-/

import QuicNs3.Acks.IntervalSet
import QuicNs3.Lib.Run
import QuicNs3.Lib.Word
import Mathlib.Order.Interval.Set.Basic

namespace QuicNs3
namespace Acks

open Lib

/-! ## The deque -/

namespace Deque

variable {d rev post : List (Interval ℕ)} {p lower higher n o : ℕ} {S : Set ℕ}

/-- `back().SetMax`. -/
def setBackMax (d : List (Interval ℕ)) (max : ℕ) : List (Interval ℕ) :=
  match d.getLast? with
  | some back => d.dropLast ++ [(back.1, max)]
  | none => d

/-- `front().SetMin`. -/
def setFrontMin (min : ℕ) : List (Interval ℕ) → List (Interval ℕ)
  | front :: rest => (min, front.2) :: rest
  | [] => []

/-- The loop of `Add`, with the intervals that it has still to look at from the last one on, and
those behind them. -/
def addBackward (p : ℕ) : List (Interval ℕ) → List (Interval ℕ) → List (Interval ℕ)
  | [], post => post
  | x :: rev, post =>
    if x.contains p then rev.reverse ++ x :: post
    else if x.2 = p then rev.reverse ++ (x.1, wrapAdd p 1) :: post
    else if x.1 = wrapAdd p 1 then
      match rev with
      | y :: rev' =>
        if p = y.2 then rev'.reverse ++ (y.1, x.2) :: post else rev.reverse ++ (p, x.2) :: post
      | [] => (p, x.2) :: post
    else if x.2 < wrapAdd p 1 then rev.reverse ++ x :: (p, wrapAdd p 1) :: post
    else addBackward p rev (x :: post)

/-- `Add`. -/
def add (d : List (Interval ℕ)) (p : ℕ) : List (Interval ℕ) :=
  match d.head?, d.getLast? with
  | some front, some back =>
    if back.2 = p then setBackMax d (wrapAdd p 1)
    else if back.2 < p then d ++ [(p, wrapAdd p 1)]
    else if wrapAdd p 1 < front.1 then (p, wrapAdd p 1) :: d
    else if front.1 = wrapAdd p 1 then setFrontMin p d
    else addBackward p d.reverse []
  | _, _ => [(p, wrapAdd p 1)]

/-- The numbers from `p` on, one by one. -/
def addEach : ℕ → ℕ → List (Interval ℕ) → List (Interval ℕ)
  | 0, _, d => d
  | n + 1, p, d => addEach n (p + 1) (add d p)

/-- The slow path of `AddRange`, with the first and the last interval as they were. -/
def addSlowly (d : List (Interval ℕ)) (front back : Interval ℕ) (lower higher : ℕ) :
    List (Interval ℕ) :=
  let d₁ := if back.2 ≤ higher then setBackMax d higher else d
  let higher₁ := if back.2 ≤ higher then max lower back.1 else higher
  let d₂ := if lower < front.1 then setFrontMin lower d₁ else d₁
  let lower₁ := if lower < front.1 then min higher₁ front.2 else lower
  addEach (higher₁ - lower₁) lower₁ d₂

/-- `AddRange`. -/
def addRange (d : List (Interval ℕ)) (lower higher : ℕ) : List (Interval ℕ) :=
  match d.head?, d.getLast? with
  | some front, some back =>
    if back.2 = lower then setBackMax d higher
    else if back.2 < lower then d ++ [(lower, higher)]
    else if front.1 = higher then setFrontMin lower d
    else if higher < front.1 then (lower, higher) :: d
    else addSlowly d front back lower higher
  | _, _ => [(lower, higher)]

/-- `RemoveUpTo`. -/
def removeUpTo (higher : ℕ) : List (Interval ℕ) → List (Interval ℕ)
  | [] => []
  | front :: rest =>
    if front.2 < higher then removeUpTo higher rest
    else if front.1 < higher ∧ higher ≤ front.2 then
      if front.2 = higher then rest else (higher, front.2) :: rest
    else front :: rest

/-- `Contains`. -/
def contains (d : List (Interval ℕ)) (p : ℕ) : Bool :=
  match d.head?, d.getLast? with
  | some front, some back =>
    if p < front.1 ∨ back.2 ≤ p then false else d.any (·.contains p)
  | _, _ => false

/-! ### What the deque holds -/

theorem setBackMax_concat (back : Interval ℕ) (max : ℕ) :
    setBackMax (d ++ [back]) max = d ++ [(back.1, max)] := by
  unfold setBackMax
  rw [List.getLast?_append_of_ne_nil _ (List.cons_ne_nil _ _), List.getLast?_singleton,
    List.dropLast_concat]

theorem covered_singleton {g : Interval ℕ} : Covered [g] o ↔ g.1 ≤ o ∧ o < g.2 :=
  covered_cons.trans (or_iff_left not_covered_nil)

/-- A new interval. -/
theorem represents_insert (pre post : List (Interval ℕ)) (h : Represents (pre ++ post) S)
    (hlt : lower < higher) (hpre : ∀ x ∈ pre, x.2 < lower) (hpost : ∀ y ∈ post, higher < y.1) :
    Represents (pre ++ (lower, higher) :: post) (S ∪ Set.Ico lower higher) :=
  h.extend [] hlt hpre hpost fun _ => (or_iff_right not_covered_nil).symm

/-- An interval gets a larger upper end. -/
theorem represents_max (pre post : List (Interval ℕ)) {x : Interval ℕ}
    (h : Represents (pre ++ x :: post) S) (hx : x.2 ≤ higher) (hlow : lower ≤ x.2)
    (hle : x.1 ≤ lower) (hpost : ∀ y ∈ post, higher < y.1) :
    Represents (pre ++ (x.1, higher) :: post) (S ∪ Set.Ico lower higher) := by
  have hlt := h.separated.right.lt x (List.mem_cons_self ..)
  refine h.extend [x] (hlt.trans_le hx) (fun y hy => h.separated.lt_of_mem_before hy) hpost
    fun o => ?_
  rw [covered_singleton, Set.mem_Ico]
  omega

/-- An interval gets a smaller lower end. -/
theorem represents_min (pre post : List (Interval ℕ)) {x : Interval ℕ}
    (h : Represents (pre ++ x :: post) S) (hx : lower ≤ x.1) (hlow : x.1 ≤ higher)
    (hle : higher ≤ x.2) (hpre : ∀ y ∈ pre, y.2 < lower) :
    Represents (pre ++ (lower, x.2) :: post) (S ∪ Set.Ico lower higher) := by
  have hlt := h.separated.right.lt x (List.mem_cons_self ..)
  refine h.extend [x] (hx.trans_lt hlt) hpre (fun y hy => h.separated.lt_of_mem hy) fun o => ?_
  rw [covered_singleton, Set.mem_Ico]
  omega

/-- A number that fits in or between the intervals that are still to look at. -/
theorem addBackward_represents (hp : p + 1 < 2 ^ 64) :
    ∀ (rev post : List (Interval ℕ)), Represents (rev.reverse ++ post) S →
      (∀ y ∈ post, p + 1 < y.1) → (∃ y ∈ rev, y.1 ≤ p) →
        Represents (addBackward p rev post) (S ∪ Set.Ico p (p + 1))
  | [], _, _, _, hex => by
    obtain ⟨y, hy, -⟩ := hex
    exact absurd hy List.not_mem_nil
  | x :: rev, post, h, hpost, hex => by
    rw [List.reverse_cons, List.append_assoc, List.singleton_append] at h
    have hx := h.separated.right.lt x (List.mem_cons_self ..)
    have hrev : ∀ y ∈ rev.reverse, y.2 < x.1 := fun y hy => h.separated.lt_of_mem_before hy
    unfold addBackward
    rw [wrapAdd_eq hp]
    split_ifs with hin hmax hmin hless
    · -- The number is in this interval.
      rw [Interval.contains_iff] at hin
      refine h.union_of_subset fun o ho => (h.mem_iff o).1 ?_
      obtain rfl : o = p := le_antisymm (Nat.lt_succ_iff.1 ho.2) ho.1
      exact covered_append.2 (.inr (covered_cons.2 (.inl hin)))
    · exact represents_max _ _ h (by omega) (by omega) (by omega) hpost
    · -- The interval is the first one behind the number; the one before it may end there.
      rcases rev with _ | ⟨y, rev⟩
      · exact represents_min _ _ h (by omega) (by omega) (by omega)
          fun _ hy => absurd hy List.not_mem_nil
      · dsimp only
        split_ifs with hy
        · rw [List.reverse_cons, List.append_assoc, List.singleton_append] at h
          have hylt := h.separated.right.lt y (List.mem_cons_self ..)
          refine h.extend [y, x] (by omega) (fun z hz => h.separated.lt_of_mem_before hz)
            ((List.pairwise_cons.1 h.separated.right.tail.apart).1) fun o => ?_
          rw [covered_cons, covered_singleton, Set.mem_Ico]
          omega
        · refine represents_min _ _ h (by omega) (by omega) (by omega) fun z hz => ?_
          have hlast := h.separated.left
          rw [List.reverse_cons] at hz hlast
          have hyx := hrev y (List.mem_reverse.2 (List.mem_cons_self ..))
          have := hlast.le_last hz
          omega
    · -- The number lies behind the interval, and not next to it.
      have h' : Represents ((rev.reverse ++ [x]) ++ post) S := by
        rwa [List.append_assoc, List.singleton_append]
      have := represents_insert _ _ h' (Nat.lt_succ_self p) (fun y hy => ?_) hpost
      · rwa [List.append_assoc, List.singleton_append] at this
      · rcases List.mem_append.1 hy with hy | hy
        · exact (hrev y hy).trans (by omega)
        · rw [List.mem_singleton.1 hy]
          omega
    · -- The number lies before the interval, and not next to it.
      have hgt : p + 1 < x.1 := by
        rw [Interval.contains_iff] at hin
        omega
      refine addBackward_represents hp rev (x :: post) h
        (List.forall_mem_cons.2 ⟨hgt, hpost⟩) ?_
      obtain ⟨y, hy, hle⟩ := hex
      rcases List.mem_cons.1 hy with rfl | hy
      · omega
      · exact ⟨y, hy, hle⟩

theorem setFrontMin_represents {front : Interval ℕ} {rest : List (Interval ℕ)}
    (h : Represents (front :: rest) S) (hlow : lower ≤ front.1) (hle : front.1 ≤ higher)
    (hhigh : higher ≤ front.2) :
    Represents (setFrontMin lower (front :: rest)) (S ∪ Set.Ico lower higher) :=
  represents_min [] rest h hlow hle hhigh fun _ hy => absurd hy List.not_mem_nil

theorem setBackMax_represents {back : Interval ℕ} (h : Represents (d ++ [back]) S)
    (hhigh : back.2 ≤ higher) (hle : lower ≤ back.2) (hlow : back.1 ≤ lower) :
    Represents (setBackMax (d ++ [back]) higher) (S ∪ Set.Ico lower higher) := by
  rw [setBackMax_concat]
  exact represents_max _ _ h hhigh hle hlow fun _ hy => absurd hy List.not_mem_nil

theorem push_front_represents {front : Interval ℕ} {rest : List (Interval ℕ)}
    (h : Represents (front :: rest) S) (hlt : lower < higher) (hfront : higher < front.1) :
    Represents ((lower, higher) :: front :: rest) (S ∪ Set.Ico lower higher) :=
  represents_insert [] _ h hlt (fun _ hy => absurd hy List.not_mem_nil)
    fun _ hy => hfront.trans_le (h.separated.head_le hy)

theorem push_back_represents {back : Interval ℕ} (h : Represents (d ++ [back]) S)
    (hlt : lower < higher) (hback : back.2 < lower) :
    Represents (d ++ [back] ++ [(lower, higher)]) (S ∪ Set.Ico lower higher) :=
  represents_insert _ [] (by rwa [List.append_nil]) hlt
    (fun y hy => (h.separated.le_last hy).trans_lt hback) fun _ hy => absurd hy List.not_mem_nil

theorem singleton_represents (h : Represents ([] : List (Interval ℕ)) S) (hlt : lower < higher) :
    Represents [(lower, higher)] (S ∪ Set.Ico lower higher) :=
  represents_insert [] [] h hlt (fun _ hy => absurd hy List.not_mem_nil)
    fun _ hy => absurd hy List.not_mem_nil

/-- An empty deque, or one with a first and a last interval. -/
theorem ends_cases (d : List (Interval ℕ)) : d = [] ∨ ∃ front rest init back,
    d = front :: rest ∧ d = init ++ [back] ∧ d.head? = some front ∧ d.getLast? = some back := by
  rcases d with _ | ⟨front, rest⟩
  · exact .inl rfl
  · rcases List.eq_nil_or_concat' (front :: rest) with h | ⟨init, back, h⟩
    · exact absurd h (List.cons_ne_nil _ _)
    · exact .inr ⟨front, rest, init, back, rfl, h, rfl, by rw [h]; simp⟩

/-- **`Add` on the deque.** -/
theorem add_represents (h : Represents d S) (hp : p + 1 < 2 ^ 64) :
    Represents (add d p) (S ∪ Set.Ico p (p + 1)) := by
  have hlt := Nat.lt_succ_self p
  unfold add
  rw [wrapAdd_eq hp]
  rcases ends_cases d with rfl | ⟨front, rest, init, back, hf, hb, hhead, hlast⟩
  · exact singleton_represents h hlt
  · rw [hhead, hlast]
    dsimp only
    split_ifs with hmax hless hfar hmin
    · subst hb
      have := h.separated.lt back (List.mem_append_right _ (List.mem_singleton_self back))
      exact setBackMax_represents h (by omega) (by omega) (by omega)
    · subst hb
      exact push_back_represents h hlt hless
    · subst hf
      exact push_front_represents h hlt hfar
    · subst hf
      have := h.separated.lt front (List.mem_cons_self ..)
      exact setFrontMin_represents h (by omega) (by omega) (by omega)
    · refine addBackward_represents hp d.reverse [] ?_ (fun _ hy => absurd hy List.not_mem_nil)
        ⟨front, ?_, by omega⟩
      · rwa [List.reverse_reverse, List.append_nil]
      · rw [List.mem_reverse, hf]
        exact List.mem_cons_self ..

theorem addEach_represents : ∀ (n p : ℕ) (d : List (Interval ℕ)) (S : Set ℕ), Represents d S →
    p + n < 2 ^ 64 → Represents (addEach n p d) (S ∪ Set.Ico p (p + n))
  | 0, p, d, S, h, _ => h.union_of_subset fun o ho => absurd ho.2 (not_lt.2 ho.1)
  | n + 1, p, d, S, h, hn => by
    have ih := addEach_represents n (p + 1) (add d p) _ (add_represents h (by omega)) (by omega)
    refine ⟨ih.separated, fun o => (ih.mem_iff o).trans ?_⟩
    simp only [Set.mem_union, Set.mem_Ico, or_assoc]
    exact or_congr_right (by omega)

/-- The first interval begins where it did. -/
theorem setBackMax_cons (front : Interval ℕ) (rest : List (Interval ℕ)) (max : ℕ) :
    ∃ front' rest', setBackMax (front :: rest) max = front' :: rest' ∧ front'.1 = front.1 := by
  rcases List.eq_nil_or_concat' rest with rfl | ⟨init, back, rfl⟩
  · exact ⟨(front.1, max), [], rfl, rfl⟩
  · refine ⟨front, init ++ [(back.1, max)], ?_, rfl⟩
    rw [← List.cons_append, setBackMax_concat, List.cons_append]

/-- **The slow path of `AddRange`.**  The two ends are extended first, and only the numbers
between them are added one by one. -/
theorem addSlowly_represents {front back : Interval ℕ} {rest init : List (Interval ℕ)}
    (h : Represents d S) (hf : d = front :: rest) (hb : d = init ++ [back])
    (hlt : lower < higher) (hlow : lower < back.2) (hhigh : front.1 < higher)
    (hfit : higher < 2 ^ 64) :
    Represents (addSlowly d front back lower higher) (S ∪ Set.Ico lower higher) := by
  have hfront := h.separated.lt front (hf ▸ List.mem_cons_self ..)
  have hback := h.separated.lt back (hb ▸ List.mem_append_right _ (List.mem_singleton_self back))
  have hfS : ∀ o, front.1 ≤ o → o < front.2 → o ∈ S := fun o h₁ h₂ =>
    (h.mem_iff o).1 ⟨front, hf ▸ List.mem_cons_self .., h₁, h₂⟩
  have hbS : ∀ o, back.1 ≤ o → o < back.2 → o ∈ S := fun o h₁ h₂ =>
    (h.mem_iff o).1 ⟨back, hb ▸ List.mem_append_right _ (List.mem_singleton_self back), h₁, h₂⟩
  unfold addSlowly
  dsimp only
  generalize hd₁ : (if back.2 ≤ higher then setBackMax d higher else d) = d₁
  generalize hh₁ : (if back.2 ≤ higher then max lower back.1 else higher) = higher₁
  generalize hd₂ : (if lower < front.1 then setFrontMin lower d₁ else d₁) = d₂
  generalize hl₁ : (if lower < front.1 then min higher₁ front.2 else lower) = lower₁
  have h₁ : Represents d₁ (S ∪ Set.Ico back.2 higher) ∧
      ∃ front' rest', d₁ = front' :: rest' ∧ front'.1 = front.1 := by
    split_ifs at hd₁ with hge
    · constructor
      · rw [← hd₁, hb]
        rw [hb] at h
        exact setBackMax_represents h hge le_rfl hback.le
      · obtain ⟨front', rest', he, hmin⟩ := setBackMax_cons front rest higher
        exact ⟨front', rest', hd₁ ▸ hf ▸ he, hmin⟩
    · obtain rfl := hd₁
      exact ⟨h.union_of_subset fun o ho => absurd (ho.1.trans_lt ho.2) (by omega),
        front, rest, hf, rfl⟩
  obtain ⟨h₁, front', rest', hf', hmin⟩ := h₁
  have h₂ : Represents d₂ (S ∪ Set.Ico back.2 higher ∪ Set.Ico lower front.1) := by
    split_ifs at hd₂ with hlt'
    · rw [hf'] at h₁ hd₂
      have := h₁.separated.lt front' (List.mem_cons_self ..)
      exact hd₂ ▸ setFrontMin_represents h₁ (by omega) (by omega) (by omega)
    · exact hd₂ ▸ h₁.union_of_subset fun o ho => absurd (ho.1.trans_lt ho.2) hlt'
  have hle₁ : higher₁ ≤ higher ∧ lower ≤ higher₁ := by
    split_ifs at hh₁ <;> omega
  have hle₂ : lower ≤ lower₁ ∧ lower₁ ≤ higher₁ := by
    split_ifs at hl₁ <;> omega
  have h₃ := addEach_represents (higher₁ - lower₁) lower₁ d₂ _ h₂ (by omega)
  refine ⟨h₃.separated, fun o => (h₃.mem_iff o).trans ?_⟩
  rw [Nat.add_sub_cancel' hle₂.2]
  simp only [Set.mem_union, Set.mem_Ico]
  constructor
  · rintro (((ho | ho) | ho) | ho)
    · exact .inl ho
    · exact .inr (by omega)
    · exact .inr (by omega)
    · exact .inr (by omega)
  · rintro (ho | ho)
    · exact .inl (.inl (.inl ho))
    · by_cases hoS : o ∈ S
      · exact .inl (.inl (.inl hoS))
      · have hno : ¬ (front.1 ≤ o ∧ o < front.2) := fun hin => hoS (hfS o hin.1 hin.2)
        have hno' : ¬ (back.1 ≤ o ∧ o < back.2) := fun hin => hoS (hbS o hin.1 hin.2)
        split_ifs at hh₁ <;> split_ifs at hl₁ <;> omega

/-- **`AddRange` on the deque.** -/
theorem addRange_represents (h : Represents d S) (hlt : lower < higher) (hfit : higher < 2 ^ 64) :
    Represents (addRange d lower higher) (S ∪ Set.Ico lower higher) := by
  unfold addRange
  rcases ends_cases d with rfl | ⟨front, rest, init, back, hf, hb, hhead, hlast⟩
  · exact singleton_represents h hlt
  · rw [hhead, hlast]
    dsimp only
    split_ifs with hmax hless hmin hfar
    · subst hb
      have := h.separated.lt back (List.mem_append_right _ (List.mem_singleton_self back))
      exact setBackMax_represents h (by omega) (by omega) (by omega)
    · subst hb
      exact push_back_represents h hlt hless
    · subst hf
      have := h.separated.lt front (List.mem_cons_self ..)
      exact setFrontMin_represents h (by omega) (by omega) (by omega)
    · subst hf
      exact push_front_represents h hlt hfar
    · exact addSlowly_represents h hf hb hlt (by omega) (by omega) hfit

/-- **`RemoveUpTo` on the deque.** -/
theorem removeUpTo_covered : ∀ d : List (Interval ℕ), Separated d →
    Separated (removeUpTo higher d) ∧
      ∀ o, Covered (removeUpTo higher d) o ↔ Covered d o ∧ higher ≤ o
  | [], h => ⟨h, fun o => iff_of_false not_covered_nil fun hc => not_covered_nil hc.1⟩
  | front :: rest, h => by
    have hrest : ∀ o, Covered rest o → front.2 < o := fun o ho => h.lt_of_covered ho
    have hfront := h.lt front (List.mem_cons_self ..)
    unfold removeUpTo
    split_ifs with hless hin heq
    · obtain ⟨hsep, hcov⟩ := removeUpTo_covered rest h.tail
      refine ⟨hsep, fun o => ?_⟩
      rw [hcov, covered_cons]
      exact ⟨fun ho => ⟨.inr ho.1, ho.2⟩, fun ⟨ho, hge⟩ => ⟨ho.resolve_left (by omega), hge⟩⟩
    · refine ⟨h.tail, fun o => ?_⟩
      rw [covered_cons]
      refine ⟨fun ho => ⟨.inr ho, heq ▸ (hrest o ho).le⟩, fun ⟨ho, hge⟩ => ?_⟩
      exact ho.resolve_left (by omega)
    · constructor
      · exact h.tail.cons (by omega) (List.pairwise_cons.1 h.apart).1
      · intro o
        rw [covered_cons, covered_cons]
        have := hrest o
        constructor
        · rintro (ho | ho)
          · exact ⟨.inl ⟨by omega, ho.2⟩, ho.1⟩
          · exact ⟨.inr ho, by have := hrest o ho; omega⟩
        · rintro ⟨ho | ho, hge⟩
          · exact .inl ⟨hge, ho.2⟩
          · exact .inr ho
    · refine ⟨h, fun o => (and_iff_left_of_imp fun ho => ?_).symm⟩
      have := h.head_le_of_covered ho
      omega

theorem removeUpTo_represents (h : Represents d S) :
    Represents (removeUpTo higher d) (S \ Set.Iio higher) := by
  have hd : Separated (removeUpTo higher d) ∧ _ := removeUpTo_covered d h.separated
  refine ⟨hd.1, fun o => ?_⟩
  rw [hd.2, h.mem_iff, Set.mem_sdiff, Set.mem_Iio, not_lt]

theorem contains_iff (h : Represents d S) : contains d p = true ↔ p ∈ S := by
  have hany : d.any (·.contains p) = true ↔ p ∈ S := by
    rw [List.any_eq_true, ← h.mem_iff]
    exact exists_congr fun g => and_congr_right fun _ => Interval.contains_iff
  unfold contains
  rcases ends_cases d with rfl | ⟨front, rest, init, back, hf, hb, hhead, hlast⟩
  · exact hany
  · rw [hhead, hlast]
    dsimp only
    split
    case isTrue hout =>
      refine iff_of_false Bool.false_ne_true fun hp => ?_
      obtain ⟨g, hg, hin⟩ := (h.mem_iff p).2 hp
      have h₁ : front.1 ≤ g.1 := (hf ▸ h.separated).head_le (hf ▸ hg)
      have h₂ : g.2 ≤ back.2 := (hb ▸ h.separated).le_last (hb ▸ hg)
      omega
    case isFalse => exact hany

end Deque

/-! ## The queue -/

/-- `PacketNumberQueue`. -/
structure PacketNumberQueue where
  useDeque : Bool
  packetNumberIntervals : IntervalSet ℕ := []
  packetNumberDeque : List (Interval ℕ) := []
deriving DecidableEq, Repr

namespace PacketNumberQueue

/-- The intervals from `begin()` to `end()`. -/
def ranges (q : PacketNumberQueue) : List (Interval ℕ) :=
  if q.useDeque then q.packetNumberDeque else q.packetNumberIntervals

/-- `Add`. -/
def add (q : PacketNumberQueue) (packetNumber : ℕ) : PacketNumberQueue :=
  if q.useDeque then { q with packetNumberDeque := Deque.add q.packetNumberDeque packetNumber }
  else
    { q with
      packetNumberIntervals :=
        IntervalSet.add q.packetNumberIntervals (packetNumber, wrapAdd packetNumber 1) }

/-- `AddRange`. -/
def addRange (q : PacketNumberQueue) (lower higher : ℕ) : PacketNumberQueue :=
  if higher ≤ lower then q
  else if q.useDeque then
    { q with packetNumberDeque := Deque.addRange q.packetNumberDeque lower higher }
  else
    { q with packetNumberIntervals := IntervalSet.add q.packetNumberIntervals (lower, higher) }

/-- `Empty`. -/
def empty (q : PacketNumberQueue) : Bool := q.ranges.isEmpty

/-- `Min`, which may not be called when the queue is empty. -/
def min (q : PacketNumberQueue) : Option ℕ := q.ranges.head?.map (·.1)

/-- `Max`, which may not be called when the queue is empty. -/
def max (q : PacketNumberQueue) : Option ℕ := q.ranges.getLast?.map (·.2 - 1)

/-- `RemoveUpTo`, with whether the queue has changed. -/
def removeUpTo (q : PacketNumberQueue) (higher : ℕ) : PacketNumberQueue × Bool :=
  if q.empty then (q, false)
  else
    let q' :=
      if q.useDeque then
        { q with packetNumberDeque := Deque.removeUpTo higher q.packetNumberDeque }
      else
        { q with
          packetNumberIntervals := IntervalSet.difference q.packetNumberIntervals (0, higher) }
    (q', q'.empty || decide (q.min ≠ q'.min))

/-- `RemoveSmallestInterval`, which reads the first interval. -/
def removeSmallestInterval (q : PacketNumberQueue) : Option PacketNumberQueue :=
  match q.ranges with
  | [] => none
  | first :: rest =>
    if q.useDeque then some { q with packetNumberDeque := rest }
    else
      some { q with packetNumberIntervals := IntervalSet.difference q.packetNumberIntervals first }

/-- `Contains`. -/
def contains (q : PacketNumberQueue) (packetNumber : ℕ) : Bool :=
  if q.useDeque then Deque.contains q.packetNumberDeque packetNumber
  else IntervalSet.contains q.packetNumberIntervals packetNumber

/-- `NumIntervals`. -/
def numIntervals (q : PacketNumberQueue) : ℕ := q.ranges.length

/-- `LastIntervalLength`, which may not be called when the queue is empty. -/
def lastIntervalLength (q : PacketNumberQueue) : Option ℕ :=
  q.ranges.getLast?.map fun g => g.2 - g.1

variable {q q' : PacketNumberQueue} {S : Set ℕ} {p lower higher m : ℕ}

/-- **The queue holds the set `S`.** -/
def Holds (q : PacketNumberQueue) (S : Set ℕ) : Prop := Represents q.ranges S

theorem add_holds (h : q.Holds S) (hp : p + 1 < 2 ^ 64) : (q.add p).Holds (insert p S) := by
  have hset : insert p S = S ∪ Set.Ico p (p + 1) := by
    ext o
    simp only [Set.mem_insert_iff, Set.mem_union, Set.mem_Ico]
    rw [or_comm]
    exact or_congr_right (by omega)
  rw [hset]
  obtain ⟨useDeque, intervals, deque⟩ := q
  cases useDeque with
  | true => exact Deque.add_represents h hp
  | false =>
    have hadd := IntervalSet.add_represents h (p, p + 1)
    rw [← wrapAdd_eq hp] at hadd ⊢
    exact hadd

theorem addRange_holds (h : q.Holds S) (hfit : higher < 2 ^ 64) :
    (q.addRange lower higher).Holds (S ∪ Set.Ico lower higher) := by
  unfold addRange
  split
  case isTrue hle =>
    exact Represents.union_of_subset h fun o ho => absurd (ho.1.trans_lt ho.2) (not_lt.2 hle)
  case isFalse hlt =>
    obtain ⟨useDeque, intervals, deque⟩ := q
    cases useDeque with
    | true => exact Deque.addRange_represents h (not_le.1 hlt) hfit
    | false => exact IntervalSet.add_represents h (lower, higher)

theorem Holds.empty_iff (h : q.Holds S) : q.empty = true ↔ S = ∅ := by
  unfold empty Holds at *
  cases hr : q.ranges with
  | nil =>
    rw [hr] at h
    exact iff_of_true rfl (Represents.nil_iff.1 h)
  | cons g l =>
    rw [hr] at h
    refine iff_of_false Bool.false_ne_true fun hS => ?_
    exact absurd (hS ▸ h.isLeast.1) (Set.notMem_empty _)

theorem removeUpTo_holds (h : q.Holds S) :
    (q.removeUpTo higher).1.Holds (S \ Set.Iio higher) := by
  unfold removeUpTo
  split
  case isTrue he =>
    rw [h.empty_iff.1 he, Set.empty_sdiff, ← h.empty_iff.1 he]
    exact h
  case isFalse =>
    obtain ⟨useDeque, intervals, deque⟩ := q
    cases useDeque with
    | true => exact Deque.removeUpTo_represents h
    | false =>
      have hset : Set.Iio higher = Set.Ico 0 higher := by
        ext o
        rw [Set.mem_Iio, Set.mem_Ico, and_iff_right (Nat.zero_le o)]
      rw [hset]
      exact IntervalSet.difference_represents h (0, higher)

/-- `RemoveSmallestInterval` takes the numbers up to the first gap. -/
theorem removeSmallestInterval_holds (h : q.Holds S) (hq : q.removeSmallestInterval = some q') :
    q'.Holds (S \ firstBlock S) := by
  unfold removeSmallestInterval at hq
  split at hq
  case h_1 => exact absurd hq (Option.some_ne_none q').symm
  case h_2 first rest hr =>
    have hfirst : Represents (first :: rest) S := hr ▸ h
    obtain ⟨useDeque, intervals, deque⟩ := q
    cases useDeque with
    | true =>
      cases hq
      exact hfirst.tail
    | false =>
      cases hq
      rw [hfirst.firstBlock_eq]
      exact IntervalSet.difference_represents h first

theorem removeSmallestInterval_eq_none (h : q.Holds S) :
    q.removeSmallestInterval = none ↔ S = ∅ := by
  rw [← h.empty_iff]
  unfold removeSmallestInterval empty
  cases q.ranges with
  | nil => exact iff_of_true rfl rfl
  | cons g l =>
    cases q.useDeque <;> exact iff_of_false (Option.some_ne_none _) Bool.false_ne_true

theorem Holds.contains_iff (h : q.Holds S) : q.contains p = true ↔ p ∈ S := by
  obtain ⟨useDeque, intervals, deque⟩ := q
  cases useDeque with
  | true => exact Deque.contains_iff h
  | false => exact (IntervalSet.contains_iff h.separated).trans (h.mem_iff p)

theorem Holds.min_iff (h : q.Holds S) : q.min = some m ↔ IsLeast S m := h.head_iff

theorem Holds.max_iff (h : q.Holds S) : q.max = some m ↔ IsGreatest S m := by
  unfold max Holds at *
  rcases List.eq_nil_or_concat' q.ranges with hr | ⟨l, g, hr⟩
  · rw [hr] at h ⊢
    obtain rfl := Represents.nil_iff.1 h
    exact iff_of_false (Option.some_ne_none m).symm fun hm => hm.1
  · rw [hr] at h ⊢
    have hlt := h.separated.right.lt g (List.mem_singleton_self g)
    have hmax : IsGreatest S (g.2 - 1) := by
      refine ⟨(h.mem_iff _).1 (covered_append.2 (.inr (covered_cons.2 (.inl (by omega))))), ?_⟩
      intro o ho
      obtain ⟨x, hx, hin⟩ := (h.mem_iff o).2 ho
      have := h.separated.le_last hx
      omega
    rw [List.getLast?_append_of_ne_nil _ (List.cons_ne_nil _ _)]
    exact ⟨fun he => Option.some.inj he ▸ hmax, fun hm => congrArg some (hmax.unique hm)⟩

/-- The queue says that it has changed where a number has gone. -/
theorem removeUpTo_changed (h : q.Holds S) :
    (q.removeUpTo higher).2 = true ↔ ∃ o ∈ S, o < higher := by
  have h' : (q.removeUpTo higher).1.Holds (S \ Set.Iio higher) := removeUpTo_holds h
  have hsnd : (q.removeUpTo higher).2 = (!q.empty && ((q.removeUpTo higher).1.empty ||
      decide (q.min ≠ (q.removeUpTo higher).1.min))) := by
    unfold removeUpTo
    cases q.empty <;> rfl
  rw [hsnd, Bool.and_eq_true, Bool.not_eq_true', ← Bool.not_eq_true, h.empty_iff, Bool.or_eq_true,
    h'.empty_iff, decide_eq_true_iff]
  constructor
  · -- Without a number below the limit, the queue holds what it did.
    rintro ⟨hne, hor⟩
    by_contra hno
    have hsame : S \ Set.Iio higher = S :=
      Set.ext fun o => ⟨And.left, fun ho => ⟨ho, fun hlt => hno ⟨o, ho, hlt⟩⟩⟩
    rw [hsame] at h' hor
    rcases hor with hS | hmin
    · exact hne hS
    · have hr : q.ranges = (q.removeUpTo higher).1.ranges := Represents.unique h h'
      exact hmin (congrArg (fun l => l.head?.map (·.1)) hr)
  · rintro ⟨o, ho, hlt⟩
    have hne : S ≠ ∅ := Set.nonempty_iff_ne_empty.1 ⟨o, ho⟩
    refine ⟨hne, .inr fun heq => ?_⟩
    obtain ⟨m, hm⟩ : ∃ m, q.min = some m := by
      refine Option.ne_none_iff_exists'.1 fun hnone => hne (h.empty_iff.1 ?_)
      exact List.isEmpty_iff.2 (List.head?_eq_none_iff.1 (Option.map_eq_none_iff.1 hnone))
    exact (h'.min_iff.1 (heq ▸ hm)).1.2 (((h.min_iff.1 hm).2 ho).trans_lt hlt)

/-! ## Runs -/

/-- What is done to the queue. -/
inductive Op
  | add (packetNumber : ℕ)
  | addRange (lower higher : ℕ)
  | removeUpTo (higher : ℕ)
  | removeSmallestInterval
deriving DecidableEq, Repr

/-- The numbers are those of 64 bits, and the last one is not used. -/
def Op.Fits : Op → Prop
  | .add packetNumber => packetNumber + 1 < 2 ^ 64
  | .addRange _ higher => higher < 2 ^ 64
  | _ => True

instance : DecidablePred Op.Fits
  | .add packetNumber => inferInstanceAs (Decidable (packetNumber + 1 < 2 ^ 64))
  | .addRange _ higher => inferInstanceAs (Decidable (higher < 2 ^ 64))
  | .removeUpTo _ => .isTrue trivial
  | .removeSmallestInterval => .isTrue trivial

/-- One operation. -/
def step (q : PacketNumberQueue) : Op → Option PacketNumberQueue
  | .add packetNumber => some (q.add packetNumber)
  | .addRange lower higher => some (q.addRange lower higher)
  | .removeUpTo higher => some (q.removeUpTo higher).1
  | .removeSmallestInterval => q.removeSmallestInterval

open Classical in
/-- What the operation does to the set of numbers. -/
noncomputable def effect (S : Set ℕ) : Op → Option (Set ℕ)
  | .add packetNumber => some (insert packetNumber S)
  | .addRange lower higher => some (S ∪ Set.Ico lower higher)
  | .removeUpTo higher => some (S \ Set.Iio higher)
  | .removeSmallestInterval => if S = ∅ then none else some (S \ firstBlock S)

/-- An operation does to the queue what it does to the set. -/
theorem step_holds (q : PacketNumberQueue) (S : Set ℕ) (op : Op) (h : q.Holds S) (hop : op.Fits) :
    Option.Rel Holds (q.step op) (effect S op) := by
  cases op with
  | add p => exact .some (add_holds h hop)
  | addRange lower higher => exact .some (addRange_holds h hop)
  | removeUpTo higher => exact .some (removeUpTo_holds h)
  | removeSmallestInterval =>
    change Option.Rel Holds q.removeSmallestInterval (if S = ∅ then none else _)
    cases hq : q.removeSmallestInterval with
    | none =>
      rw [if_pos ((removeSmallestInterval_eq_none h).1 hq)]
      exact .none
    | some q' =>
      rw [if_neg fun hS => Option.some_ne_none q'
        (hq.symm.trans ((removeSmallestInterval_eq_none h).2 hS))]
      exact .some (removeSmallestInterval_holds h hq)

/-- The queue that `PacketNumberQueue()` makes. -/
def init (useDeque : Bool) : PacketNumberQueue := { useDeque }

theorem init_holds (useDeque : Bool) : (init useDeque).Holds ∅ := by
  cases useDeque <;> exact Represents.empty

variable {ops : List Op}

/-- **What a queue that holds `S` answers.** -/
structure Answers (q : PacketNumberQueue) (S : Set ℕ) : Prop where
  holds : q.Holds S
  contains_iff : ∀ p, q.contains p = true ↔ p ∈ S
  empty_iff : q.empty = true ↔ S = ∅
  min_iff : ∀ m, q.min = some m ↔ IsLeast S m
  max_iff : ∀ m, q.max = some m ↔ IsGreatest S m
  changed_iff : ∀ higher, (q.removeUpTo higher).2 = true ↔ ∃ o ∈ S, o < higher

theorem Holds.answers (h : q.Holds S) : Answers q S :=
  ⟨h, fun _ => h.contains_iff, h.empty_iff, fun _ => h.min_iff, fun _ => h.max_iff,
    fun _ => removeUpTo_changed h⟩

/-- A run of the queue is one of the set. -/
theorem run_holds (useDeque : Bool) (hops : ∀ op ∈ ops, op.Fits) :
    Option.Rel Holds (run step (init useDeque) ops) (run effect ∅ ops) :=
  run_rel step_holds (init_holds useDeque) hops

/-- Queues in step with the same set have the same intervals. -/
theorem ranges_eq_of_rel {a b : Option PacketNumberQueue} {c : Option (Set ℕ)}
    (ha : Option.Rel Holds a c) (hb : Option.Rel Holds b c) : a.map ranges = b.map ranges := by
  cases ha with
  | some ha =>
    cases hb with
    | some hb => exact congrArg some (Represents.unique ha hb)
  | none =>
    cases hb with
    | none => rfl

/-- **The deque is as good as the interval set.**  With the same operations both have the same
intervals, and answer for the set of numbers that the operations make. -/
theorem run_agrees (hops : ∀ op ∈ ops, op.Fits) :
    (run step (init true) ops).map ranges = (run step (init false) ops).map ranges ∧
      ∀ useDeque, Option.Rel Answers (run step (init useDeque) ops) (run effect ∅ ops) := by
  refine ⟨ranges_eq_of_rel (run_holds true hops) (run_holds false hops), fun useDeque => ?_⟩
  have h := run_holds useDeque hops
  generalize run step (init useDeque) ops = a, run effect ∅ ops = c at h
  cases h with
  | some h => exact .some h.answers
  | none => exact .none

/-- A gap is filled, a range takes the slow path, and the smallest block goes. -/
def mixed : List Op :=
  [.add 3, .add 5, .add 4, .addRange 8 12, .addRange 1 10, .add 20, .removeUpTo 2,
    .removeSmallestInterval]

theorem mixed_agrees :
    (run step (init true) mixed).map ranges = some [(20, 21)] ∧
      (run step (init true) mixed).map ranges = (run step (init false) mixed).map ranges ∧
        ∀ useDeque, Option.Rel Answers (run step (init useDeque) mixed) (run effect ∅ mixed) :=
  ⟨by decide, run_agrees (by decide)⟩

end PacketNumberQueue

end Acks
end QuicNs3
