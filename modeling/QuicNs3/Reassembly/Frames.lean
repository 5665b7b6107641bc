/-
# The map of the frames

`frame_arrival_time_map_` has an entry for each frame of which something is unread.  `Framed`
says that the entries do not overlap and cover the unread bytes: a frame that is buffered adds an
entry, and what has been read is cut off (`Framed.update`).
-/

import QuicNs3.Lib.Intervals
import QuicNs3.Reassembly.Basic
import Mathlib.Data.List.TakeWhile

namespace QuicNs3
namespace Reassembly

open Lib

variable {frames old rest : List (ℕ × FrameInfo)} {e : ℕ × FrameInfo} {info : FrameInfo}
  {P Q : ℕ → Prop} {o offset : ℕ}

/-- The bytes of a frame. -/
def span (e : ℕ × FrameInfo) : ℕ × ℕ := (e.1, e.1 + e.2.length)

/-- **The entries of the map cover the bytes `P`.** -/
structure Framed (frames : List (ℕ × FrameInfo)) (P : ℕ → Prop) : Prop where
  sorted : frames.Pairwise fun e e' => e.1 + e.2.length ≤ e'.1
  pos : ∀ e ∈ frames, 0 < e.2.length
  mem : ∀ o, P o ↔ Covered (frames.map span) o

namespace Framed

theorem congr (h : Framed frames P) (hPQ : ∀ o, Q o ↔ P o) : Framed frames Q :=
  ⟨h.sorted, h.pos, fun o => (hPQ o).trans (h.mem o)⟩

theorem nil (hP : ∀ o, ¬ P o) : Framed [] P :=
  ⟨List.Pairwise.nil, fun _ h => absurd h List.not_mem_nil, fun o =>
    ⟨fun h => absurd h (hP o), fun h => absurd h not_covered_nil⟩⟩

/-- The frames behind the first one. -/
theorem tail (h : Framed (e :: frames) P) : Framed frames (Covered (frames.map span)) :=
  ⟨(List.pairwise_cons.1 h.sorted).2, fun x hx => h.pos x (List.mem_cons_of_mem _ hx),
    fun _ => Iff.rfl⟩

/-- **A frame of new bytes** is added. -/
theorem insert (h : Framed frames P) (info : FrameInfo) (hpos : 0 < info.length)
    (hnew : ∀ o, P o → ¬ (offset ≤ o ∧ o < offset + info.length)) :
    Framed (insertFrame offset info frames)
      (fun o => P o ∨ offset ≤ o ∧ o < offset + info.length) := by
  induction frames generalizing P with
  | nil =>
    refine ⟨List.pairwise_singleton _ _, fun x hx => ?_, fun o => ?_⟩
    · obtain rfl := List.mem_singleton.1 hx
      exact hpos
    · show _ ↔ Covered [(offset, offset + info.length)] o
      rw [h.mem o, covered_cons]
      exact or_comm
  | cons e frames ih =>
    have hfirst : P e.1 := by
      rw [h.mem, List.map_cons, covered_cons]
      exact .inl ⟨le_rfl, Nat.lt_add_of_pos_right (h.pos e (List.mem_cons_self ..))⟩
    have hhead := (List.pairwise_cons.1 h.sorted).1
    unfold insertFrame
    split_ifs with hlt heq
    · have hend : offset + info.length ≤ e.1 := by
        by_contra hc
        exact hnew e.1 hfirst ⟨hlt.le, by omega⟩
      refine ⟨List.pairwise_cons.2 ⟨fun x hx => ?_, h.sorted⟩, fun x hx => ?_, fun o => ?_⟩
      · rcases List.mem_cons.1 hx with rfl | hx
        · exact hend
        · have := hhead x hx
          show offset + info.length ≤ x.1
          omega
      · rcases List.mem_cons.1 hx with rfl | hx
        · exact hpos
        · exact h.pos x hx
      · show _ ↔ Covered ((offset, offset + info.length) :: (e :: frames).map span) o
        rw [h.mem o, covered_cons]
        exact or_comm
    · exact absurd ⟨heq.le, by omega⟩ (hnew e.1 hfirst)
    · have hend : e.1 + e.2.length ≤ offset := by
        by_contra hc
        refine hnew offset ?_ ⟨le_rfl, by omega⟩
        rw [h.mem, List.map_cons, covered_cons]
        exact .inl ⟨show e.1 ≤ offset by omega, show offset < e.1 + e.2.length by omega⟩
      have hrest := ih h.tail fun o ho => hnew o (by
        rw [h.mem, List.map_cons, covered_cons]
        exact .inr ho)
      refine ⟨List.pairwise_cons.2 ⟨fun x hx => ?_, hrest.sorted⟩, fun x hx => ?_, fun o => ?_⟩
      · -- What begins later is covered, or it is the new frame.
        have hx' := (hrest.mem x.1).2 ⟨span x, List.mem_map_of_mem hx, le_rfl,
          Nat.lt_add_of_pos_right (hrest.pos x hx)⟩
        rcases hx' with ⟨s, hs, hin⟩ | hin
        · obtain ⟨y, hy, rfl⟩ := List.mem_map.1 hs
          have hle : y.1 ≤ x.1 := hin.1
          have := hhead y hy
          omega
        · omega
      · rcases List.mem_cons.1 hx with rfl | hx
        · exact h.pos x (List.mem_cons_self ..)
        · exact hrest.pos x hx
      · rw [h.mem o, List.map_cons, covered_cons, List.map_cons, covered_cons, or_assoc]
        exact or_congr_right (hrest.mem o)

/-- The passes of the loop of `UpdateFrameArrivalMap`: only the last of the entries can go beyond
`offset`. -/
theorem foldl_passFrame (h : Framed (old ++ rest) P) (hold : ∀ e ∈ old, e.1 ≤ offset)
    (hrest : ∀ e ∈ rest, offset < e.1) :
    ((∀ e ∈ old, e.1 + e.2.length ≤ offset) ∧ old.foldl (passFrame offset) (old ++ rest) = rest) ∨
      ∃ before e, old = before ++ [e] ∧ (∀ x ∈ before, x.1 + x.2.length ≤ offset) ∧
        offset < e.1 + e.2.length ∧ old.foldl (passFrame offset) (old ++ rest) =
          (offset, ⟨e.1 + e.2.length - offset, e.2.timestamp⟩) :: rest := by
  induction old generalizing P with
  | nil => exact .inl ⟨fun e he => absurd he List.not_mem_nil, rfl⟩
  | cons e old ih =>
    have hhead := (List.pairwise_cons.1 h.sorted).1
    have hepos := h.pos e (List.mem_cons_self ..)
    have hfilter : (e :: old ++ rest).filter (fun e' => decide (e'.1 ≠ e.1)) = old ++ rest := by
      rw [List.cons_append, List.filter_cons_of_neg (by simp), List.filter_eq_self]
      intro x hx
      have := hhead x hx
      exact decide_eq_true (by omega)
    rw [List.foldl_cons]
    unfold passFrame
    dsimp only
    rw [hfilter]
    split_ifs with hlt
    · -- Nothing that begins before `offset` follows.
      obtain rfl : old = [] := by
        refine List.eq_nil_iff_forall_not_mem.2 fun x hx => ?_
        have := hhead x (List.mem_append_left _ hx)
        have := hold x (List.mem_cons_of_mem _ hx)
        omega
      refine .inr ⟨[], e, rfl, fun x hx => absurd hx List.not_mem_nil, hlt, ?_⟩
      show insertFrame offset _ rest = _
      cases rest with
      | nil => rfl
      | cons x rest => exact if_pos (hrest x (List.mem_cons_self ..))
    · have hold' : ∀ x ∈ old, x.1 ≤ offset := fun x hx => hold x (List.mem_cons_of_mem _ hx)
      rcases ih h.tail hold' with ⟨hall, heq⟩ | ⟨before, x, rfl, hall, hx, heq⟩
      · refine .inl ⟨fun x hx => ?_, heq⟩
        rcases List.mem_cons.1 hx with rfl | hx
        · omega
        · exact hall x hx
      · refine .inr ⟨e :: before, x, rfl, fun y hy => ?_, hx, heq⟩
        rcases List.mem_cons.1 hy with rfl | hy
        · omega
        · exact hall y hy

/-- **What has been read is cut off.** -/
theorem update (h : Framed frames P) :
    Framed (updateFrameArrivalMap frames offset) (fun o => P o ∧ offset ≤ o) := by
  have hsplit := List.takeWhile_append_dropWhile
    (p := fun e : ℕ × FrameInfo => decide (e.1 ≤ offset)) (l := frames)
  have hold : ∀ e ∈ frames.takeWhile fun e => decide (e.1 ≤ offset), e.1 ≤ offset := by
    intro e he
    have := List.mem_takeWhile_imp (p := fun e : ℕ × FrameInfo => decide (e.1 ≤ offset)) he
    exact of_decide_eq_true this
  have hsorted : (frames.dropWhile fun e => decide (e.1 ≤ offset)).Pairwise
      fun e e' => e.1 + e.2.length ≤ e'.1 :=
    h.sorted.sublist (List.dropWhile_sublist _)
  have hrest : ∀ e ∈ frames.dropWhile fun e => decide (e.1 ≤ offset), offset < e.1 := by
    cases hd : frames.dropWhile fun e => decide (e.1 ≤ offset) with
    | nil => exact fun e he => absurd he List.not_mem_nil
    | cons e l =>
      have he := List.head_dropWhile_not (fun e : ℕ × FrameInfo => decide (e.1 ≤ offset))
        (l := frames) (by rw [hd]; exact List.cons_ne_nil _ _)
      simp only [hd, List.head_cons] at he
      have he' := not_le.1 (of_decide_eq_false he)
      intro x hx
      rcases List.mem_cons.1 hx with rfl | hx
      · exact he'
      · rw [hd] at hsorted
        have := (List.pairwise_cons.1 hsorted).1 x hx
        omega
  unfold updateFrameArrivalMap
  generalize frames.takeWhile (fun e => decide (e.1 ≤ offset)) = old at *
  generalize frames.dropWhile (fun e => decide (e.1 ≤ offset)) = rest at *
  subst hsplit
  have hpos : ∀ e ∈ rest, 0 < e.2.length := fun e he => h.pos e (List.mem_append_right _ he)
  have hcover : ∀ o, Covered (rest.map span) o → offset ≤ o := by
    rintro o ⟨s, hs, hin⟩
    obtain ⟨e, he, rfl⟩ := List.mem_map.1 hs
    exact (hrest e he).le.trans hin.1
  have hmem : ∀ o, P o ∧ offset ≤ o ↔
      (Covered (old.map span) o ∧ offset ≤ o) ∨ Covered (rest.map span) o := by
    intro o
    rw [h.mem o, List.map_append, covered_append, or_and_right]
    exact or_congr_right (and_iff_left_of_imp (hcover o))
  have hgone : ∀ l : List (ℕ × FrameInfo), (∀ e ∈ l, e.1 + e.2.length ≤ offset) →
      ∀ o, ¬ (Covered (l.map span) o ∧ offset ≤ o) := by
    rintro l hl o ⟨⟨s, hs, hin⟩, ho⟩
    obtain ⟨e, he, rfl⟩ := List.mem_map.1 hs
    have hlt : o < e.1 + e.2.length := hin.2
    have := hl e he
    omega
  rcases h.foldl_passFrame hold hrest with ⟨hall, heq⟩ | ⟨before, e, rfl, hall, hlt, heq⟩
  · rw [heq]
    refine ⟨hsorted, hpos, fun o => (hmem o).trans ?_⟩
    exact or_iff_right (hgone old hall o)
  · rw [heq]
    have hle := hold e (by simp)
    refine ⟨List.pairwise_cons.2 ⟨fun x hx => ?_, hsorted⟩, fun x hx => ?_, fun o => ?_⟩
    · show offset + (e.1 + e.2.length - offset) ≤ x.1
      have := (List.pairwise_append.1 h.sorted).2.2 e (by simp) x hx
      omega
    · rcases List.mem_cons.1 hx with rfl | hx
      · show 0 < e.1 + e.2.length - offset
        omega
      · exact hpos x hx
    · rw [hmem o, List.map_append, covered_append, or_and_right]
      have hnone := hgone before hall o
      have hone : Covered ([e].map span) o ∧ offset ≤ o ↔
          offset ≤ o ∧ o < offset + (e.1 + e.2.length - offset) := by
        show Covered [(e.1, e.1 + e.2.length)] o ∧ offset ≤ o ↔ _
        rw [covered_cons]
        simp only [not_covered_nil, or_false]
        omega
      rw [or_iff_right hnone, hone, List.map_cons, covered_cons]
      rfl

end Framed

end Reassembly
end QuicNs3
