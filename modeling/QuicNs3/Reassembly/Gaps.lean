/-
# Which bytes are there

A byte is `Unread` if it lies behind what has been read and in none of the gaps.  The gaps are
`Gapped`: they do not touch each other, they begin in the window that the ring holds, and the
last one has no end.  What can be read at once reaches up to the first gap, and where something
is left to read, the byte before the last gap is (`Gapped.unread_last`).

Writing into a gap leaves its other parts (`Gapped.fill`), so that the unread bytes are those
that were, and the new ones.
-/

import QuicNs3.Lib.Intervals
import QuicNs3.Reassembly.Basic
import Mathlib.Data.List.TakeWhile
import Mathlib.Data.Set.Card

namespace QuicNs3
namespace Reassembly

open Lib Streams

variable {b b' : Buffer} {o offset size n start : ℕ} {g f : ℕ × ℕ}
  {before after rest : List (ℕ × ℕ)}

/-- A byte that has arrived and not been read. -/
def Buffer.Unread (b : Buffer) (o : ℕ) : Prop :=
  b.totalBytesRead ≤ o ∧ o < kMaxOffset ∧ ¬ Covered b.gaps o

/-- A byte that has arrived, or has been flushed. -/
def Buffer.Arrived (b : Buffer) (o : ℕ) : Prop := o < b.totalBytesRead ∨ b.Unread o

/-- **The gaps of a buffer.** -/
structure Gapped (b : Buffer) : Prop where
  capacity : kBlockSizeBytes < b.maxBufferCapacityBytes
  separated : Separated b.gaps
  ge : ∀ g ∈ b.gaps, b.totalBytesRead ≤ g.1
  room : ∀ g ∈ b.gaps, g.1 ≤ b.totalBytesRead + b.maxBufferCapacityBytes
  fits : ∀ g ∈ b.gaps, g.1 + b.maxBufferCapacityBytes < 2 ^ 64
  last : ∃ before start, b.gaps = before ++ [(start, kMaxOffset)]

/-- What has not arrived lies in a gap. -/
theorem Gapped.arrived_iff (h : Gapped b) (ho : o < kMaxOffset) :
    b.Arrived o ↔ ¬ Covered b.gaps o := by
  constructor
  · rintro (hlt | hun) hc
    · obtain ⟨g, hg, hin⟩ := hc
      have := h.ge g hg
      omega
    · exact hun.2.2 hc
  · intro hc
    rcases Nat.lt_or_ge o b.totalBytesRead with hlt | hge
    · exact .inl hlt
    · exact .inr ⟨hge, ho, hc⟩

theorem lt_of_unread (hl : b.gaps = before ++ [(start, kMaxOffset)]) (ho : b.Unread o) :
    o < start := by
  by_contra hle
  refine ho.2.2 ?_
  rw [hl, covered_append, covered_cons]
  exact .inr (.inl ⟨not_lt.1 hle, ho.2.1⟩)

theorem empty_of_singleton (hl : b.gaps = [g]) :
    b.empty = decide (g.1 = b.totalBytesRead) := by
  unfold Buffer.empty
  rw [hl]

namespace Gapped

theorem capacity_pos (h : Gapped b) : 0 < b.maxBufferCapacityBytes :=
  (Nat.zero_le _).trans_lt h.capacity

theorem exists_cons (h : Gapped b) : ∃ g rest, b.gaps = g :: rest := by
  obtain ⟨before, start, hl⟩ := h.last
  cases before with
  | nil => exact ⟨_, _, hl⟩
  | cons g before => exact ⟨_, _, hl⟩

/-- The first gap begins first. -/
theorem head_le (h : Gapped b) (hl : b.gaps = g :: rest) (hf : f ∈ b.gaps) : g.1 ≤ f.1 := by
  have hsep := h.separated
  rw [hl] at hsep hf
  rcases List.mem_cons.1 hf with rfl | hf
  · exact le_rfl
  · have := (List.pairwise_cons.1 hsep.apart).1 f hf
    have := hsep.lt g (List.mem_cons_self ..)
    omega

theorem readableBytes_eq (h : Gapped b) (hl : b.gaps = g :: rest) :
    b.readableBytes = g.1 - b.totalBytesRead := by
  have hg : g ∈ b.gaps := hl ▸ List.mem_cons_self ..
  have hge := h.ge g hg
  have hfits := h.fits g hg
  unfold Buffer.readableBytes SequencerBuffer.readableBytes Buffer.sequence
  rw [hl]
  show wrapSub g.1 b.totalBytesRead = _
  exact wrapSub_eq hge (by omega)

/-- What can be read lies in front of every gap. -/
theorem add_readableBytes_le (h : Gapped b) (hg : g ∈ b.gaps) :
    b.totalBytesRead + b.readableBytes ≤ g.1 := by
  obtain ⟨f, rest, hl⟩ := h.exists_cons
  have hle := h.head_le hl hg
  have hge := h.ge f (hl ▸ List.mem_cons_self ..)
  rw [h.readableBytes_eq hl]
  omega

theorem unread_of_readable (h : Gapped b) (ho : b.totalBytesRead ≤ o)
    (hlt : o < b.totalBytesRead + b.readableBytes) : b.Unread o := by
  refine ⟨ho, ?_, ?_⟩
  · obtain ⟨g, rest, hl⟩ := h.exists_cons
    have hg : g ∈ b.gaps := hl ▸ List.mem_cons_self ..
    have := h.add_readableBytes_le hg
    have := h.fits g hg
    unfold kMaxOffset
    omega
  · rintro ⟨g, hg, hin⟩
    have := h.add_readableBytes_le hg
    omega

/-- Unread bytes lie in the window of the ring. -/
theorem lt_window (h : Gapped b) (ho : b.Unread o) :
    o < b.totalBytesRead + b.maxBufferCapacityBytes := by
  obtain ⟨before, start, hl⟩ := h.last
  have := lt_of_unread hl ho
  have : start ≤ _ := h.room (start, kMaxOffset) (by simp [hl])
  omega

theorem finite_unread (h : Gapped b) : {o | b.Unread o}.Finite :=
  (Set.finite_lt_nat (b.totalBytesRead + b.maxBufferCapacityBytes)).subset fun _ ho =>
    h.lt_window ho

/-- The end of a gap other than the last one is a byte that has arrived. -/
theorem unread_end (h : Gapped b) (hl : b.gaps = before ++ g :: f :: after) : b.Unread g.2 := by
  have hsep := h.separated
  have hfits := h.fits f (by simp [hl])
  have hge := h.ge g (by simp [hl])
  rw [hl] at hsep
  have hlt := hsep.lt g (by simp)
  have hgf := hsep.lt_of_mem (List.mem_cons_self ..)
  refine ⟨by omega, by unfold kMaxOffset; omega, ?_⟩
  rintro ⟨x, hx, hin⟩
  rw [hl] at hx
  rcases List.mem_append.1 hx with hx | hx
  · have := hsep.lt_of_mem_before hx
    omega
  · rcases List.mem_cons.1 hx with rfl | hx
    · omega
    · have := hsep.lt_of_mem hx
      omega

/-- **The byte before the last gap** has arrived, unless there is nothing. -/
theorem unread_last (h : Gapped b) (hl : b.gaps = before ++ [(start, kMaxOffset)])
    (hne : b.empty = false) : b.Unread (start - 1) ∧ 0 < start := by
  have hmem : (start, kMaxOffset) ∈ b.gaps := by simp [hl]
  have hfits : start + _ < _ := h.fits _ hmem
  have hge : _ ≤ start := h.ge _ hmem
  have hsep := h.separated
  rw [hl] at hsep
  have hpos : b.totalBytesRead < start := by
    rcases List.eq_nil_or_concat before with rfl | ⟨l, f, rfl⟩
    · refine lt_of_le_of_ne hge fun heq => ?_
      unfold Buffer.empty at hne
      rw [hl] at hne
      simp [heq] at hne
    · have hf : f ∈ b.gaps := by simp [hl]
      have : f.2 < start := hsep.lt_of_mem_before (by simp)
      have := h.separated.lt f hf
      have := h.ge f hf
      omega
  refine ⟨⟨by omega, by unfold kMaxOffset; omega, ?_⟩, by omega⟩
  rw [hl, covered_append, covered_cons]
  rintro (⟨x, hx, hin⟩ | hin | hin)
  · have : x.2 < start := hsep.lt_of_mem_before hx
    omega
  · have : start ≤ start - 1 := hin.1
    omega
  · exact not_covered_nil hin

/-- Nothing is unread in an empty buffer. -/
theorem not_unread_of_empty (h : Gapped b) (hempty : b.empty = true) : ¬ b.Unread o := by
  intro ho
  obtain ⟨before, start, hl⟩ := h.last
  have hlt := lt_of_unread hl ho
  have hge := ho.1
  unfold Buffer.empty at hempty
  rw [hl] at hempty
  cases before with
  | nil =>
    have : start = b.totalBytesRead := of_decide_eq_true hempty
    omega
  | cons f before => cases before <;> simp at hempty

/-- The gap that a frame at `offset` is compared with. -/
theorem find_gap (h : Gapped b) (hlt : offset < kMaxOffset) :
    ∃ before g after, b.gaps = before ++ g :: after ∧
      (b.gaps.takeWhile fun g => decide (g.2 ≤ offset)) = before ∧
      (b.gaps.dropWhile fun g => decide (g.2 ≤ offset)) = g :: after ∧
      (∀ x ∈ before, x.2 ≤ offset) ∧ offset < g.2 := by
  have hsplit := List.takeWhile_append_dropWhile (p := fun g : ℕ × ℕ => decide (g.2 ≤ offset))
    (l := b.gaps)
  cases hd : b.gaps.dropWhile fun g => decide (g.2 ≤ offset) with
  | nil =>
    obtain ⟨before, start, hl⟩ := h.last
    have := List.dropWhile_eq_nil_iff.1 hd (start, kMaxOffset) (by simp [hl])
    exact absurd (of_decide_eq_true this) (not_le.2 hlt)
  | cons g after =>
    rw [hd] at hsplit
    have hg := List.head_dropWhile_not (fun g : ℕ × ℕ => decide (g.2 ≤ offset)) (l := b.gaps)
      (by rw [hd]; exact List.cons_ne_nil _ _)
    simp only [hd, List.head_cons] at hg
    refine ⟨_, g, after, hsplit.symm, rfl, rfl, fun x hx => ?_, not_le.1 (of_decide_eq_false hg)⟩
    have := List.mem_takeWhile_imp (p := fun g : ℕ × ℕ => decide (g.2 ≤ offset)) hx
    exact of_decide_eq_true this

end Gapped

/-! ## Filling a gap -/

/-- What `UpdateGapList` puts in the place of a gap: the parts of it that have no data. -/
theorem updateGapList_parts (before : List (ℕ × ℕ)) (g : ℕ × ℕ) (after : List (ℕ × ℕ))
    {start stop : ℕ} (h₁ : g.1 ≤ start) (h₂ : start < stop) (h₃ : stop ≤ g.2) :
    ∃ mid, SequencerBuffer.updateGapList before g after start stop = before ++ (mid ++ after) ∧
      Separated mid ∧ (∀ m ∈ mid, g.1 ≤ m.1 ∧ m.2 ≤ g.2 ∧ (m.1 = g.1 ∨ m.1 = stop)) ∧
      (∀ o, Covered mid o ↔ (g.1 ≤ o ∧ o < g.2) ∧ ¬ (start ≤ o ∧ o < stop)) ∧
      (stop < g.2 → ∃ l s, mid = l ++ [(s, g.2)]) := by
  unfold SequencerBuffer.updateGapList
  split_ifs with c₁ c₂ c₃ c₄
  · refine ⟨[(stop, g.2)], rfl, .singleton c₁.2, fun m hm => ?_, fun o => ?_,
      fun _ => ⟨[], stop, rfl⟩⟩
    · obtain rfl := List.mem_singleton.1 hm
      exact ⟨show g.1 ≤ stop by omega, le_rfl, .inr rfl⟩
    · simp only [covered_cons, not_covered_nil, or_false]
      omega
  · refine ⟨[(g.1, start)], rfl, .singleton c₂.1, fun m hm => ?_, fun o => ?_, fun h => by omega⟩
    · obtain rfl := List.mem_singleton.1 hm
      exact ⟨le_rfl, show start ≤ g.2 by omega, .inl rfl⟩
    · simp only [covered_cons, not_covered_nil, or_false]
      omega
  · refine ⟨[(g.1, start), (stop, g.2)], rfl, .pair c₃.1 h₂ c₃.2, fun m hm => ?_, fun o => ?_,
      fun _ => ⟨[(g.1, start)], stop, rfl⟩⟩
    · rcases List.mem_cons.1 hm with rfl | hm
      · exact ⟨le_rfl, show start ≤ g.2 by omega, .inl rfl⟩
      · obtain rfl := List.mem_singleton.1 hm
        exact ⟨show g.1 ≤ stop by omega, le_rfl, .inr rfl⟩
    · simp only [covered_cons, not_covered_nil, or_false]
      omega
  · refine ⟨[], rfl, .nil, fun m hm => absurd hm List.not_mem_nil, fun o => ?_,
      fun h => by omega⟩
    simp only [not_covered_nil, false_iff]
    omega
  · omega

/-- **Data from `offset` to `offset + size` in the gap `g`** leaves the rest of it. -/
theorem Gapped.fill (h : Gapped b) (b' : Buffer) (hl : b.gaps = before ++ g :: after)
    (hsize : 0 < size) (hlo : g.1 ≤ offset) (hhi : offset + size ≤ g.2)
    (hroom : offset + size ≤ b.totalBytesRead + b.maxBufferCapacityBytes)
    (hfits : offset + size + b.maxBufferCapacityBytes < 2 ^ 64)
    (hgaps : b'.gaps = SequencerBuffer.updateGapList before g after offset (offset + size))
    (hread : b'.totalBytesRead = b.totalBytesRead)
    (hcap : b'.maxBufferCapacityBytes = b.maxBufferCapacityBytes) :
    Gapped b' ∧ ∀ o, b'.Unread o ↔ b.Unread o ∨ offset ≤ o ∧ o < offset + size := by
  obtain ⟨mid, hmid, hsepmid, hparts, hcover, hend⟩ :=
    updateGapList_parts before g after hlo (Nat.lt_add_of_pos_right hsize) hhi
  rw [hmid] at hgaps
  have hg : g ∈ b.gaps := by simp [hl]
  have hge := h.ge g hg
  have hpos := h.capacity
  have hsep : Separated (before ++ g :: after) := hl ▸ h.separated
  have hmem : ∀ x ∈ b'.gaps, x ∈ b.gaps ∨ g.1 ≤ x.1 ∧ (x.1 = g.1 ∨ x.1 = offset + size) := by
    intro x hx
    rw [hgaps] at hx
    rw [hl]
    rcases List.mem_append.1 hx with hx | hx
    · exact .inl (List.mem_append_left _ hx)
    · rcases List.mem_append.1 hx with hx | hx
      · exact .inr ⟨(hparts x hx).1, (hparts x hx).2.2⟩
      · exact .inl (List.mem_append_right _ (List.mem_cons_of_mem _ hx))
  refine ⟨⟨hcap ▸ hpos, ?_, fun x hx => ?_, fun x hx => ?_, fun x hx => ?_, ?_⟩, fun o => ?_⟩
  · rw [hgaps]
    exact hsep.replace hsepmid fun m hm => ⟨(hparts m hm).1, (hparts m hm).2.1⟩
  · rw [hread]
    rcases hmem x hx with hx | hx
    · exact h.ge x hx
    · omega
  · rw [hread, hcap]
    rcases hmem x hx with hx | ⟨-, heq | heq⟩
    · exact h.room x hx
    · exact heq ▸ h.room g hg
    · exact heq ▸ hroom
  · rw [hcap]
    rcases hmem x hx with hx | ⟨-, heq | heq⟩
    · exact h.fits x hx
    · exact heq ▸ h.fits g hg
    · exact heq ▸ hfits
  · obtain ⟨init, start, hlast⟩ := h.last
    rw [hl] at hlast
    rcases List.eq_nil_or_concat after with rfl | ⟨l, f, rfl⟩
    · obtain ⟨-, hgeq⟩ := List.append_inj' hlast rfl
      obtain rfl := (List.cons.inj hgeq).1
      obtain ⟨l, s, hs⟩ := hend (by show _ < kMaxOffset; unfold kMaxOffset; omega)
      exact ⟨before ++ l, s, by rw [hgaps, hs]; simp⟩
    · rw [List.concat_eq_append, ← List.cons_append, ← List.append_assoc] at hlast
      obtain ⟨-, hfeq⟩ := List.append_inj' hlast rfl
      obtain rfl := (List.cons.inj hfeq).1
      exact ⟨before ++ (mid ++ l), start, by rw [hgaps]; simp⟩
  · have hnew : Covered b'.gaps o ↔ Covered b.gaps o ∧ ¬ (offset ≤ o ∧ o < offset + size) := by
      rw [hgaps, hl]
      exact hsep.covered_replace (fun o h => by omega) hcover
    unfold Buffer.Unread
    rw [hread, hnew]
    by_cases hin : offset ≤ o ∧ o < offset + size
    · have hmax : o < kMaxOffset := by
        unfold kMaxOffset
        omega
      simp only [hin, hmax, not_true, and_false, not_false_iff, and_true, or_true, iff_true,
        true_and]
      omega
    · simp only [hin, not_false_iff, and_true, or_false]

end Reassembly
end QuicNs3
