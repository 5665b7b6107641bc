/-
# Reading from the blocks

`Stored content b` is the invariant of the buffer: the unread bytes are in the blocks, each block
has one of them, and `num_bytes_buffered_` counts them.  A pass of the loops of `Readv` and
`MarkConsumed` takes bytes from one block and deletes it if they were the last ones in it
(`Stored.advance`, `Stored.retire`).  Whether they were is decided from the two ends of what is
left: a block that is left and entered again is entered for good (`Ring.not_left_twice`).
-/

import QuicNs3.Reassembly.Store
import Mathlib.Order.Interval.Finset.Nat

namespace QuicNs3
namespace Reassembly

open Lib Streams

variable {content : ℕ → UInt8} {b b' b'' : Buffer} {P Q : ℕ → Prop} {o n m i start fuel : ℕ}
  {g : ℕ × ℕ} {rest : List (ℕ × ℕ)}

/-- **The invariant of the buffer.** -/
structure Stored (content : ℕ → UInt8) (b : Buffer) : Prop where
  gapped : Gapped b
  holds : Holds content b b.Unread
  count : b.numBytesBuffered = {o | b.Unread o}.ncard

/-- The buffer `b'` is `b` after `n` bytes have been read from it. -/
structure Reads (content : ℕ → UInt8) (b : Buffer) (n : ℕ) (b' : Buffer) : Prop where
  stored : Stored content b'
  totalBytesRead : b'.totalBytesRead = b.totalBytesRead + n
  gaps : b'.gaps = b.gaps
  capacity : b'.maxBufferCapacityBytes = b.maxBufferCapacityBytes
  frames : b'.frameArrivalTimeMap = b.frameArrivalTimeMap

theorem Reads.refl (h : Stored content b) : Reads content b 0 b := ⟨h, rfl, rfl, rfl, rfl⟩

theorem Reads.trans (h : Reads content b n b') (h' : Reads content b' m b'') :
    Reads content b (n + m) b'' where
  stored := h'.stored
  totalBytesRead := by rw [h'.totalBytesRead, h.totalBytesRead, Nat.add_assoc]
  gaps := h'.gaps.trans h.gaps
  capacity := h'.capacity.trans h.capacity
  frames := h'.frames.trans h.frames

/-! ## Advancing -/

/-- What is unread after `n` bytes have been read. -/
theorem unread_advance : (b.advance n).Unread o ↔ b.Unread o ∧ b.totalBytesRead + n ≤ o := by
  unfold Buffer.Unread Buffer.advance
  constructor
  · rintro ⟨h₁, h₂, h₃⟩
    exact ⟨⟨(Nat.le_add_right ..).trans h₁, h₂, h₃⟩, h₁⟩
  · rintro ⟨⟨-, h₂, h₃⟩, h₁⟩
    exact ⟨h₁, h₂, h₃⟩

theorem Gapped.advance (h : Gapped b) (hn : n ≤ b.readableBytes) : Gapped (b.advance n) where
  capacity := h.capacity
  separated := h.separated
  ge := by
    intro g hg
    have := h.add_readableBytes_le hg
    show b.totalBytesRead + n ≤ g.1
    omega
  room := by
    intro g hg
    have := h.room g hg
    show g.1 ≤ b.totalBytesRead + n + b.maxBufferCapacityBytes
    omega
  fits := h.fits
  last := h.last

theorem ncard_Ico (a n : ℕ) : (Set.Ico a (a + n)).ncard = n := by
  rw [← Finset.coe_Ico, Set.ncard_coe_finset, Nat.card_Ico, Nat.add_sub_cancel_left]

/-- **The counter** follows what is unread. -/
theorem Stored.count_advance (h : Stored content b) (hn : n ≤ b.readableBytes) :
    (b.advance n).numBytesBuffered = {o | (b.advance n).Unread o}.ncard := by
  have hG := h.gapped
  have hsplit : {o | b.Unread o} =
      Set.Ico b.totalBytesRead (b.totalBytesRead + n) ∪ {o | (b.advance n).Unread o} := by
    ext o
    show b.Unread o ↔ (b.totalBytesRead ≤ o ∧ o < b.totalBytesRead + n) ∨ (b.advance n).Unread o
    rw [unread_advance]
    constructor
    · intro ho
      rcases lt_or_ge o (b.totalBytesRead + n) with hlt | hge
      · exact .inl ⟨ho.1, hlt⟩
      · exact .inr ⟨ho, hge⟩
    · rintro (ho | ho)
      · exact hG.unread_of_readable ho.1 (by omega)
      · exact ho.1
  have hdisj : Disjoint (Set.Ico b.totalBytesRead (b.totalBytesRead + n))
      {o | (b.advance n).Unread o} := by
    rw [Set.disjoint_left]
    intro o ho ho'
    have := (unread_advance.1 ho').2
    have := ho.2
    omega
  have hfinite : {o | (b.advance n).Unread o}.Finite := (hG.advance hn).finite_unread
  have hcount := h.count
  rw [hsplit, Set.ncard_union_eq hdisj (Set.finite_Ico _ _) hfinite, ncard_Ico] at hcount
  -- No counter of unread bytes is larger than the ring.
  have hlt : b.numBytesBuffered < 2 ^ 64 := by
    have hsub : {o | b.Unread o} ⊆
        Set.Ico b.totalBytesRead (b.totalBytesRead + b.maxBufferCapacityBytes) :=
      fun o ho => ⟨ho.1, hG.lt_window ho⟩
    have hle := Set.ncard_le_ncard hsub (Set.finite_Ico _ _)
    rw [ncard_Ico, ← h.count] at hle
    obtain ⟨f, l, hl⟩ := hG.exists_cons
    have := hG.fits f (hl ▸ List.mem_cons_self ..)
    omega
  show wrapSub b.numBytesBuffered n = _
  rw [wrapSub_eq (by omega) hlt]
  omega

/-! ## Deleting blocks -/

/-- The offsets that are gone were all in the block `i`, and it is deleted. -/
theorem Holds.retire (h : Holds content b P) (hQP : ∀ o, Q o → P o)
    (hi : ∀ o, Q o → b.getBlockIndex o ≠ i)
    (hgone : ∀ o, P o → ¬ Q o → b.getBlockIndex o = i) :
    Holds content { b with blocks := Function.update b.blocks i none } Q where
  allocated := by
    intro ha j
    show Function.update b.blocks i none j = none
    by_cases hj : j = i
    · rw [hj, Function.update_self]
    · rw [Function.update_of_ne hj]
      exact h.allocated ha j
  bytes := by
    intro o ho
    show ∃ block, Function.update b.blocks i none (b.getBlockIndex o) = some block ∧ _
    rw [Function.update_of_ne (hi o ho)]
    exact h.bytes o (hQP o ho)
  used := by
    intro j block hj
    change Function.update b.blocks i none j = some block at hj
    by_cases hji : j = i
    · rw [hji, Function.update_self] at hj
      exact absurd hj (by simp)
    · rw [Function.update_of_ne hji] at hj
      obtain ⟨o, ho, hoj⟩ := h.used j block hj
      refine ⟨o, ?_, hoj⟩
      by_contra hQ
      exact hji (hoj.symm.trans (hgone o ho hQ))

/-- The offsets that are gone were all in the block `i`, and it has another one. -/
theorem Holds.keep (h : Holds content b P) (hQP : ∀ o, Q o → P o)
    (hi : ∃ o, Q o ∧ b.getBlockIndex o = i)
    (hgone : ∀ o, P o → ¬ Q o → b.getBlockIndex o = i) : Holds content b Q where
  allocated := h.allocated
  bytes := fun o ho => h.bytes o (hQP o ho)
  used := by
    intro j block hj
    obtain ⟨o, ho, hoj⟩ := h.used j block hj
    by_cases hQ : Q o
    · exact ⟨o, hQ, hoj⟩
    · obtain ⟨o', hQ', ho'⟩ := hi
      exact ⟨o', hQ', ho'.trans ((hgone o ho hQ).symm.trans hoj)⟩

section Pass

variable (h : Stored content b) (hpos : 0 < n) (hn : n ≤ b.availableInBlock)

include h hn

/-- What is taken from a block lies in it. -/
theorem Stored.place_of_lt {k : ℕ} (hk : k < n) :
    b.getBlockIndex (b.totalBytesRead + k) = b.nextBlockToRead ∧
      b.getInBlockOffset (b.totalBytesRead + k) = b.readOffset + k := by
  refine Ring.place_add h.gapped.capacity_pos (by decide) ?_
  have : n ≤ b.getBlockCapacity b.nextBlockToRead - b.readOffset :=
    hn.trans (Nat.min_le_right _ _)
  show k < b.getBlockCapacity b.nextBlockToRead - b.readOffset
  omega

theorem Stored.gone {o : ℕ} (ho : b.Unread o) (hgone : ¬ (b.advance n).Unread o) :
    b.getBlockIndex o = b.nextBlockToRead := by
  have hlt : o < b.totalBytesRead + n := by
    by_contra hle
    exact hgone (unread_advance.2 ⟨ho, not_lt.1 hle⟩)
  obtain ⟨k, rfl⟩ := Nat.exists_eq_add_of_le ho.1
  exact (h.place_of_lt hn (by omega)).1

theorem Stored.slice_eq {block : BufferBlock} (hb : b.blocks b.nextBlockToRead = some block) :
    block.slice b.readOffset n = BufferBlock.slice content b.totalBytesRead n := by
  unfold BufferBlock.slice
  refine List.map_congr_left fun k hk => ?_
  have hk' := List.mem_range.1 hk
  have hle : n ≤ b.readableBytes := hn.trans (Nat.min_le_left _ _)
  obtain ⟨hidx, hin⟩ := h.place_of_lt hn hk'
  obtain ⟨x, hx, hxo⟩ :=
    h.holds.bytes _ (h.gapped.unread_of_readable (Nat.le_add_right b.totalBytesRead k) (by omega))
  rw [hidx, hb] at hx
  obtain rfl := Option.some.inj hx
  rw [← hin, hxo]

/-- **Bytes are read, and not all of what can be read from the block.** -/
theorem Stored.advance (hlt : n < b.availableInBlock) : Reads content b n (b.advance n) := by
  have hle : n ≤ b.readableBytes := hn.trans (Nat.min_le_left _ _)
  have hlt' : n < b.readableBytes := hlt.trans_le (Nat.min_le_left _ _)
  refine ⟨⟨h.gapped.advance hle, ?_, h.count_advance hle⟩, rfl, rfl, rfl, rfl⟩
  have hkeep : Holds content b (b.advance n).Unread := by
    refine h.holds.keep (i := b.nextBlockToRead) (fun o ho => (unread_advance.1 ho).1)
      ⟨b.totalBytesRead + n, ?_, ?_⟩ fun o => h.gone hn
    · exact unread_advance.2
        ⟨h.gapped.unread_of_readable (Nat.le_add_right _ _) (by omega), le_rfl⟩
    · exact (h.place_of_lt (Nat.succ_le_of_lt hlt) (Nat.lt_succ_self n)).1
  exact hkeep.congr (fun _ => Iff.rfl) rfl rfl rfl

include hpos

/-- **Bytes are read, and all of what can be read from the block.** -/
theorem Stored.retire (heq : n = b.availableInBlock) :
    ∃ b', (b.advance n).retireBlockIfEmpty b.nextBlockToRead = some b' ∧ Reads content b n b' := by
  have hle : n ≤ b.readableBytes := hn.trans (Nat.min_le_left _ _)
  have hG := h.gapped
  have hG' := hG.advance hle
  have hsub : ∀ o, (b.advance n).Unread o → b.Unread o := fun o ho => (unread_advance.1 ho).1
  obtain ⟨before, start, hlast⟩ := hG.last
  obtain ⟨f, l, hfirst⟩ := hG.exists_cons
  have hlastD : ((b.advance n).gaps.getLastD (0, kMaxOffset)).1 = start := by
    show (b.gaps.getLastD (0, kMaxOffset)).1 = start
    rw [hlast]
    simp
  have hheadD : ((b.advance n).gaps.headD (0, kMaxOffset)) = f := by
    show b.gaps.headD (0, kMaxOffset) = f
    rw [hfirst]
    rfl
  have hreads : ∀ blocks, Holds content { b.advance n with blocks := blocks } (b.advance n).Unread →
      Reads content b n { b.advance n with blocks := blocks } := fun blocks hblocks =>
    ⟨⟨⟨hG'.capacity, hG'.separated, hG'.ge, hG'.room, hG'.fits, hG'.last⟩, hblocks,
      h.count_advance hle⟩, rfl, rfl, rfl, rfl⟩
  -- The two ways in which the decision can go.
  have hretire : (∀ o, (b.advance n).Unread o → b.getBlockIndex o ≠ b.nextBlockToRead) →
      ∃ b', (b.advance n).retireBlock b.nextBlockToRead = some b' ∧ Reads content b n b' := by
    intro hi
    obtain ⟨block, hblock, -⟩ :=
      h.holds.bytes b.totalBytesRead (hG.unread_of_readable le_rfl (by omega))
    have hsome : (b.advance n).block? b.nextBlockToRead = some block :=
      (h.holds.block?_eq _).trans hblock
    refine ⟨{ b.advance n with blocks := Function.update b.blocks b.nextBlockToRead none },
      by rw [Buffer.retireBlock, hsome]; rfl, hreads _ ?_⟩
    exact (h.holds.retire hsub hi fun o => h.gone hn).congr (fun _ => Iff.rfl) rfl rfl rfl
  have hkeep : (∃ o, (b.advance n).Unread o ∧ b.getBlockIndex o = b.nextBlockToRead) →
      Reads content b n (b.advance n) := fun hi =>
    hreads b.blocks ((h.holds.keep hsub hi fun o => h.gone hn).congr (fun _ => Iff.rfl) rfl rfl rfl)
  -- If the read ends within the block, it ends at the first gap.
  have hgap : b.getBlockIndex (b.totalBytesRead + n) = b.nextBlockToRead →
      f.1 = b.totalBytesRead + n := by
    intro hidx
    have hge := hG.ge f (hfirst ▸ List.mem_cons_self ..)
    have hreadable := hG.readableBytes_eq hfirst
    have hin : b.readOffset < b.getBlockCapacity b.nextBlockToRead :=
      Ring.inBlock_lt_blockCapacity hG.capacity_pos (by decide)
    by_contra hne
    refine Ring.blockIndex_ne_of_end hG.capacity (by decide) ?_ hidx
    show b.readOffset + n = b.getBlockCapacity b.nextBlockToRead
    unfold Buffer.availableInBlock at heq
    omega
  unfold Buffer.retireBlockIfEmpty
  rw [hlastD, hheadD]
  split_ifs with hempty hend hnext
  · exact hretire fun o ho => absurd ho (hG'.not_unread_of_empty hempty)
  · refine ⟨_, rfl, hkeep ⟨start - 1, ?_, hend⟩⟩
    exact (hG'.unread_last hlast (Bool.eq_false_iff.2 hempty)).1
  · refine ⟨_, rfl, hkeep ⟨f.2, ?_, hnext.2⟩⟩
    have hfeq := hgap hnext.1
    cases l with
    | nil =>
      have hsingle : (b.advance n).empty = _ := empty_of_singleton hfirst
      exact absurd (hsingle.trans (decide_eq_true hfeq)) hempty
    | cons f' l => exact hG'.unread_end (show b.gaps = [] ++ f :: f' :: l from hfirst)
  · refine hretire fun o ho hidx => ?_
    have hlast' := (hG'.unread_last hlast (Bool.eq_false_iff.2 hempty)).1
    have holt := lt_of_unread hlast (hsub o ho)
    have hwindow := hG.lt_window (hsub _ hlast')
    have hro := (unread_advance.1 ho).2
    have hlastplace : b.getBlockIndex (b.totalBytesRead + (n - 1)) = b.nextBlockToRead :=
      (h.place_of_lt hn (by omega)).1
    -- The block is left at `x`, entered again at `o` and left again before the last byte.
    have hx : ∃ x, b.totalBytesRead + (n - 1) ≤ x ∧ x ≤ o ∧
        b.getBlockIndex x ≠ b.nextBlockToRead := by
      by_cases hidx' : b.getBlockIndex (b.totalBytesRead + n) = b.nextBlockToRead
      · have hfeq := hgap hidx'
        have hlt := hG.separated.lt f (hfirst ▸ List.mem_cons_self ..)
        refine ⟨f.2, by omega, ?_, fun hf => hnext ⟨hidx', hf⟩⟩
        by_contra hlt'
        refine (hsub o ho).2.2 ?_
        rw [hfirst, covered_cons]
        exact .inl ⟨by omega, by omega⟩
      · exact ⟨_, by omega, hro, hidx'⟩
    obtain ⟨x, hyx, hxo, hxidx⟩ := hx
    refine Ring.not_left_twice b.maxBufferCapacityBytes kBlockSizeBytes hyx hxo
      (show o ≤ start - 1 by omega) (by omega) ?_ ?_ ?_
    · exact fun hc => hxidx (hc.trans hlastplace)
    · exact hidx.trans hlastplace.symm
    · exact fun hc => hend (hc.trans hlastplace)

end Pass

end Reassembly
end QuicNs3
