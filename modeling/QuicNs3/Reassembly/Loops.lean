/-
# The loops that read

`Readv`, `MarkConsumed` and `GetReadableRegions` go from block to block until a vector is full
or the first gap is reached.  What they pass are the bytes of the stream from
`total_bytes_read_` on, and as many of them as were asked for and can be read.
-/

import QuicNs3.Reassembly.Frames
import QuicNs3.Reassembly.Reading

namespace QuicNs3
namespace Reassembly

open Lib Streams

variable {content : ℕ → UInt8} {b b' : Buffer} {o n m remaining count fuel : ℕ}

theorem slice_append (r n m : ℕ) : BufferBlock.slice content r n ++
    BufferBlock.slice content (r + n) m = BufferBlock.slice content r (n + m) := by
  unfold BufferBlock.slice
  rw [List.range_add, List.map_append, List.map_map]
  congr 1
  exact List.map_congr_left fun k _ => by rw [Function.comp_apply, Nat.add_assoc]

theorem length_slice (r n : ℕ) : (BufferBlock.slice content r n).length = n := by
  unfold BufferBlock.slice
  rw [List.length_map, List.length_range]

theorem Reads.readableBytes (h : Reads content b n b') (hG : Gapped b) :
    b'.readableBytes = b.readableBytes - n := by
  obtain ⟨g, rest, hl⟩ := hG.exists_cons
  rw [h.stored.gapped.readableBytes_eq (h.gaps.trans hl), h.totalBytesRead, hG.readableBytes_eq hl]
  omega

theorem Gapped.availableInBlock_pos (h : Gapped b) (hpos : 0 < b.readableBytes) :
    0 < b.availableInBlock := by
  have : b.readOffset < b.getBlockCapacity b.nextBlockToRead :=
    Ring.inBlock_lt_blockCapacity h.capacity_pos (by decide)
  unfold Buffer.availableInBlock
  omega

/-- A pass of a loop, whether or not it is the last one for the block. -/
theorem Stored.pass (h : Stored content b) (hpos : 0 < n) (hn : n ≤ b.availableInBlock) :
    ∃ b', (if n = b.availableInBlock then (b.advance n).retireBlockIfEmpty b.nextBlockToRead
      else some (b.advance n)) = some b' ∧ Reads content b n b' := by
  split_ifs with heq
  · exact h.retire hpos hn heq
  · exact ⟨_, rfl, h.advance hn (lt_of_le_of_ne hn heq)⟩

/-! ## `Readv` -/

theorem Stored.readBlock (h : Stored content b) (hrem : 0 < remaining)
    (hpos : 0 < b.readableBytes) :
    ∃ n b', b.readBlock remaining = .ok (BufferBlock.slice content b.totalBytesRead n, b') ∧
      Reads content b n b' ∧ 0 < n ∧ n ≤ remaining ∧ n ≤ b.readableBytes := by
  have havail := h.gapped.availableInBlock_pos hpos
  have hle : b.availableInBlock ≤ b.readableBytes := Nat.min_le_left _ _
  have hn : min b.availableInBlock remaining ≤ b.availableInBlock := Nat.min_le_left _ _
  obtain ⟨b', heq, hreads⟩ := h.pass (n := min b.availableInBlock remaining) (by omega) hn
  obtain ⟨block, hblock, -⟩ :=
    h.holds.bytes b.totalBytesRead (h.gapped.unread_of_readable le_rfl (by omega))
  refine ⟨min b.availableInBlock remaining, b', ?_, hreads, by omega, by omega, by omega⟩
  unfold Buffer.readBlock
  dsimp only
  rw [h.holds.block?_eq, show b.blocks b.nextBlockToRead = some block from hblock]
  dsimp only
  rw [h.slice_eq hn hblock]
  split_ifs at heq ⊢
  · rw [heq]
  · rw [Option.some.inj heq]

/-- **The inner loop** fills the vector, or reads all there is. -/
theorem Stored.fillVector (h : Stored content b) (hfuel : remaining ≤ fuel) :
    ∃ b', b.fillVector fuel remaining =
        .ok (BufferBlock.slice content b.totalBytesRead (min remaining b.readableBytes), b') ∧
      Reads content b (min remaining b.readableBytes) b' := by
  induction fuel generalizing b remaining with
  | zero =>
    obtain rfl : remaining = 0 := Nat.le_zero.1 hfuel
    rw [Nat.zero_min]
    exact ⟨b, by unfold Buffer.fillVector; rw [if_pos (.inl rfl)]; rfl, .refl h⟩
  | succ fuel ih =>
    by_cases hstop : remaining = 0 ∨ b.readableBytes = 0
    · have hzero : min remaining b.readableBytes = 0 := by omega
      rw [hzero]
      exact ⟨b, by unfold Buffer.fillVector; rw [if_pos hstop]; rfl, .refl h⟩
    · obtain ⟨n, b', heq, hreads, hpos, hn, hn'⟩ :=
        h.readBlock (show 0 < remaining by omega) (by omega)
      obtain ⟨b'', heq', hreads'⟩ := ih hreads.stored (show remaining - n ≤ fuel by omega)
      rw [hreads.totalBytesRead, hreads.readableBytes h.gapped] at heq'
      rw [hreads.readableBytes h.gapped] at hreads'
      have hsum : n + min (remaining - n) (b.readableBytes - n) =
          min remaining b.readableBytes := by omega
      refine ⟨b'', ?_, hsum ▸ hreads.trans hreads'⟩
      unfold Buffer.fillVector
      rw [if_neg hstop]
      dsimp only
      rw [heq]
      dsimp only
      rw [length_slice, heq']
      dsimp only
      rw [slice_append, hsum]

/-- **The outer loop** fills one vector after the other. -/
theorem Stored.fillVectors (h : Stored content b) (lengths : List ℕ) :
    ∃ vectors b', b.fillVectors lengths = .ok (vectors, b') ∧
      Reads content b (min lengths.sum b.readableBytes) b' ∧
      vectors.flatten =
        BufferBlock.slice content b.totalBytesRead (min lengths.sum b.readableBytes) ∧
      List.Forall₂ (fun v length => v.length ≤ length) vectors (lengths.take vectors.length) := by
  induction lengths generalizing b with
  | nil =>
    rw [List.sum_nil, Nat.zero_min]
    exact ⟨[], b, rfl, .refl h, rfl, .nil⟩
  | cons length lengths ih =>
    unfold Buffer.fillVectors
    by_cases hstop : b.readableBytes = 0
    · rw [if_pos hstop, hstop, Nat.min_zero]
      exact ⟨[], b, rfl, .refl h, rfl, .nil⟩
    · obtain ⟨b', heq, hreads⟩ := h.fillVector (le_refl length)
      obtain ⟨vectors, b'', heq', hreads', hflat, hlens⟩ := ih hreads.stored
      rw [hreads.readableBytes h.gapped] at hreads' hflat
      rw [hreads.totalBytesRead] at hflat
      have hsum : min length b.readableBytes +
          min lengths.sum (b.readableBytes - min length b.readableBytes) =
          min (length :: lengths).sum b.readableBytes := by
        rw [List.sum_cons]
        omega
      rw [if_neg hstop, heq]
      dsimp only
      rw [heq']
      refine ⟨_, b'', rfl, hsum ▸ hreads.trans hreads', ?_, ?_⟩
      · rw [List.flatten_cons, hflat, slice_append, hsum]
      · rw [List.length_cons, List.take_succ_cons]
        refine .cons ?_ hlens
        rw [length_slice]
        exact Nat.min_le_left _ _

/-! ## `MarkConsumed` -/

/-- **The loop of `MarkConsumed`** passes the bytes that are consumed. -/
theorem Stored.consumeBlocks (h : Stored content b) (hn : n ≤ b.readableBytes)
    (hfuel : n ≤ fuel) : ∃ b', b.consumeBlocks fuel n = .ok b' ∧ Reads content b n b' := by
  induction fuel generalizing b n with
  | zero =>
    obtain rfl : n = 0 := Nat.le_zero.1 hfuel
    exact ⟨b, rfl, .refl h⟩
  | succ fuel ih =>
    cases n with
    | zero => exact ⟨b, rfl, .refl h⟩
    | succ n =>
      have havail := h.gapped.availableInBlock_pos (by omega)
      obtain ⟨b', heq, hreads⟩ := h.pass (n := min (n + 1) b.availableInBlock) (by omega)
        (Nat.min_le_right _ _)
      have hrest := hreads.readableBytes h.gapped
      obtain ⟨b'', heq', hreads'⟩ := ih (n := n + 1 - min (n + 1) b.availableInBlock)
        hreads.stored (by omega) (by omega)
      have hsum : min (n + 1) b.availableInBlock + (n + 1 - min (n + 1) b.availableInBlock) =
          n + 1 := by omega
      refine ⟨b'', ?_, hsum ▸ hreads.trans hreads'⟩
      unfold Buffer.consumeBlocks
      dsimp only
      have hpass : (if b.availableInBlock = min (n + 1) b.availableInBlock then
          ((b.advance (min (n + 1) b.availableInBlock)).retireBlockIfEmpty
            b.nextBlockToRead).getD (b.advance (min (n + 1) b.availableInBlock))
          else b.advance (min (n + 1) b.availableInBlock)) = b' := by
        split_ifs at heq ⊢ with h₁ h₂ h₂
        · rw [heq]
          rfl
        · exact absurd h₁.symm h₂
        · exact absurd h₂.symm h₁
        · exact Option.some.inj heq
      rw [hpass]
      exact heq'

/-! ## `GetReadableRegions` -/

/-- The bytes of a block that are passed at once. -/
theorem Stored.region_eq (h : Stored content b) (hpos : 0 < n) (ho : b.totalBytesRead ≤ o)
    (hn : o + n ≤ b.totalBytesRead + b.readableBytes)
    (hin : b.getInBlockOffset o + n ≤ b.getBlockCapacity (b.getBlockIndex o)) :
    b.region (b.getBlockIndex o) (b.getInBlockOffset o) n =
      some (BufferBlock.slice content o n) := by
  obtain ⟨block, hblock, -⟩ := h.holds.bytes o (h.gapped.unread_of_readable ho (by omega))
  unfold Buffer.region
  rw [h.holds.block?_eq, hblock, Option.map_some]
  congr 1
  unfold BufferBlock.slice
  refine List.map_congr_left fun k hk => ?_
  have hk' := List.mem_range.1 hk
  obtain ⟨hidx, hoff⟩ := Ring.place_add (o := o) (k := k) h.gapped.capacity_pos
    (show 0 < kBlockSizeBytes by decide) (by
      show k < b.getBlockCapacity (b.getBlockIndex o) - b.getInBlockOffset o
      omega)
  obtain ⟨x, hx, hxo⟩ := h.holds.bytes (o + k) (h.gapped.unread_of_readable (by omega) (by omega))
  rw [show b.getBlockIndex (o + k) = b.getBlockIndex o from hidx, hblock] at hx
  obtain rfl := Option.some.inj hx
  rw [show b.getInBlockOffset (o + k) = b.getInBlockOffset o + k from hoff] at hxo
  exact hxo

/-- Two offsets of a window in one block, the first at its beginning. -/
theorem Gapped.eq_add_of_same_block (h : Gapped b) (hzero : b.getInBlockOffset o = 0)
    (hle : o ≤ m) (hlt : m < o + b.maxBufferCapacityBytes)
    (hidx : b.getBlockIndex m = b.getBlockIndex o) : m = o + b.getInBlockOffset m := by
  have hin : b.getInBlockOffset m < b.getBlockCapacity (b.getBlockIndex m) :=
    Ring.inBlock_lt_blockCapacity h.capacity_pos (by decide)
  rw [hidx] at hin
  have hsize : b.getBlockCapacity (b.getBlockIndex o) ≤ kBlockSizeBytes :=
    Ring.blockCapacity_le (by decide)
  have hcap := h.capacity
  obtain ⟨hidx', hoff⟩ := Ring.place_add (o := o) (k := b.getInBlockOffset m) h.capacity_pos
    (show 0 < kBlockSizeBytes by decide) (by
      show b.getInBlockOffset m < b.getBlockCapacity (b.getBlockIndex o) - b.getInBlockOffset o
      omega)
  refine Ring.eq_of_place_eq hle (Nat.le_add_right _ _) hlt (by omega)
    (hidx.trans hidx'.symm) ?_
  rw [hoff]
  show b.getInBlockOffset m = b.getInBlockOffset o + b.getInBlockOffset m
  omega

/-- **The loop of `GetReadableRegions`**, at the beginning `o` of a block. -/
theorem Stored.regionsFrom (h : Stored content b) (count : ℕ) {last : ℕ}
    (hlast : last + 1 = b.totalBytesRead + b.readableBytes) (hzero : b.getInBlockOffset o = 0)
    (ho : b.totalBytesRead ≤ o) (hle : o ≤ last) :
    ∃ (regions : List (List UInt8)) (n : ℕ),
      b.regionsFrom (b.getBlockIndex last) (b.getInBlockOffset last) count (b.getBlockIndex o) =
        regions.map some ∧
      regions.flatten = BufferBlock.slice content o n ∧ o + n ≤ last + 1 ∧
      regions.length ≤ count ∧ (regions.length < count → o + n = last + 1) := by
  induction count generalizing o with
  | zero => exact ⟨[], 0, rfl, rfl, by omega, le_rfl, fun hlt => absurd hlt (lt_irrefl _)⟩
  | succ count ih =>
    have hG := h.gapped
    have hwindow := hG.lt_window (hG.unread_of_readable (o := last) (by omega) (by omega))
    have hcap : b.getInBlockOffset o < b.getBlockCapacity (b.getBlockIndex o) :=
      Ring.inBlock_lt_blockCapacity hG.capacity_pos (by decide)
    have hcap' : b.getInBlockOffset last < b.getBlockCapacity (b.getBlockIndex last) :=
      Ring.inBlock_lt_blockCapacity hG.capacity_pos (by decide)
    unfold Buffer.regionsFrom
    split_ifs with hend
    · have heq := hG.eq_add_of_same_block hzero hle (by omega) hend.symm
      refine ⟨[BufferBlock.slice content o (b.getInBlockOffset last + 1)],
        b.getInBlockOffset last + 1, ?_, by simp, by omega, by simp, fun _ => by omega⟩
      rw [← hend] at hcap' ⊢
      have hregion := h.region_eq (o := o) (n := b.getInBlockOffset last + 1) (by omega) ho
        (by omega) (by omega)
      rw [hzero] at hregion
      rw [hregion]
      rfl
    · -- The whole block can be read, or the last byte would be in it.
      have hwhole : o + b.getBlockCapacity (b.getBlockIndex o) ≤ last := by
        by_contra hlt
        obtain ⟨k, rfl⟩ := Nat.exists_eq_add_of_le hle
        refine hend ?_
        exact (Ring.place_add hG.capacity_pos (show 0 < kBlockSizeBytes by decide) (by
          show k < b.getBlockCapacity (b.getBlockIndex o) - b.getInBlockOffset o
          omega)).1.symm
      obtain ⟨hidx, hin⟩ := Ring.place_of_end (o := o)
        (k := b.getBlockCapacity (b.getBlockIndex o)) hG.capacity_pos
        (show 0 < kBlockSizeBytes by decide) (by
          show b.getInBlockOffset o + _ = b.getBlockCapacity (b.getBlockIndex o)
          omega)
      obtain ⟨regions, n, heq, hflat, hn, hlen, hfull⟩ :=
        ih (o := o + b.getBlockCapacity (b.getBlockIndex o)) hin (by omega) hwhole
      have hregion := h.region_eq (o := o) (n := b.getBlockCapacity (b.getBlockIndex o))
        (by omega) ho (by omega) (by omega)
      rw [hzero] at hregion
      change b.getBlockIndex (o + b.getBlockCapacity (b.getBlockIndex o)) =
        (b.getBlockIndex o + 1) % b.blocksCount at hidx
      rw [hidx] at heq
      refine ⟨_ :: regions, b.getBlockCapacity (b.getBlockIndex o) + n,
        by rw [hregion, heq]; rfl, ?_, by omega, ?_, fun hlt => ?_⟩
      · rw [List.flatten_cons, hflat, slice_append]
      · rw [List.length_cons]
        omega
      · rw [List.length_cons] at hlt
        have := hfull (by omega)
        omega

/-- **`GetReadableRegions`** shows the bytes from the next one to be read on, and if the vectors
are not all used, all of them. -/
theorem Stored.getReadableRegions (h : Stored content b) (hcount : 0 < count) :
    ∃ (regions : List (List UInt8)) (n : ℕ), b.getReadableRegions count = regions.map some ∧
      regions.flatten = BufferBlock.slice content b.totalBytesRead n ∧ n ≤ b.readableBytes ∧
      regions.length ≤ count ∧ (regions.length < count → n = b.readableBytes) ∧
      (0 < b.readableBytes → 0 < n) := by
  have hG := h.gapped
  unfold Buffer.getReadableRegions
  split_ifs with hzero
  · exact ⟨[], 0, rfl, rfl, Nat.zero_le _, Nat.zero_le _, fun _ => hzero.symm, fun hpos => by omega⟩
  obtain ⟨g, rest, hl⟩ := hG.exists_cons
  have hge := hG.ge g (hl ▸ List.mem_cons_self ..)
  have hreadable := hG.readableBytes_eq hl
  have hlast : (b.gaps.headD (b.totalBytesRead, kMaxOffset)).1 - 1 =
      b.totalBytesRead + b.readableBytes - 1 := by
    rw [hl]
    show g.1 - 1 = _
    omega
  dsimp only
  rw [hlast]
  generalize hlast' : b.totalBytesRead + b.readableBytes - 1 = last
  have hwindow := hG.lt_window (hG.unread_of_readable (o := last) (by omega) (by omega))
  have hcap : b.readOffset < b.getBlockCapacity b.nextBlockToRead :=
    Ring.inBlock_lt_blockCapacity hG.capacity_pos (by decide)
  have hcap' : b.getInBlockOffset last < b.getBlockCapacity (b.getBlockIndex last) :=
    Ring.inBlock_lt_blockCapacity hG.capacity_pos (by decide)
  split_ifs with hone
  · -- The last byte lies in the block of the first one, behind it.
    have heq : last = b.totalBytesRead + (b.getInBlockOffset last - b.readOffset) := by
      obtain ⟨hidx, hoff⟩ := Ring.place_add (o := b.totalBytesRead)
        (k := b.getInBlockOffset last - b.readOffset) hG.capacity_pos
        (show 0 < kBlockSizeBytes by decide) (by
          show _ < b.getBlockCapacity b.nextBlockToRead - b.readOffset
          rw [hone.1]
          omega)
      have hsize : b.getBlockCapacity b.nextBlockToRead ≤ kBlockSizeBytes :=
        Ring.blockCapacity_le (by decide)
      have := hG.capacity
      rw [← hone.1] at hcap'
      refine Ring.eq_of_place_eq (show b.totalBytesRead ≤ last by omega) (Nat.le_add_right _ _)
        hwindow (by omega) (hone.1.symm.trans hidx.symm) ?_
      rw [hoff]
      show b.getInBlockOffset last = b.readOffset + (b.getInBlockOffset last - b.readOffset)
      omega
    rw [← hone.1] at hcap'
    refine ⟨[BufferBlock.slice content b.totalBytesRead b.readableBytes], b.readableBytes, ?_,
      by simp, le_rfl, hcount, fun _ => rfl, fun hpos => hpos⟩
    have hregion := h.region_eq (o := b.totalBytesRead) (n := b.readableBytes) (by omega) le_rfl
      le_rfl (by
        show b.readOffset + b.readableBytes ≤ b.getBlockCapacity b.nextBlockToRead
        omega)
    rw [List.map_singleton, ← hregion]
    rfl
  · -- The first block can be read to its end.
    have hfirst : b.totalBytesRead + (b.getBlockCapacity b.nextBlockToRead - b.readOffset) ≤
        last := by
      by_contra hlt
      obtain ⟨k, rfl⟩ := Nat.exists_eq_add_of_le (show b.totalBytesRead ≤ last by omega)
      obtain ⟨hidx, hoff⟩ := Ring.place_add (o := b.totalBytesRead) (k := k) hG.capacity_pos
        (show 0 < kBlockSizeBytes by decide) (by
          show k < b.getBlockCapacity b.nextBlockToRead - b.readOffset
          omega)
      refine hone ⟨hidx.symm, ?_⟩
      show b.readOffset ≤ Ring.inBlock _ _ _
      rw [hoff]
      exact Nat.le_add_right _ _
    obtain ⟨hidx, hin⟩ := Ring.place_of_end (o := b.totalBytesRead)
      (k := b.getBlockCapacity b.nextBlockToRead - b.readOffset) hG.capacity_pos
      (show 0 < kBlockSizeBytes by decide) (by
        show b.readOffset + _ = b.getBlockCapacity b.nextBlockToRead
        omega)
    obtain ⟨regions, n, heq, hflat, hn, hlen, hfull⟩ :=
      h.regionsFrom (count - 1) (show last + 1 = _ by omega) hin (by omega) hfirst
    have hregion := h.region_eq (o := b.totalBytesRead)
      (n := b.getBlockCapacity b.nextBlockToRead - b.readOffset) (by omega) le_rfl (by omega) (by
        show b.readOffset + _ ≤ b.getBlockCapacity b.nextBlockToRead
        omega)
    change b.getBlockIndex (b.totalBytesRead + _) = (b.nextBlockToRead + 1) % b.blocksCount at hidx
    rw [hidx] at heq
    change b.region b.nextBlockToRead b.readOffset _ = _ at hregion
    refine ⟨_ :: regions, b.getBlockCapacity b.nextBlockToRead - b.readOffset + n,
      by rw [hregion, heq]; rfl, ?_, by omega, ?_, fun hlt => ?_, fun _ => by omega⟩
    · rw [List.flatten_cons, hflat, slice_append]
    · rw [List.length_cons]
      omega
    · rw [List.length_cons] at hlt
      have := hfull (by omega)
      omega

end Reassembly
end QuicNs3
