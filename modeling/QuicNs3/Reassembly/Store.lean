/-
# What is in the blocks

`Holds content b P` says that the blocks of `b` hold the bytes of `content` at the offsets `P`,
and that no block is there for nothing.  Writing a frame adds its offsets (`Holds.writeBlocks`):
each pass of the loop writes to one block, at places that none of the other offsets has.
-/

import QuicNs3.Reassembly.Gaps

namespace QuicNs3
namespace Reassembly

open Lib Streams

variable {content : ℕ → UInt8} {b b' : Buffer} {P Q : ℕ → Prop} {o offset n i start fuel : ℕ}
  {source : List UInt8}

/-- The bytes of `source` are those of `content` from `offset` on. -/
def Carries (content : ℕ → UInt8) (offset : ℕ) (source : List UInt8) : Prop :=
  ∀ k < source.length, source[k]? = some (content (offset + k))

theorem Carries.take (h : Carries content offset source) :
    Carries content offset (source.take n) := by
  intro k hk
  rw [List.length_take] at hk
  rw [List.getElem?_take, if_pos (by omega)]
  exact h k (by omega)

theorem Carries.drop (h : Carries content offset source) :
    Carries content (offset + n) (source.drop n) := by
  intro k hk
  rw [List.length_drop] at hk
  rw [List.getElem?_drop, Nat.add_assoc]
  exact h (n + k) (by omega)

theorem memcpy_of_mem (hk : n < source.length) (hs : Carries content offset source)
    (block : BufferBlock) : memcpy block start source (start + n) = content (offset + n) := by
  unfold memcpy
  rw [if_pos (Nat.le_add_right ..), Nat.add_sub_cancel_left, List.getD_eq_getElem?_getD, hs n hk]
  rfl

theorem memcpy_of_notMem (h : ¬ (start ≤ n ∧ n < start + source.length)) (block : BufferBlock) :
    memcpy block start source n = block n := by
  unfold memcpy
  split_ifs with hle
  · rw [List.getD_eq_getElem?_getD, List.getElem?_eq_none (by omega)]
    rfl
  · rfl

/-- **The blocks hold the bytes at the offsets `P`**, and nothing else. -/
structure Holds (content : ℕ → UInt8) (b : Buffer) (P : ℕ → Prop) : Prop where
  allocated : b.allocated = false → ∀ i, b.blocks i = none
  bytes : ∀ o, P o → ∃ block, b.blocks (b.getBlockIndex o) = some block ∧
    block (b.getInBlockOffset o) = content o
  used : ∀ i block, b.blocks i = some block → ∃ o, P o ∧ b.getBlockIndex o = i

namespace Holds

theorem block?_eq (h : Holds content b P) (i : ℕ) : b.block? i = b.blocks i := by
  unfold Buffer.block?
  split_ifs with ha
  · rfl
  · exact (h.allocated (Bool.eq_false_iff.2 ha) i).symm

theorem congr (h : Holds content b P) (hPQ : ∀ o, Q o ↔ P o)
    (hcap : b'.maxBufferCapacityBytes = b.maxBufferCapacityBytes)
    (halloc : b'.allocated = b.allocated) (hblocks : b'.blocks = b.blocks) :
    Holds content b' Q := by
  have hplace : b'.getBlockIndex = b.getBlockIndex ∧ b'.getInBlockOffset = b.getInBlockOffset := by
    unfold Buffer.getBlockIndex Buffer.getInBlockOffset
    rw [hcap]
    exact ⟨rfl, rfl⟩
  refine ⟨fun ha i => ?_, fun o ho => ?_, fun i block hi => ?_⟩
  · rw [hblocks]
    exact h.allocated (halloc ▸ ha) i
  · rw [hblocks, hplace.1, hplace.2]
    exact h.bytes o ((hPQ o).1 ho)
  · rw [hblocks] at hi
    obtain ⟨o, ho, hoi⟩ := h.used i block hi
    exact ⟨o, (hPQ o).2 ho, hplace.1 ▸ hoi⟩

theorem add_nothing (h : Holds content b P) :
    Holds content b (fun o => P o ∨ offset ≤ o ∧ o < offset + ([] : List UInt8).length) := by
  refine h.congr (fun o => or_iff_left ?_) rfl rfl rfl
  rw [List.length_nil]
  omega

/-- **A pass of the loop**, which writes to the block `i`. -/
theorem write (h : Holds content b P) (i start : ℕ) (source : List UInt8)
    (hP : ∀ o, P o → b.totalBytesRead ≤ o ∧ o < b.totalBytesRead + b.maxBufferCapacityBytes)
    (hlo : b.totalBytesRead ≤ offset)
    (hhi : offset + source.length ≤ b.totalBytesRead + b.maxBufferCapacityBytes)
    (hnew : ∀ o, P o → ¬ (offset ≤ o ∧ o < offset + source.length)) (hpos : 0 < source.length)
    (hplace : ∀ k < source.length,
      b.getBlockIndex (offset + k) = i ∧ b.getInBlockOffset (offset + k) = start + k)
    (hs : Carries content offset source) (block : BufferBlock)
    (hblock : ∀ x, b.blocks i = some x → block = x) :
    Holds content
      { b with
        allocated := true
        blocks := Function.update b.blocks i (some (memcpy block start source)) }
      (fun o => P o ∨ offset ≤ o ∧ o < offset + source.length) := by
  refine ⟨fun ha => absurd ha (by simp), fun o ho => ?_, fun j x hj => ?_⟩
  · show ∃ x, Function.update b.blocks i _ (b.getBlockIndex o) = some x ∧
      x (b.getInBlockOffset o) = content o
    rcases ho with ho | ho
    · obtain ⟨x, hx, hxo⟩ := h.bytes o ho
      by_cases hi : b.getBlockIndex o = i
      · refine ⟨_, by rw [hi, Function.update_self], ?_⟩
        obtain rfl := hblock x (hi ▸ hx)
        rw [memcpy_of_notMem _ block, hxo]
        intro hin
        -- The place would be that of a new byte.
        obtain ⟨k, hk⟩ := Nat.exists_eq_add_of_le hin.1
        have hplace' := hplace k (by omega)
        have heq : o = offset + k :=
          Ring.eq_of_place_eq (hP o ho).1 (by omega) (hP o ho).2 (by omega)
            (hi.trans hplace'.1.symm) (hk.trans hplace'.2.symm)
        exact hnew o ho (by omega)
      · rw [Function.update_of_ne hi]
        exact ⟨x, hx, hxo⟩
    · obtain ⟨k, rfl⟩ := Nat.exists_eq_add_of_le ho.1
      have hk : k < source.length := by omega
      rw [(hplace k hk).1, (hplace k hk).2, Function.update_self]
      exact ⟨_, rfl, memcpy_of_mem hk hs block⟩
  · change Function.update b.blocks i _ j = some x at hj
    show ∃ o, (P o ∨ _) ∧ b.getBlockIndex o = j
    by_cases hji : j = i
    · exact ⟨offset, .inr ⟨le_rfl, by omega⟩, hji ▸ (hplace 0 hpos).1⟩
    · rw [Function.update_of_ne hji] at hj
      obtain ⟨o, ho, hoj⟩ := h.used j x hj
      exact ⟨o, .inl ho, hoj⟩

/-- **The loop of `OnStreamData`** writes all of the frame. -/
theorem writeBlocks (h : Holds content b P) (hcap : kBlockSizeBytes < b.maxBufferCapacityBytes)
    (hP : ∀ o, P o → b.totalBytesRead ≤ o ∧ o < b.totalBytesRead + b.maxBufferCapacityBytes)
    (hlo : b.totalBytesRead ≤ offset)
    (hhi : offset + source.length ≤ b.totalBytesRead + b.maxBufferCapacityBytes)
    (hnew : ∀ o, P o → ¬ (offset ≤ o ∧ o < offset + source.length))
    (hs : Carries content offset source) (hfuel : source.length ≤ fuel) :
    ∃ allocated blocks, b.writeBlocks fuel offset source =
        .ok { b with allocated := allocated, blocks := blocks } ∧
      Holds content { b with allocated := allocated, blocks := blocks }
        (fun o => P o ∨ offset ≤ o ∧ o < offset + source.length) := by
  induction fuel generalizing b offset source P with
  | zero =>
    obtain rfl : source = [] := List.eq_nil_of_length_eq_zero (Nat.le_zero.1 hfuel)
    exact ⟨b.allocated, b.blocks, rfl, h.add_nothing⟩
  | succ fuel ih =>
    cases source with
    | nil => exact ⟨b.allocated, b.blocks, rfl, h.add_nothing⟩
    | cons byte bytes =>
      have hcap' : 0 < b.maxBufferCapacityBytes := (Nat.zero_le _).trans_lt hcap
      have hsize : 0 < kBlockSizeBytes := by decide
      have hi : b.getBlockIndex offset < b.blocksCount := Ring.blockIndex_lt hcap' hsize
      have hroom : b.getInBlockOffset offset < b.getBlockCapacity (b.getBlockIndex offset) :=
        Ring.inBlock_lt_blockCapacity hcap' hsize
      have hlen : 0 < (byte :: bytes).length := Nat.succ_pos _
      have hblocks : (if b.allocated = true then b.blocks else fun _ => none) = b.blocks := by
        split_ifs with ha
        · rfl
        · exact funext fun j => (h.allocated (Bool.eq_false_iff.2 ha) j).symm
      unfold Buffer.writeBlocks
      dsimp only
      rw [if_neg (not_le.2 hi), h.block?_eq, hblocks]
      generalize hn : min (if b.totalBytesRead + b.maxBufferCapacityBytes <
          offset + (b.getBlockCapacity (b.getBlockIndex offset) - b.getInBlockOffset offset) then
          b.totalBytesRead + b.maxBufferCapacityBytes - offset
        else b.getBlockCapacity (b.getBlockIndex offset) - b.getInBlockOffset offset)
        (byte :: bytes).length = n
      have hpos : 0 < n ∧ n ≤ (byte :: bytes).length ∧
          n ≤ b.getBlockCapacity (b.getBlockIndex offset) - b.getInBlockOffset offset := by
        split_ifs at hn <;> omega
      generalize byte :: bytes = source at *
      have htake : (source.take n).length = n := by
        rw [List.length_take]
        omega
      have hdrop : (source.drop n).length + n = source.length := by
        rw [List.length_drop]
        omega
      have hwritten := h.write (b.getBlockIndex offset) (b.getInBlockOffset offset) (source.take n)
        hP hlo (by omega) (fun o ho hin => hnew o ho (by omega))
        (by omega) (fun k hk => Ring.place_add hcap' hsize (by
          show k < b.getBlockCapacity (b.getBlockIndex offset) - b.getInBlockOffset offset
          omega)) hs.take
        ((b.blocks (b.getBlockIndex offset)).getD BufferBlock.new) (fun x hx => by rw [hx]; rfl)
      rw [htake] at hwritten
      have hP' : ∀ o, P o ∨ offset ≤ o ∧ o < offset + n →
          b.totalBytesRead ≤ o ∧ o < b.totalBytesRead + b.maxBufferCapacityBytes := by
        rintro o (ho | ho)
        · exact hP o ho
        · omega
      have hnew' : ∀ o, P o ∨ offset ≤ o ∧ o < offset + n →
          ¬ (offset + n ≤ o ∧ o < offset + n + (source.drop n).length) := by
        rintro o (ho | ho) hin
        · exact hnew o ho (by omega)
        · omega
      obtain ⟨allocated, blocks, heq, hholds⟩ := ih hwritten hcap hP'
        (show b.totalBytesRead ≤ offset + n by omega)
        (show _ ≤ b.totalBytesRead + b.maxBufferCapacityBytes by omega) hnew' hs.drop (by omega)
      refine ⟨allocated, blocks, heq, hholds.congr (fun o => ?_) rfl rfl rfl⟩
      have : offset ≤ o ∧ o < offset + source.length ↔ (offset ≤ o ∧ o < offset + n) ∨
          offset + n ≤ o ∧ o < offset + n + (source.drop n).length := by omega
      rw [this, or_assoc]

end Holds

end Reassembly
end QuicNs3
