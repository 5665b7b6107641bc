/-
# Bytes and offsets

The flow control of a session depends on the offsets of the data and not on the bytes, and
`Streams.SequencerBuffer` is a buffer without bytes.  A buffer of the size that a
`QuicStreamSequencer` gives it does to offsets just what that model does: each operation is an
`Abstract` one on what `sequence` leaves of the buffer (`Sound.refines`), and so is every run
(`run_refines`).  Without the bytes there is no way to fail; that the bytes add none is
`always_faithful`.
-/

import QuicNs3.Reassembly.Faithful

namespace QuicNs3
namespace Reassembly

open Lib Streams

variable {content : ℕ → UInt8} {b b' : Buffer} {offset n : ℕ} {data : List UInt8}

/-- The result of `OnStreamData` without the bytes. -/
def DataResult.sequence : DataResult → Option StreamDataResult
  | .error e => some (.error e)
  | .failure _ => none
  | .duplicate => some .duplicate
  | .buffered b => some (.buffered b.sequence)
  | .invalid => some .invalid

/-- An operation on offsets. -/
inductive Abstract
  | onStreamData (offset size : ℕ)
  /-- Data is read, no more than there is. -/
  | read (bytes : ℕ)
  /-- Data is read, or nothing if there is not as much. -/
  | markConsumed (bytes : ℕ)
  | flushBufferedFrames
  | clear

/-- What an operation does to offsets. -/
def Op.abstract : Op → Abstract
  | .onStreamData offset data _ => .onStreamData offset data.length
  | .readv lengths => .read lengths.sum
  | .markConsumed n => .markConsumed n
  | .flushBufferedFrames => .flushBufferedFrames
  | .clear => .clear
  | .releaseWholeBuffer => .clear

/-- The buffer of `Streams` after an operation. -/
def abstractStep (q : SequencerBuffer) : Abstract → Option SequencerBuffer
  | .onStreamData offset size =>
    match q.onStreamData offset size with
    | .error _ => some q
    | .duplicate => some q
    | .buffered q' => some q'
    | .invalid => none
  | .read n => some (q.markConsumed (min n q.readableBytes))
  | .markConsumed n => some (if q.readableBytes < n then q else q.markConsumed n)
  | .flushBufferedFrames => some q.flushBufferedFrames.2
  | .clear => some q.clear

/-- `OnStreamData` compares offsets only. -/
theorem Sound.onStreamData_sequence (h : Sound content b)
    (hcap : b.maxBufferCapacityBytes = maxBufferCapacityBytes) (hs : Carries content offset data)
    (hfits : offset + data.length + b.maxBufferCapacityBytes < 2 ^ 64) (timestamp : ℤ) :
    (b.onStreamData offset data timestamp).sequence =
      some (b.sequence.onStreamData offset data.length) := by
  unfold Buffer.onStreamData SequencerBuffer.onStreamData
  dsimp only
  rw [← hcap]
  by_cases hzero : data.length = 0
  · rw [if_pos hzero, if_pos hzero]
    rfl
  have hG := h.gapped
  have hmax : offset < kMaxOffset := by
    unfold kMaxOffset
    omega
  obtain ⟨before, g, after, hl, htake, hdrop, hbefore, hg⟩ := hG.find_gap hmax
  have htake' : (b.sequence.gaps.takeWhile fun g => decide (g.2 ≤ offset)) = before := htake
  have hdrop' : (b.sequence.gaps.dropWhile fun g => decide (g.2 ≤ offset)) = g :: after := hdrop
  rw [if_neg hzero, if_neg hzero, hdrop, hdrop', htake, htake']
  have hstop : wrapAdd offset data.length = offset + data.length := wrapAdd_eq (by omega)
  have hge := hG.ge g (by simp [hl])
  have hgfits := hG.fits g (by simp [hl])
  have hlimit : wrapAdd b.totalBytesRead b.maxBufferCapacityBytes =
      b.totalBytesRead + b.maxBufferCapacityBytes := wrapAdd_eq (by omega)
  rw [hstop]
  dsimp only
  by_cases hold : offset < g.1 ∧ offset + data.length ≤ g.1
  · rw [if_pos hold, if_pos hold]
    rfl
  rw [if_neg hold, if_neg hold]
  by_cases hlo : offset < g.1
  · rw [if_pos hlo, if_pos hlo]
    rfl
  rw [if_neg hlo, if_neg hlo]
  by_cases hhi : g.2 < offset + data.length
  · rw [if_pos hhi, if_pos hhi]
    rfl
  rw [if_neg hhi, if_neg hhi]
  by_cases hroom : wrapAdd b.totalBytesRead b.maxBufferCapacityBytes < offset + data.length
  · rw [if_pos hroom]
    exact congrArg some (if_pos hroom).symm
  rw [if_neg hroom]
  refine .trans ?_ (congrArg some (if_neg hroom).symm)
  by_cases hmany : g.1 ≠ offset ∧ g.2 ≠ offset + data.length ∧ kMaxNumGapsAllowed ≤ b.gaps.length
  · rw [if_pos hmany]
    exact congrArg some (if_pos hmany).symm
  · rw [if_neg hmany]
    refine .trans ?_ (congrArg some (if_neg hmany).symm)
    rw [hlimit] at hroom
    -- The bytes are written to the blocks, which changes no offset.
    have hdisj : ∀ o, b.Unread o → ¬ (offset ≤ o ∧ o < offset + data.length) := fun o ho hin =>
      ho.2.2 ((hG.covered_iff hl hbefore hin.1 (by omega)).2 ⟨by omega, by omega⟩)
    obtain ⟨allocated, blocks, heq, -⟩ := h.holds.writeBlocks hG.capacity
      (fun o ho => ⟨ho.1, hG.lt_window ho⟩) (by omega) (by omega) hdisj hs le_rfl
    rw [heq]
    rfl

/-- Reading moves the offset. -/
theorem sequence_of_read (h : Sound content b) (hn : n ≤ b.readableBytes)
    (htotal : b'.totalBytesRead = b.totalBytesRead + n) (hgaps : b'.gaps = b.gaps) :
    b'.sequence = b.sequence.markConsumed n := by
  obtain ⟨g, rest, hl⟩ := h.gapped.exists_cons
  have hg : g ∈ b.gaps := hl ▸ List.mem_cons_self ..
  have hle := h.gapped.add_readableBytes_le hg
  have hfits := h.gapped.fits g hg
  unfold Buffer.sequence SequencerBuffer.markConsumed
  rw [htotal, hgaps, wrapAdd_eq (show b.totalBytesRead + n < 2 ^ 64 by omega)]

/-- **A step of the buffer is one of the offsets.** -/
theorem Sound.refines (h : Sound content b)
    (hcap : b.maxBufferCapacityBytes = maxBufferCapacityBytes) (op : Op)
    (hop : op.Agrees content b.maxBufferCapacityBytes) (hstep : Reassembly.step b op = some b') :
    abstractStep b.sequence op.abstract = some b'.sequence := by
  cases op with
  | onStreamData offset data timestamp =>
    obtain ⟨hs, hfits⟩ := hop
    have hseq := h.onStreamData_sequence hcap hs hfits timestamp
    unfold Reassembly.step at hstep
    dsimp only at hstep
    show (match b.sequence.onStreamData offset data.length with
      | .error _ => some b.sequence
      | .duplicate => some b.sequence
      | .buffered q' => some q'
      | .invalid => none) = some b'.sequence
    generalize b.onStreamData offset data timestamp = r at hseq hstep
    cases r with
    | error e =>
      rw [← Option.some.inj hseq, ← Option.some.inj hstep]
    | failure f => exact absurd hstep (by simp)
    | duplicate => rw [← Option.some.inj hseq, ← Option.some.inj hstep]
    | buffered b'' => rw [← Option.some.inj hseq, ← Option.some.inj hstep]
    | invalid => exact absurd hstep (by simp)
  | readv lengths =>
    obtain ⟨vectors, b'', heq, -, -, -, htotal, hgaps, -⟩ := h.readv lengths
    have hb' : b'' = b' := by
      unfold Reassembly.step at hstep
      dsimp only at hstep
      rw [heq] at hstep
      exact Option.some.inj hstep
    subst hb'
    exact congrArg some (sequence_of_read h (Nat.min_le_right _ _) htotal hgaps).symm
  | markConsumed n =>
    show some (if b.readableBytes < n then b.sequence else b.sequence.markConsumed n) = _
    unfold Reassembly.step at hstep
    dsimp only at hstep
    split_ifs with hlt
    · unfold Buffer.markConsumed at hstep
      rw [if_pos hlt] at hstep
      rw [← Option.some.inj hstep]
      rfl
    · obtain ⟨b'', heq, -, htotal, hgaps, -⟩ := h.markConsumed (not_lt.1 hlt)
      rw [heq] at hstep
      obtain rfl : b'' = b' := Option.some.inj hstep
      exact congrArg some (sequence_of_read h (not_lt.1 hlt) htotal hgaps).symm
  | flushBufferedFrames => rw [← Option.some.inj hstep]; rfl
  | clear => rw [← Option.some.inj hstep]; rfl
  | releaseWholeBuffer => rw [← Option.some.inj hstep]; rfl

/-- **The buffer of a stream refines that of the session.**  In every run, frames are accepted,
refused and read at the same offsets with the bytes and without them. -/
theorem run_refines (content : ℕ → UInt8) (ops : List Op)
    (hops : ∀ op ∈ ops, op.Agrees content maxBufferCapacityBytes) :
    (run step (Buffer.new maxBufferCapacityBytes) ops).map Buffer.sequence =
      run abstractStep ⟨0, [(0, kMaxOffset)]⟩ (ops.map Op.abstract) := by
  suffices h : ∀ b, Sound content b → b.maxBufferCapacityBytes = maxBufferCapacityBytes →
      (run step b ops).map Buffer.sequence =
        run abstractStep b.sequence (ops.map Op.abstract) from
    h _ (.new (by decide) (by decide)) rfl
  induction ops with
  | nil => exact fun b _ _ => rfl
  | cons op ops ih =>
    intro b hb hcap
    obtain ⟨hop, hops'⟩ := List.forall_mem_cons.1 hops
    obtain ⟨b', hstep, hb', hcap'⟩ := hb.step op (hcap ▸ hop)
    rw [List.map_cons, run_cons, run_cons, hstep, hb.refines hcap op (hcap ▸ hop) hstep]
    exact ih hops' b' hb' (hcap'.trans hcap)

/-- A gap is left open, and filled after a read has stopped at it. -/
theorem refines_gap :
    let content : ℕ → UInt8 := fun o => UInt8.ofNat (o + 1)
    let ops : List Op := [.onStreamData 0 [1, 2] 7, .onStreamData 4 [5] 7, .readv [9],
      .onStreamData 2 [3, 4] 8, .markConsumed 4, .markConsumed 2]
    (∀ op ∈ ops, op.Agrees content maxBufferCapacityBytes) ∧
      (run step (Buffer.new maxBufferCapacityBytes) ops).map Buffer.sequence =
        run abstractStep ⟨0, [(0, kMaxOffset)]⟩ (ops.map Op.abstract) ∧
      run abstractStep ⟨0, [(0, kMaxOffset)]⟩ (ops.map Op.abstract) =
        some ⟨4, [(5, kMaxOffset)]⟩ := by
  intro content ops
  have hops : ∀ op ∈ ops, op.Agrees content maxBufferCapacityBytes := by
    intro op hop
    simp only [ops, List.mem_cons, List.not_mem_nil, or_false] at hop
    rcases hop with rfl | rfl | rfl | rfl | rfl | rfl
    · exact ⟨by unfold Carries; decide, by decide⟩
    · exact ⟨by unfold Carries; decide, by decide⟩
    · trivial
    · exact ⟨by unfold Carries; decide, by decide⟩
    · trivial
    · trivial
  exact ⟨hops, run_refines content ops hops, by decide⟩

end Reassembly
end QuicNs3
