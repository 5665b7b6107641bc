/-
# Windows and gaps

The receiving side of flow control, one object at a time.  A controller is `Sound` if it
has consumed no more than was received, and received no more than its window allows;
consuming and receiving within the window keep it so.  The gaps of a sequencer are
`Arranged` below the highest offset received, so that no more can be read than was
received.
-/

import QuicNs3.Lib.Intervals
import QuicNs3.Lib.Sums
import QuicNs3.Streams.Making
import Mathlib.Data.List.TakeWhile

namespace QuicNs3
namespace Streams

open Lib

/-! ## A controller -/

/-- **A controller that keeps to its window.**  No window is larger than that of a session,
and all offsets stay that far below the largest one. -/
structure ReceiveController.Sound (c : ReceiveController) : Prop where
  consumed_le : c.bytesConsumed ≤ c.highestReceivedByteOffset
  highest_le : c.highestReceivedByteOffset ≤ c.receiveWindowOffset
  window_le : c.receiveWindowOffset ≤ c.bytesConsumed + c.receiveWindowSize
  size_le : c.receiveWindowSize ≤ c.receiveWindowSizeLimit
  limit_le : c.receiveWindowSizeLimit ≤ kSessionReceiveWindowLimit
  lt : c.highestReceivedByteOffset + kSessionReceiveWindowLimit < 2 ^ 64

namespace ReceiveController

variable {c c' : ReceiveController} {e : Environment} {n window : ℕ}

/-- What a change leaves alone that only moves or widens the window. -/
structure SameOffsets (c c' : ReceiveController) : Prop where
  bytesConsumed : c'.bytesConsumed = c.bytesConsumed
  highest : c'.highestReceivedByteOffset = c.highestReceivedByteOffset

theorem SameOffsets.updateReceiveWindowOffset {available : ℕ} (h : SameOffsets c c') :
    SameOffsets c (c'.updateReceiveWindowOffset available) := by
  unfold ReceiveController.updateReceiveWindowOffset
  exact ⟨h.bytesConsumed, h.highest⟩

theorem Sound.new {limit : ℕ} {autoTune : Bool} (hw : window ≤ limit)
    (hl : limit ≤ kSessionReceiveWindowLimit) :
    (ReceiveController.new window limit autoTune).Sound where
  consumed_le := le_rfl
  highest_le := Nat.zero_le _
  window_le := (Nat.zero_add _).ge
  size_le := hw
  limit_le := hl
  lt := by
    show 0 + kSessionReceiveWindowLimit < 2 ^ 64
    decide

/-- The window is moved, and may have become wider. -/
theorem Sound.move (h : c.Sound) (time : ℤ) (hn : c.receiveWindowSize ≤ n)
    (hl : n ≤ c.receiveWindowSizeLimit) :
    ({ c with receiveWindowSize := n, prevWindowUpdateTime := time }.updateReceiveWindowOffset
      (wrapSub c.receiveWindowOffset c.bytesConsumed)).Sound := by
  obtain ⟨h₁, h₂, h₃, h₄, h₅, h₆⟩ := h
  have hsub : wrapSub c.receiveWindowOffset c.bytesConsumed =
      c.receiveWindowOffset - c.bytesConsumed := wrapSub_eq (by omega) (by omega)
  have hstep : wrapSub n (c.receiveWindowOffset - c.bytesConsumed) =
      n - (c.receiveWindowOffset - c.bytesConsumed) := wrapSub_eq (by omega) (by omega)
  have hsum : wrapAdd c.receiveWindowOffset (n - (c.receiveWindowOffset - c.bytesConsumed)) =
      c.bytesConsumed + n := by
    rw [wrapAdd_eq (by omega)]
    omega
  unfold updateReceiveWindowOffset
  dsimp only
  rw [hsub, hstep, hsum]
  exact ⟨h₁, show c.highestReceivedByteOffset ≤ c.bytesConsumed + n by omega, le_rfl, hl, h₅, h₆⟩

theorem Sound.ensureWindowAtLeast (h : c.Sound) :
    (c.ensureWindowAtLeast window).Sound ∧ SameOffsets c (c.ensureWindowAtLeast window) := by
  have hsize : c.receiveWindowSize ≤ min (2 * c.receiveWindowSize) c.receiveWindowSizeLimit :=
    Nat.le_min.2 ⟨by omega, h.size_le⟩
  have hmove := h.move c.prevWindowUpdateTime hsize (Nat.min_le_right _ _)
  unfold ReceiveController.ensureWindowAtLeast increaseWindowSize
  split_ifs
  · exact ⟨h, rfl, rfl⟩
  · exact ⟨hmove, SameOffsets.updateReceiveWindowOffset ⟨rfl, rfl⟩⟩

/-- What `MaybeIncreaseMaxWindowSize` does. -/
theorem maybeIncreaseMaxWindowSize_eq (h : c.receiveWindowSize ≤ c.receiveWindowSizeLimit) :
    ∃ n w, c.maybeIncreaseMaxWindowSize e =
      ({ c with receiveWindowSize := n, prevWindowUpdateTime := e.now }, w) ∧
      c.receiveWindowSize ≤ n ∧ n ≤ c.receiveWindowSizeLimit := by
  have hgrow : c.receiveWindowSize ≤ min (2 * c.receiveWindowSize) c.receiveWindowSizeLimit :=
    Nat.le_min.2 ⟨by omega, h⟩
  unfold maybeIncreaseMaxWindowSize increaseWindowSize
  dsimp only
  split_ifs
  · exact ⟨_, _, rfl, le_rfl, h⟩
  · exact ⟨_, _, rfl, le_rfl, h⟩
  · exact ⟨_, _, rfl, le_rfl, h⟩
  · exact ⟨_, _, rfl, le_rfl, h⟩
  · exact ⟨_, _, rfl, hgrow, Nat.min_le_right _ _⟩
  · exact ⟨_, _, rfl, hgrow, Nat.min_le_right _ _⟩

theorem Sound.maybeSendWindowUpdate (h : c.Sound) :
    (c.maybeSendWindowUpdate e).1.Sound ∧ SameOffsets c (c.maybeSendWindowUpdate e).1 := by
  have hstart : ∃ time, (if c.prevWindowUpdateTime = 0 then { c with prevWindowUpdateTime := e.now }
      else c) = { c with prevWindowUpdateTime := time } := by
    split_ifs
    · exact ⟨_, rfl⟩
    · exact ⟨_, rfl⟩
  obtain ⟨time, htime⟩ := hstart
  unfold ReceiveController.maybeSendWindowUpdate
  dsimp only
  rw [htime]
  split_ifs
  · exact ⟨⟨h.consumed_le, h.highest_le, h.window_le, h.size_le, h.limit_le, h.lt⟩, rfl, rfl⟩
  · obtain ⟨n, w, heq, hn, hl⟩ := maybeIncreaseMaxWindowSize_eq (e := e)
      (c := { c with prevWindowUpdateTime := time }) h.size_le
    rw [heq]
    exact ⟨h.move e.now hn hl, SameOffsets.updateReceiveWindowOffset ⟨rfl, rfl⟩⟩

/-- **Consuming what was received.** -/
theorem Sound.addBytesConsumed (h : c.Sound)
    (hn : c.bytesConsumed + n ≤ c.highestReceivedByteOffset) :
    (c.addBytesConsumed e n).1.Sound ∧
      (c.addBytesConsumed e n).1.bytesConsumed = c.bytesConsumed + n ∧
      (c.addBytesConsumed e n).1.highestReceivedByteOffset = c.highestReceivedByteOffset := by
  have hlt := h.lt
  have hsum : wrapAdd c.bytesConsumed n = c.bytesConsumed + n := wrapAdd_eq (by omega)
  have hwindow : c.receiveWindowOffset ≤ c.bytesConsumed + n + c.receiveWindowSize := by
    have := h.window_le
    omega
  have hsound : { c with bytesConsumed := c.bytesConsumed + n }.Sound :=
    ⟨hn, h.highest_le, hwindow, h.size_le, h.limit_le, hlt⟩
  obtain ⟨hS, hc, hh⟩ := hsound.maybeSendWindowUpdate (e := e)
  unfold ReceiveController.addBytesConsumed
  rw [hsum]
  exact ⟨hS, hc, hh⟩

/-- **Receiving up to an offset in the window.** -/
theorem Sound.raise (h : c.Sound) (hlt : c.highestReceivedByteOffset < n)
    (hle : n ≤ c.receiveWindowOffset) (hroom : n + kSessionReceiveWindowLimit < 2 ^ 64) :
    (c.updateHighestReceivedOffset n).Sound ∧
      (c.updateHighestReceivedOffset n).bytesConsumed = c.bytesConsumed ∧
      (c.updateHighestReceivedOffset n).highestReceivedByteOffset = n := by
  unfold updateHighestReceivedOffset
  rw [if_neg (Nat.not_le.2 hlt)]
  have hc := h.consumed_le
  exact ⟨⟨show c.bytesConsumed ≤ n by omega, hle, h.window_le, h.size_le, h.limit_le, hroom⟩, rfl,
    rfl⟩

end ReceiveController

/-! ## The gaps of a sequencer -/

/-- **The gaps begin between what was read and the offset `hi`**, one behind the other, and
the last one has no end. -/
structure SequencerBuffer.Arranged (b : SequencerBuffer) (hi : ℕ) : Prop where
  apart : Consecutive b.gaps
  le : ∀ g ∈ b.gaps, b.totalBytesRead ≤ g.1 ∧ g.1 ≤ hi
  last : ∃ g ∈ b.gaps, g.2 = kMaxOffset
  lt : hi < kMaxOffset

namespace SequencerBuffer

variable {b b' : SequencerBuffer} {hi n offset size : ℕ}

theorem kMaxOffset_lt : kMaxOffset < 2 ^ 64 := by decide

/-- Nothing is buffered. -/
theorem arranged_of_cleared (hg : b.gaps = [(b.totalBytesRead, kMaxOffset)])
    (hle : b.totalBytesRead ≤ hi) (hlt : hi < kMaxOffset) : b.Arranged hi where
  apart := hg ▸ Consecutive.singleton (by show b.totalBytesRead ≤ kMaxOffset; omega)
  le := by
    intro g hmem
    obtain rfl := List.mem_singleton.1 (hg ▸ hmem)
    exact ⟨le_rfl, hle⟩
  last := ⟨_, hg ▸ List.mem_singleton_self _, rfl⟩
  lt := hlt

namespace Arranged

theorem totalBytesRead_le (h : b.Arranged hi) : b.totalBytesRead ≤ hi := by
  obtain ⟨g, hg, -⟩ := h.last
  exact (h.le g hg).1.trans (h.le g hg).2

theorem mono {hi' : ℕ} (h : b.Arranged hi) (hle : hi ≤ hi') (hlt : hi' < kMaxOffset) :
    b.Arranged hi' :=
  ⟨h.apart, fun g hg => ⟨(h.le g hg).1, (h.le g hg).2.trans hle⟩, h.last, hlt⟩

theorem clear (h : b.Arranged hi) : b.clear.Arranged hi :=
  arranged_of_cleared rfl h.totalBytesRead_le h.lt

/-- What is readable lies in front of every gap. -/
theorem add_readableBytes_le (h : b.Arranged hi) {g : ℕ × ℕ} (hg : g ∈ b.gaps) :
    b.totalBytesRead + b.readableBytes ≤ g.1 := by
  have hlt := h.lt
  unfold readableBytes
  cases hl : b.gaps with
  | nil => exact absurd (hl ▸ hg) List.not_mem_nil
  | cons f l =>
    have hf : b.totalBytesRead ≤ f.1 ∧ f.1 ≤ hi := h.le f (hl ▸ List.mem_cons_self ..)
    have hfg : f.1 ≤ g.1 := Consecutive.head_le (hl ▸ h.apart) (hl ▸ hg)
    have hmax := kMaxOffset_lt
    show b.totalBytesRead + wrapSub f.1 b.totalBytesRead ≤ g.1
    rw [wrapSub_eq hf.1 (by omega)]
    omega

/-- **Reading what is readable.** -/
theorem markConsumed (h : b.Arranged hi) (hn : n ≤ b.readableBytes) :
    (b.markConsumed n).Arranged hi ∧ (b.markConsumed n).totalBytesRead = b.totalBytesRead + n := by
  have hle : ∀ g ∈ b.gaps, b.totalBytesRead + n ≤ g.1 := by
    intro g hg
    have := h.add_readableBytes_le hg
    omega
  have hsum : wrapAdd b.totalBytesRead n = b.totalBytesRead + n := by
    obtain ⟨g, hg, -⟩ := h.last
    have h₁ := hle g hg
    have h₂ := (h.le g hg).2
    have h₃ := h.lt
    have h₄ := kMaxOffset_lt
    exact wrapAdd_eq (by omega)
  unfold SequencerBuffer.markConsumed
  rw [hsum]
  exact ⟨⟨h.apart, fun g hg => ⟨hle g hg, (h.le g hg).2⟩, h.last, h.lt⟩, rfl⟩

/-- What is read is readable no more. -/
theorem readableBytes_markConsumed (h : b.Arranged hi) (hn : n ≤ b.readableBytes) :
    (b.markConsumed n).readableBytes + n = b.readableBytes := by
  obtain ⟨hA, htotal⟩ := h.markConsumed hn
  have hlt := h.lt
  have hmax := kMaxOffset_lt
  obtain ⟨g, hg, -⟩ := h.last
  obtain ⟨f, l, hl⟩ := List.exists_cons_of_ne_nil (List.ne_nil_of_mem hg)
  have hf : f ∈ b.gaps := hl ▸ List.mem_cons_self ..
  have hlater : wrapSub f.1 (b.markConsumed n).totalBytesRead =
      f.1 - (b.markConsumed n).totalBytesRead :=
    wrapSub_eq (hA.le f hf).1 (by have := (h.le f hf).2; omega)
  have hnow : wrapSub f.1 b.totalBytesRead = f.1 - b.totalBytesRead :=
    wrapSub_eq (h.le f hf).1 (by have := (h.le f hf).2; omega)
  have hle := (hA.le f hf).1
  have hhead : (b.markConsumed n).gaps = f :: l := hl
  unfold readableBytes
  rw [hhead, hl]
  show wrapSub f.1 _ + n = wrapSub f.1 _
  rw [hlater, hnow]
  omega

/-- Nothing is readable in an empty buffer. -/
theorem readableBytes_clear (h : b.Arranged hi) : b.clear.readableBytes = 0 := by
  have hlt := h.lt
  have hle := h.totalBytesRead_le
  have hmax := kMaxOffset_lt
  have hsub : wrapSub b.totalBytesRead b.totalBytesRead = b.totalBytesRead - b.totalBytesRead :=
    wrapSub_eq le_rfl (by omega)
  rw [Nat.sub_self] at hsub
  exact hsub

/-- **Flushing** reads up to the last gap. -/
theorem flushBufferedFrames (h : b.Arranged hi) :
    b.flushBufferedFrames.2.Arranged hi ∧
      b.flushBufferedFrames.2.totalBytesRead = b.totalBytesRead + b.flushBufferedFrames.1 ∧
      b.flushBufferedFrames.2.gaps = [(b.flushBufferedFrames.2.totalBytesRead, kMaxOffset)] := by
  have hlt := h.lt
  have hmax := kMaxOffset_lt
  obtain ⟨g, hg, hlast⟩ : ∃ g ∈ b.gaps, b.gaps.getLastD (b.totalBytesRead, kMaxOffset) = g := by
    obtain ⟨g, hg, -⟩ := h.last
    rcases List.eq_nil_or_concat b.gaps with hnil | ⟨l, f, hl⟩
    · exact absurd (hnil ▸ hg) List.not_mem_nil
    · rw [List.concat_eq_append] at hl
      exact ⟨f, hl ▸ List.mem_append_right _ (List.mem_singleton_self f), by simp [hl]⟩
  obtain ⟨hle, hhi⟩ := h.le g hg
  unfold SequencerBuffer.flushBufferedFrames
  dsimp only
  rw [hlast, wrapSub_eq hle (by omega)]
  refine ⟨arranged_of_cleared rfl hhi hlt, ?_, rfl⟩
  show g.1 = b.totalBytesRead + (g.1 - b.totalBytesRead)
  omega

/-- Data that has been read already is a duplicate. -/
theorem onStreamData_of_le (h : b.Arranged hi) (hs : size ≠ 0)
    (hle : offset + size ≤ b.totalBytesRead) : b.onStreamData offset size = .duplicate := by
  have htotal := h.totalBytesRead_le
  have hlt := h.lt
  have hmax := kMaxOffset_lt
  have hstop : wrapAdd offset size = offset + size := wrapAdd_eq (by omega)
  unfold onStreamData
  dsimp only
  rw [if_neg hs, hstop]
  cases hd : b.gaps.dropWhile fun g => decide (g.2 ≤ offset) with
  | nil =>
    obtain ⟨g, hg, hend⟩ := h.last
    have := List.dropWhile_eq_nil_iff.1 hd g hg
    have hle' := of_decide_eq_true this
    omega
  | cons g l =>
    have hg : g ∈ b.gaps := (List.dropWhile_sublist _).subset (hd ▸ List.mem_cons_self ..)
    have := (h.le g hg).1
    exact if_pos ⟨by omega, by omega⟩

end Arranged

/-- What `UpdateGapList` puts in the place of a gap. -/
theorem updateGapList_eq (before : List (ℕ × ℕ)) (g : ℕ × ℕ) (after : List (ℕ × ℕ))
    (start stop : ℕ) (h₁ : g.1 ≤ start) (h₂ : start < stop) (h₃ : stop ≤ g.2) :
    ∃ mid, updateGapList before g after start stop = before ++ mid ++ after ∧ Consecutive mid ∧
      (∀ m ∈ mid, g.1 ≤ m.1 ∧ m.2 ≤ g.2 ∧ (m.1 = g.1 ∨ m.1 = stop)) ∧
      (stop < g.2 → ∃ m ∈ mid, m.2 = g.2) := by
  unfold updateGapList
  split_ifs with h h' h'' h'''
  · refine ⟨[(stop, g.2)], by simp, Consecutive.singleton h₃, fun m hm => ?_,
      fun _ => ⟨_, List.mem_singleton_self _, rfl⟩⟩
    obtain rfl := List.mem_singleton.1 hm
    exact ⟨show g.1 ≤ stop by omega, le_rfl, .inr rfl⟩
  · refine ⟨[(g.1, start)], by simp, Consecutive.singleton h₁, fun m hm => ?_, fun hlt => by omega⟩
    obtain rfl := List.mem_singleton.1 hm
    exact ⟨le_rfl, show start ≤ g.2 by omega, .inl rfl⟩
  · refine ⟨[(g.1, start), (stop, g.2)], by simp, Consecutive.pair h₁ h₂.le h₃, fun m hm => ?_,
      fun _ => ⟨(stop, g.2), by simp, rfl⟩⟩
    rcases List.mem_cons.1 hm with rfl | hm
    · exact ⟨le_rfl, show start ≤ g.2 by omega, .inl rfl⟩
    · obtain rfl := List.mem_singleton.1 hm
      exact ⟨show g.1 ≤ stop by omega, le_rfl, .inr rfl⟩
  · exact ⟨[], by simp, Consecutive.nil, fun m hm => absurd hm List.not_mem_nil,
      fun hlt => by omega⟩
  · omega

/-- **Buffering data below `hi`** leaves the gaps arranged. -/
theorem Arranged.onStreamData (h : b.Arranged hi) (hs : size ≠ 0) (hstop : offset + size ≤ hi)
    (hb : b.onStreamData offset size = .buffered b') :
    b'.Arranged hi ∧ b'.totalBytesRead = b.totalBytesRead := by
  have hlt := h.lt
  have hmax := kMaxOffset_lt
  have hadd : wrapAdd offset size = offset + size := wrapAdd_eq (by omega)
  unfold SequencerBuffer.onStreamData at hb
  dsimp only at hb
  rw [if_neg hs, hadd] at hb
  have hsplit := List.takeWhile_append_dropWhile (p := fun g : ℕ × ℕ => decide (g.2 ≤ offset))
    (l := b.gaps)
  cases hd : b.gaps.dropWhile fun g => decide (g.2 ≤ offset) with
  | nil =>
    rw [hd] at hb
    exact absurd hb (by simp)
  | cons g after =>
    rw [hd] at hb hsplit
    dsimp only at hb
    by_cases h₁ : offset < g.1
    · rw [if_pos h₁] at hb
      split_ifs at hb
    rw [if_neg (fun h => h₁ h.1), if_neg h₁] at hb
    by_cases h₂ : g.2 < offset + size
    · rw [if_pos h₂] at hb
      exact absurd hb (by simp)
    rw [if_neg h₂] at hb
    split_ifs at hb
    obtain rfl := StreamDataResult.buffered.inj hb
    obtain ⟨mid, hmid, hapart, hin, hend⟩ := updateGapList_eq
      (b.gaps.takeWhile fun g => decide (g.2 ≤ offset)) g after offset (offset + size)
      (by omega) (by omega) (by omega)
    have hmem : ∀ x, x ∈ b.gaps ↔ x ∈ b.gaps.takeWhile (fun g => decide (g.2 ≤ offset)) ∨
        x = g ∨ x ∈ after := by
      intro x
      conv_lhs => rw [← hsplit]
      rw [List.mem_append, List.mem_cons]
    have hg := h.le g ((hmem g).2 (.inr (.inl rfl)))
    refine ⟨⟨?_, fun x hx => ?_, ?_, hlt⟩, rfl⟩
    · show Consecutive (updateGapList _ g after _ _)
      rw [hmid]
      refine Consecutive.replace ?_ hapart fun m hm => ⟨(hin m hm).1, (hin m hm).2.1⟩
      rw [hsplit]
      exact h.apart
    · change x ∈ updateGapList _ g after _ _ at hx
      show b.totalBytesRead ≤ x.1 ∧ x.1 ≤ hi
      rw [hmid] at hx
      rcases List.mem_append.1 hx with hx | hx
      · rcases List.mem_append.1 hx with hx | hx
        · exact h.le x ((hmem x).2 (.inl hx))
        · obtain ⟨hlo, -, heq⟩ := hin x hx
          omega
      · exact h.le x ((hmem x).2 (.inr (.inr hx)))
    · show ∃ x ∈ updateGapList _ g after _ _, x.2 = kMaxOffset
      rw [hmid]
      obtain ⟨x, hx, hxe⟩ := h.last
      rcases (hmem x).1 hx with hx | rfl | hx
      · exact ⟨x, List.mem_append_left _ (List.mem_append_left _ hx), hxe⟩
      · obtain ⟨m, hm, hme⟩ := hend (by omega)
        exact ⟨m, List.mem_append_left _ (List.mem_append_right _ hm), hme.trans hxe⟩
      · exact ⟨x, List.mem_append_right _ hx, hxe⟩

end SequencerBuffer

end Streams
end QuicNs3
