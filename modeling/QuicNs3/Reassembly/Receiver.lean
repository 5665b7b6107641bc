/-
# The receiving end of a stream

`QuicStreamSequencer` takes the frames of a stream, keeps them in a buffer until they can be
read, and tells the stream.  `Receiver` is a sequencer with its bytes and with what the stream
has read from it.  (`Streams` has the same sequencer without bytes, inside of a session.)

The stream reads by `Readv`, or looks at the regions that can be read and marks them as
consumed.  It is called back by `OnDataAvailable` in the middle of a frame; what it does then is
given by a `Reader`.  What the sequencer reports to flow control is left out.

`Receiving` is what holds of a receiver if all frames are parts of one stream, of which `written`
bytes have been sent, and which ends where `isEnd` says.  A frame then never makes the connection
fail (`Receiving.onStreamFrame`), unless it lies beyond the window of the buffer or there are too
many gaps: one with bytes that are there and bytes that are not is refused, but frames that were
cut once and for all have either all of their bytes there or none (`AllOrNone`).
-/

import QuicNs3.Reassembly.Faithful

namespace QuicNs3
namespace Reassembly

open Lib Streams

/-- `QuicStreamFrame`, with its bytes. -/
structure DataFrame where
  offset : ℕ
  data : List UInt8
  fin : Bool
  deriving Repr, DecidableEq

/-- The offset behind the data. -/
def DataFrame.stop (f : DataFrame) : ℕ := f.offset + f.data.length

/-- A byte of the frame. -/
def DataFrame.Has (f : DataFrame) (o : ℕ) : Prop := f.offset ≤ o ∧ o < f.stop

/-- One way to read. -/
inductive Reading
  | readv (lengths : List ℕ)
  /-- `GetReadableRegions` for `more + 1` vectors, and `MarkConsumed` of what they show. -/
  | regions (more : ℕ)
  deriving Repr, DecidableEq

/-- What the stream does in `OnDataAvailable`. -/
structure Reader where
  reads : List Reading
  readFin : Bool
  deriving Repr, DecidableEq

/-- Why a connection is closed or a stream reset. -/
inductive Ending
  /-- An error of `OnStreamData`. -/
  | streamData (e : StreamDataError)
  /-- `QUIC_STREAM_SEQUENCER_INVALID_STATE`, or a behaviour that is not defined. -/
  | invalidState
  | multipleTerminationOffsets
  | errorProcessingStream
  deriving Repr, DecidableEq

/-- `QuicStreamSequencer`, and what has been read from it. -/
structure Receiver where
  buffer : Buffer
  closeOffset : ℕ
  blocked : Bool
  ignoreReadData : Bool
  received : List UInt8
  finRead : Bool
  ending : Option Ending

namespace Receiver

/-- `QuicStreamSequencer(quic_stream, clock)`. -/
def new : Receiver where
  buffer := .new maxBufferCapacityBytes
  closeOffset := kMaxOffset
  blocked := false
  ignoreReadData := false
  received := []
  finRead := false
  ending := none

variable (r : Receiver)

/-- `IsClosed`. -/
def isClosed : Bool := decide (r.closeOffset ≤ r.buffer.totalBytesRead)

/-- The end of `MarkConsumed`, for the bytes that have been looked at. -/
def consumed (bytes : List UInt8) : Except Failure (Option Buffer) → Receiver
  | .error _ => { r with ending := some .invalidState }
  | .ok none => { r with ending := some .errorProcessingStream }
  | .ok (some b) => { r with buffer := b, received := r.received ++ bytes }

/-- `MarkConsumed` of the regions that are shown, if none of them is in a block that is null. -/
def consumeRegions : Option (List (List UInt8)) → Receiver
  | none => { r with ending := some .invalidState }
  | some regions => r.consumed regions.flatten (r.buffer.markConsumed regions.flatten.length)

/-- `Readv`, or `GetReadableRegions` and `MarkConsumed`. -/
def read : Reading → Receiver
  | .readv lengths =>
    match r.buffer.readv lengths with
    | .error _ => { r with ending := some .invalidState }
    | .ok (vectors, b) => { r with buffer := b, received := r.received ++ vectors.flatten }
  | .regions more => r.consumeRegions ((r.buffer.getReadableRegions (more + 1)).mapM id)

/-- `OnDataAvailable` of the stream. -/
def onDataAvailable (x : Reader) : Receiver :=
  let r := x.reads.foldl read r
  if x.readFin && r.isClosed then { r with finRead := true } else r

/-- `MaybeCloseStream`. -/
def maybeCloseStream (x : Reader) : Receiver :=
  if r.blocked || !r.isClosed then r
  else
    let r := if r.ignoreReadData then { r with finRead := true } else r.onDataAvailable x
    { r with buffer := r.buffer.clear }

/-- `CloseStreamAtOffset`. -/
def closeStreamAtOffset (offset : ℕ) (x : Reader) : Receiver :=
  -- If there is a scheduled close, the new offset should match it.
  if r.closeOffset ≠ kMaxOffset ∧ offset ≠ r.closeOffset then
    { r with ending := some .multipleTerminationOffsets }
  else { r with closeOffset := offset }.maybeCloseStream x

/-- `FlushBufferedFrames`. -/
def flushBufferedFrames (x : Reader) : Receiver :=
  { r with buffer := r.buffer.flushBufferedFrames.2 }.maybeCloseStream x

/-- The part of `OnStreamFrame` from `OnStreamData` on. -/
def onStreamData (f : DataFrame) (timestamp : ℤ) (x : Reader) : Receiver :=
  match r.buffer.onStreamData f.offset f.data timestamp with
  | .error e => { r with ending := some (.streamData e) }
  | .failure _ => { r with ending := some .invalidState }
  | .invalid => { r with ending := some .invalidState }
  | .duplicate => r
  | .buffered b =>
    let r := { r with buffer := b }
    if r.blocked then r
    else if f.offset = b.totalBytesRead then
      if r.ignoreReadData then r.flushBufferedFrames x else r.onDataAvailable x
    else r

/-- `OnStreamFrame`. -/
def onStreamFrame (f : DataFrame) (timestamp : ℤ) (x : Reader) : Receiver :=
  let r := if f.fin then r.closeStreamAtOffset (wrapAdd f.offset f.data.length) x else r
  if f.fin && f.data.isEmpty then r else r.onStreamData f timestamp x

/-- `SetBlockedUntilFlush`. -/
def setBlockedUntilFlush : Receiver := { r with blocked := true }

/-- `SetUnblocked`. -/
def setUnblocked (x : Reader) : Receiver :=
  let r := { r with blocked := false }
  if r.isClosed || decide (0 < r.buffer.readableBytes) then r.onDataAvailable x else r

/-- `StopReading`. -/
def stopReading (x : Reader) : Receiver :=
  if r.ignoreReadData then r else { r with ignoreReadData := true }.flushBufferedFrames x

/-- `ReleaseBufferIfEmpty`. -/
def releaseBufferIfEmpty : Receiver :=
  if r.buffer.empty then { r with buffer := r.buffer.releaseWholeBuffer } else r

end Receiver

/-! ## What has arrived -/

variable {content content' : ℕ → UInt8} {b b' b'' : Buffer} {o n written : ℕ} {isEnd : ℕ → Prop}
  {r r' r'' : Receiver} {f g : DataFrame}

/-- Either all bytes of the frame have arrived, or none. -/
def AllOrNone (f : DataFrame) (b : Buffer) : Prop :=
  (∀ o, f.Has o → b.Arrived o) ∨ ∀ o, f.Has o → ¬ b.Arrived o

/-- **Nothing is lost and nothing added** that has arrived, but for gaps that are given up: then
all counts as arrived that lies before a byte that has. -/
def Settles (b b' : Buffer) : Prop :=
  (∀ o, b'.Arrived o ↔ b.Arrived o) ∨ ∀ o, b'.Arrived o ↔ ∃ o', o ≤ o' ∧ b.Arrived o'

namespace Settles

theorem refl (b : Buffer) : Settles b b := .inl fun _ => Iff.rfl

theorem trans (h : Settles b b') (h' : Settles b' b'') : Settles b b'' := by
  rcases h with h | h
  · rcases h' with h' | h'
    · exact .inl fun o => (h' o).trans (h o)
    · exact .inr fun o => (h' o).trans (exists_congr fun o' => and_congr_right fun _ => h o')
  · rcases h' with h' | h'
    · exact .inr fun o => (h' o).trans (h o)
    · refine .inr fun o => (h' o).trans ?_
      constructor
      · rintro ⟨o', hle, ho'⟩
        obtain ⟨o'', hle', ho''⟩ := (h o').1 ho'
        exact ⟨o'', hle.trans hle', ho''⟩
      · rintro ⟨o', hle, ho'⟩
        exact ⟨o', hle, (h o').2 ⟨o', le_rfl, ho'⟩⟩

theorem mono (h : Settles b b') (ho : b.Arrived o) : b'.Arrived o := by
  rcases h with h | h
  · exact (h o).2 ho
  · exact (h o).2 ⟨o, le_rfl, ho⟩

theorem lt (h : Settles b b') (hlt : ∀ o, b.Arrived o → o < written) (ho : b'.Arrived o) :
    o < written := by
  rcases h with h | h
  · exact hlt o ((h o).1 ho)
  · obtain ⟨o', hle, ho'⟩ := (h o).1 ho
    exact hle.trans_lt (hlt o' ho')

/-- A frame that is not torn before is not torn by giving up a gap. -/
theorem allOrNone (h : Settles b b') (hf : AllOrNone f b) : AllOrNone f b' := by
  rcases hf with hall | hnone
  · exact .inl fun o ho => h.mono (hall o ho)
  · rcases h with h | h
    · exact .inr fun o ho hc => hnone o ho ((h o).1 hc)
    · by_cases hbehind : ∃ o', f.stop ≤ o' ∧ b.Arrived o'
      · obtain ⟨o', hle, ho'⟩ := hbehind
        exact .inl fun o ho => (h o).2 ⟨o', ho.2.le.trans hle, ho'⟩
      · refine .inr fun o ho hc => ?_
        obtain ⟨o', hle, ho'⟩ := (h o).1 hc
        rcases Nat.lt_or_ge o' f.stop with hlt | hge
        · exact hnone o' ⟨ho.1.trans hle, hlt⟩ ho'
        · exact hbehind ⟨o', hge, ho'⟩

end Settles

/-- Reading changes nothing about what has arrived. -/
theorem arrived_of_reads (hG : Gapped b) (hn : n ≤ b.readableBytes)
    (htotal : b'.totalBytesRead = b.totalBytesRead + n) (hgaps : b'.gaps = b.gaps) :
    b'.Arrived o ↔ b.Arrived o := by
  unfold Buffer.Arrived Buffer.Unread
  rw [htotal, hgaps]
  constructor
  · rintro (hlt | ⟨hge, hrest⟩)
    · rcases Nat.lt_or_ge o b.totalBytesRead with hlt' | hge'
      · exact .inl hlt'
      · exact .inr (hG.unread_of_readable hge' (by omega))
    · exact .inr ⟨by omega, hrest⟩
  · rintro (hlt | ⟨hge, hrest⟩)
    · exact .inl (by omega)
    · rcases Nat.lt_or_ge o (b.totalBytesRead + n) with hlt' | hge'
      · exact .inl hlt'
      · exact .inr ⟨hge', hrest⟩

theorem arrived_clear : b.clear.Arrived o ↔ o < b.totalBytesRead :=
  or_iff_left not_unread_clear

/-- Flushing gives up every gap but the last one. -/
theorem arrived_flush (hG : Gapped b) :
    b.flushBufferedFrames.2.Arrived o ↔ ∃ o', o ≤ o' ∧ b.Arrived o' := by
  obtain ⟨before, start, hl⟩ := hG.last
  have htotal : (b.gaps.getLastD (b.totalBytesRead, kMaxOffset)).1 = start := by
    rw [hl]
    simp
  have hge : b.totalBytesRead ≤ start := hG.ge (start, kMaxOffset) (by simp [hl])
  have hiff : b.flushBufferedFrames.2.Arrived o ↔ o < start := by
    unfold Buffer.flushBufferedFrames
    dsimp only
    rw [htotal]
    exact arrived_clear
  rw [hiff]
  constructor
  · intro hlt
    by_cases hempty : b.empty = true
    · refine ⟨o, le_rfl, .inl ?_⟩
      unfold Buffer.empty at hempty
      rw [hl] at hempty
      cases before with
      | nil =>
        have : start = b.totalBytesRead := of_decide_eq_true hempty
        omega
      | cons f before => cases before <;> simp at hempty
    · exact ⟨start - 1, by omega, .inr (hG.unread_last hl (Bool.eq_false_iff.2 hempty)).1⟩
  · rintro ⟨o', hle, hlt | hun⟩
    · omega
    · exact hle.trans_lt (lt_of_unread hl hun)

theorem Sound.congr_content (h : Sound content b) (hc : ∀ o, b.Unread o → content' o = content o) :
    Sound content' b where
  gapped := h.gapped
  holds :=
    { allocated := h.holds.allocated
      bytes := by
        intro o ho
        obtain ⟨block, hb, hbyte⟩ := h.holds.bytes o ho
        exact ⟨block, hb, hbyte.trans (hc o ho).symm⟩
      used := h.holds.used }
  count := h.count
  framed := h.framed

/-! ## What holds of a receiver -/

/-- An ending for which the limits of the buffer are the reason. -/
def Ending.OfLimits (e : Ending) : Prop :=
  e = .streamData .internalError ∨ e = .streamData .tooManyFrameGaps

/-- **What holds of a receiver of a stream**, of which `written` bytes have been sent. -/
structure Receiving (content : ℕ → UInt8) (written : ℕ) (isEnd : ℕ → Prop) (r : Receiver) :
    Prop where
  sound : Sound content r.buffer
  capacity : r.buffer.maxBufferCapacityBytes = maxBufferCapacityBytes
  lt : ∀ o, r.buffer.Arrived o → o < written
  close : r.closeOffset = kMaxOffset ∨ isEnd r.closeOffset
  received : r.ignoreReadData = false →
    r.received = BufferBlock.slice content 0 r.buffer.totalBytesRead
  finRead : r.ignoreReadData = false → r.finRead = true → isEnd r.buffer.totalBytesRead
  ending : ∀ e, r.ending = some e → e.OfLimits

/-- A receiver that has gone on from `r` without a new frame. -/
structure Serves (content : ℕ → UInt8) (written : ℕ) (isEnd : ℕ → Prop) (r r' : Receiver) :
    Prop where
  receiving : Receiving content written isEnd r'
  settles : Settles r.buffer r'.buffer
  ending : r'.ending = r.ending
  closeOffset : r'.closeOffset = r.closeOffset
  le : r.buffer.totalBytesRead ≤ r'.buffer.totalBytesRead

namespace Serves

theorem refl (h : Receiving content written isEnd r) : Serves content written isEnd r r :=
  ⟨h, .refl _, rfl, rfl, le_rfl⟩

theorem trans (h : Serves content written isEnd r r') (h' : Serves content written isEnd r' r'') :
    Serves content written isEnd r r'' :=
  ⟨h'.receiving, h.settles.trans h'.settles, h'.ending.trans h.ending,
    h'.closeOffset.trans h.closeOffset, h.le.trans h'.le⟩

end Serves

theorem mapM_id_map_some {α : Type*} (l : List α) : (l.map some).mapM id = some l := by
  induction l with
  | nil => rfl
  | cons a l ih =>
    rw [List.map_cons, List.mapM_cons, ih]
    rfl

namespace Receiving

theorem totalBytesRead_le (h : Receiving content written isEnd r) :
    r.buffer.totalBytesRead ≤ written := by
  rcases Nat.eq_zero_or_pos r.buffer.totalBytesRead with hzero | hpos
  · omega
  · have := h.lt (r.buffer.totalBytesRead - 1) (.inl (by omega))
    omega

theorem totalBytesRead_lt (h : Receiving content written isEnd r) :
    r.buffer.totalBytesRead < kMaxOffset := by
  obtain ⟨g, rest, hl⟩ := h.sound.gapped.exists_cons
  have hg : g ∈ r.buffer.gaps := hl ▸ List.mem_cons_self ..
  have := h.sound.gapped.ge g hg
  have := h.sound.gapped.fits g hg
  have := h.sound.gapped.capacity_pos
  unfold kMaxOffset
  omega

section End

variable (hend : ∀ n, isEnd n → written ≤ n)

include hend

/-- A sequencer is closed where the stream ends. -/
theorem isEnd_of_isClosed (h : Receiving content written isEnd r) (hc : r.isClosed = true) :
    isEnd r.buffer.totalBytesRead := by
  have hle : r.closeOffset ≤ r.buffer.totalBytesRead := of_decide_eq_true hc
  have htotal := h.totalBytesRead_le
  have hlt := h.totalBytesRead_lt
  rcases h.close with hmax | hisEnd
  · omega
  · have := hend _ hisEnd
    rwa [show r.buffer.totalBytesRead = r.closeOffset by omega]

/-- **Bytes are read**, as they follow. -/
theorem advance (h : Receiving content written isEnd r) (hb : Sound content b)
    (hn : n ≤ r.buffer.readableBytes)
    (htotal : b.totalBytesRead = r.buffer.totalBytesRead + n) (hgaps : b.gaps = r.buffer.gaps)
    (hcap : b.maxBufferCapacityBytes = r.buffer.maxBufferCapacityBytes) :
    Serves content written isEnd r
      { r with
        buffer := b
        received := r.received ++ BufferBlock.slice content r.buffer.totalBytesRead n } where
  settles := .inl fun o => arrived_of_reads h.sound.gapped hn htotal hgaps
  ending := rfl
  closeOffset := rfl
  le := htotal ▸ Nat.le_add_right _ _
  receiving :=
    { sound := hb
      capacity := hcap.trans h.capacity
      lt := fun o ho => h.lt o ((arrived_of_reads h.sound.gapped hn htotal hgaps).1 ho)
      close := h.close
      received := by
        intro hignore
        show r.received ++ _ = BufferBlock.slice content 0 b.totalBytesRead
        have happend := @slice_append content 0 r.buffer.totalBytesRead n
        rw [Nat.zero_add] at happend
        rw [h.received hignore, htotal, happend]
      finRead := by
        intro hignore hfin
        have hisEnd := h.finRead hignore hfin
        -- There is nothing behind the end.
        have hzero : n = 0 := by
          by_contra hne
          have hun := h.sound.gapped.unread_of_readable (o := r.buffer.totalBytesRead) le_rfl
            (by omega)
          have := h.lt _ (.inr hun)
          have := hend _ hisEnd
          omega
        show isEnd b.totalBytesRead
        rwa [htotal, hzero, Nat.add_zero]
      ending := h.ending }

theorem readv (h : Receiving content written isEnd r) (lengths : List ℕ) :
    Serves content written isEnd r (r.read (.readv lengths)) := by
  obtain ⟨vectors, b, heq, hb, hflat, -, htotal, hgaps, hcap⟩ := h.sound.readv lengths
  have hread : r.read (.readv lengths) =
      { r with buffer := b, received := r.received ++ vectors.flatten } := by
    unfold Receiver.read
    dsimp only
    rw [heq]
  rw [hread, hflat]
  exact h.advance hend hb (Nat.min_le_right _ _) htotal hgaps hcap

theorem readRegions (h : Receiving content written isEnd r) (more : ℕ) :
    Serves content written isEnd r (r.read (.regions more)) := by
  have hmore : 0 < more + 1 := Nat.succ_pos more
  obtain ⟨regions, n, heq, hflat, hn, -⟩ := h.sound.getReadableRegions hmore
  obtain ⟨b, heq', hb, htotal, hgaps, hcap⟩ := h.sound.markConsumed hn
  have hread : r.read (.regions more) =
      { r with buffer := b, received := r.received ++ regions.flatten } := by
    show r.consumeRegions _ = _
    rw [heq, mapM_id_map_some]
    show r.consumed _ _ = _
    rw [hflat, length_slice, heq']
    rfl
  rw [hread, hflat]
  exact h.advance hend hb hn htotal hgaps hcap

theorem read (h : Receiving content written isEnd r) (y : Reading) :
    Serves content written isEnd r (r.read y) := by
  cases y with
  | readv lengths => exact h.readv hend lengths
  | regions more => exact h.readRegions hend more

theorem foldl_read (h : Receiving content written isEnd r) (reads : List Reading) :
    Serves content written isEnd r (reads.foldl Receiver.read r) := by
  induction reads generalizing r with
  | nil => exact .refl h
  | cons y reads ih => exact (h.read hend y).trans (ih (h.read hend y).receiving)

theorem onDataAvailable (h : Receiving content written isEnd r) (x : Reader) :
    Serves content written isEnd r (r.onDataAvailable x) := by
  have hreads := h.foldl_read hend x.reads
  unfold Receiver.onDataAvailable
  dsimp only
  split_ifs with hfin
  · obtain ⟨-, hclosed⟩ := Bool.and_eq_true _ _ ▸ hfin
    have hr := hreads.receiving
    have hisEnd := hr.isEnd_of_isClosed hend hclosed
    exact ⟨⟨hr.sound, hr.capacity, hr.lt, hr.close, hr.received, fun _ _ => hisEnd, hr.ending⟩,
      hreads.settles, hreads.ending, hreads.closeOffset, hreads.le⟩
  · exact hreads

/-- The buffer of a closed sequencer is cleared; nothing is in it. -/
theorem clear (h : Receiving content written isEnd r) (hc : r.isClosed = true) :
    Serves content written isEnd r { r with buffer := r.buffer.clear } := by
  have harrived : ∀ o, r.buffer.clear.Arrived o ↔ r.buffer.Arrived o := by
    intro o
    rw [arrived_clear]
    refine ⟨.inl, fun ho => ?_⟩
    have := h.lt o ho
    have := hend _ (h.isEnd_of_isClosed hend hc)
    omega
  exact ⟨⟨h.sound.clear, h.capacity, fun o ho => h.lt o ((harrived o).1 ho), h.close, h.received,
    h.finRead, h.ending⟩, .inl harrived, rfl, rfl, le_rfl⟩

theorem maybeCloseStream (h : Receiving content written isEnd r) (x : Reader) :
    Serves content written isEnd r (r.maybeCloseStream x) := by
  unfold Receiver.maybeCloseStream
  split_ifs with hstay hignore
  · exact .refl h
  · have hclosed : r.isClosed = true := by
      cases hc : r.isClosed <;> simp [hc] at hstay ⊢
    have hread : Serves content written isEnd r { r with finRead := true } :=
      ⟨⟨h.sound, h.capacity, h.lt, h.close, h.received,
        fun hi => absurd (hignore.symm.trans hi) (by decide), h.ending⟩, .refl _, rfl, rfl, le_rfl⟩
    exact hread.trans (hread.receiving.clear hend hclosed)
  · have hclosed : r.isClosed = true := by
      cases hc : r.isClosed <;> simp [hc] at hstay ⊢
    have hread := h.onDataAvailable hend x
    refine hread.trans (hread.receiving.clear hend (decide_eq_true ?_))
    rw [hread.closeOffset]
    exact (of_decide_eq_true hclosed).trans hread.le

/-- `FlushBufferedFrames`, if the data is not to be read. -/
theorem flushBufferedFrames (h : Receiving content written isEnd r)
    (hignore : r.ignoreReadData = true) (x : Reader) :
    Serves content written isEnd r (r.flushBufferedFrames x) := by
  have hG := h.sound.gapped
  have hsettles : Settles r.buffer r.buffer.flushBufferedFrames.2 :=
    .inr fun o => arrived_flush hG
  have hflush : Serves content written isEnd r
      { r with buffer := r.buffer.flushBufferedFrames.2 } :=
    ⟨⟨h.sound.flushBufferedFrames, h.capacity, fun o ho => hsettles.lt h.lt ho, h.close,
      fun hi => absurd (hignore.symm.trans hi) (by decide),
      fun hi => absurd (hignore.symm.trans hi) (by decide), h.ending⟩, hsettles, rfl, rfl, by
      obtain ⟨before, start, hl⟩ := hG.last
      show _ ≤ (r.buffer.gaps.getLastD (r.buffer.totalBytesRead, kMaxOffset)).1
      have hge : r.buffer.totalBytesRead ≤ start := hG.ge (start, kMaxOffset) (by simp [hl])
      rw [hl]
      simpa using hge⟩
  exact hflush.trans (hflush.receiving.maybeCloseStream hend x)

theorem setUnblocked (h : Receiving content written isEnd r) (x : Reader) :
    Serves content written isEnd r (r.setUnblocked x) := by
  have hunblock : Serves content written isEnd r { r with blocked := false } :=
    ⟨⟨h.sound, h.capacity, h.lt, h.close, h.received, h.finRead, h.ending⟩, .refl _, rfl, rfl,
      le_rfl⟩
  unfold Receiver.setUnblocked
  dsimp only
  split_ifs
  · exact hunblock.trans (hunblock.receiving.onDataAvailable hend x)
  · exact hunblock

theorem stopReading (h : Receiving content written isEnd r) (x : Reader) :
    Serves content written isEnd r (r.stopReading x) := by
  unfold Receiver.stopReading
  split_ifs
  · exact .refl h
  · have hstop : Serves content written isEnd r { r with ignoreReadData := true } :=
      ⟨⟨h.sound, h.capacity, h.lt, h.close, Bool.noConfusion, Bool.noConfusion, h.ending⟩,
        .refl _, rfl, rfl, le_rfl⟩
    exact hstop.trans (hstop.receiving.flushBufferedFrames hend rfl x)

end End

theorem setBlockedUntilFlush (h : Receiving content written isEnd r) :
    Serves content written isEnd r r.setBlockedUntilFlush :=
  ⟨⟨h.sound, h.capacity, h.lt, h.close, h.received, h.finRead, h.ending⟩, .refl _, rfl, rfl, le_rfl⟩

theorem releaseBufferIfEmpty (h : Receiving content written isEnd r) :
    Serves content written isEnd r r.releaseBufferIfEmpty := by
  unfold Receiver.releaseBufferIfEmpty
  split_ifs with hempty
  · have harrived : ∀ o, r.buffer.releaseWholeBuffer.Arrived o ↔ r.buffer.Arrived o := fun o =>
      (or_iff_left not_unread_clear).trans
        (or_iff_left (h.sound.gapped.not_unread_of_empty hempty)).symm
    exact ⟨⟨h.sound.releaseWholeBuffer, h.capacity, fun o ho => h.lt o ((harrived o).1 ho), h.close,
      h.received, h.finRead, h.ending⟩, .inl harrived, rfl, rfl, le_rfl⟩
  · exact .refl h

end Receiving

/-! ## Frames -/

/-- **A frame of the stream.** -/
structure Part (content : ℕ → UInt8) (written : ℕ) (isEnd : ℕ → Prop) (f : DataFrame) : Prop where
  carries : Carries content f.offset f.data
  le : f.stop ≤ written
  fits : f.stop + maxBufferCapacityBytes < 2 ^ 64
  fin : f.fin = true → isEnd f.stop
  nonempty : f.data = [] → f.fin = true

/-- **What a receiver makes of a frame**: the bytes are there, or a limit is exceeded. -/
structure Takes (content : ℕ → UInt8) (written : ℕ) (isEnd : ℕ → Prop) (r : Receiver)
    (f : DataFrame) (r' : Receiver) : Prop where
  receiving : Receiving content written isEnd r'
  outcome : (r'.ending ≠ none ∧ Settles r.buffer r'.buffer) ∨
    (r'.ending = r.ending ∧ ∃ b b', Settles r.buffer b ∧
      (∀ o, b'.Arrived o ↔ b.Arrived o ∨ f.Has o) ∧ Settles b' r'.buffer)

namespace Takes

/-- What has arrived stays so. -/
theorem mono (h : Takes content written isEnd r f r') (ho : r.buffer.Arrived o) :
    r'.buffer.Arrived o := by
  rcases h.outcome with ⟨-, hs⟩ | ⟨-, b, b', hs, hb, hs'⟩
  · exact hs.mono ho
  · exact hs'.mono ((hb o).2 (.inl (hs.mono ho)))

/-- The frame has arrived, unless a limit is exceeded. -/
theorem arrived (h : Takes content written isEnd r f r') (hr : r'.ending = none) (ho : f.Has o) :
    r'.buffer.Arrived o := by
  rcases h.outcome with ⟨hne, -⟩ | ⟨-, b, b', -, hb, hs'⟩
  · exact absurd hr hne
  · exact hs'.mono ((hb o).2 (.inr ho))

/-- Another frame is not torn by it, nor is the same one. -/
theorem allOrNone (h : Takes content written isEnd r f r') (hg : AllOrNone g r.buffer)
    (hfg : (∀ o, f.Has o → ¬ g.Has o) ∨ ∀ o, g.Has o → f.Has o) : AllOrNone g r'.buffer := by
  rcases h.outcome with ⟨-, hs⟩ | ⟨-, b, b', hs, hb, hs'⟩
  · exact hs.allOrNone hg
  · refine hs'.allOrNone ?_
    rcases hfg with hdisj | hsub
    · rcases hs.allOrNone hg with hall | hnone
      · exact .inl fun o ho => (hb o).2 (.inl (hall o ho))
      · refine .inr fun o ho hc => ?_
        rcases (hb o).1 hc with hold | hnew
        · exact hnone o ho hold
        · exact hdisj o hnew ho
    · exact .inl fun o ho => (hb o).2 (.inr (hsub o ho))

theorem of_serves (h : Receiving content written isEnd r') (hs : Settles r.buffer r'.buffer)
    (hending : r'.ending = r.ending) (hf : ∀ o, f.Has o → r'.buffer.Arrived o) :
    Takes content written isEnd r f r' :=
  ⟨h, .inr ⟨hending, r'.buffer, r'.buffer, hs, fun o => (or_iff_left_of_imp (hf o)).symm, .refl _⟩⟩

/-- The limits of the buffer are exceeded. -/
theorem of_limits (h : Receiving content written isEnd r) {e : Ending} (he : e.OfLimits) :
    Takes content written isEnd r f { r with ending := some e } :=
  ⟨⟨h.sound, h.capacity, h.lt, h.close, h.received, h.finRead, fun e' he' => by
    obtain rfl := Option.some.inj he'
    exact he⟩, .inl ⟨by simp, .refl _⟩⟩

end Takes

namespace Receiving

variable (hend : ∀ n, isEnd n → written ≤ n) (huniq : ∀ m n, isEnd m → isEnd n → m = n)

include hend

/-- **The data of a frame.** -/
theorem onStreamData (h : Receiving content written isEnd r) (hf : Part content written isEnd f)
    (hdata : f.data ≠ []) (hall : AllOrNone f r.buffer) (timestamp : ℤ) (x : Reader) :
    Takes content written isEnd r f (r.onStreamData f timestamp x) ∧
      (r.onStreamData f timestamp x).closeOffset = r.closeOffset := by
  have hfits : Fits content r.buffer.maxBufferCapacityBytes f.offset f.data :=
    ⟨List.length_pos_of_ne_nil hdata, hf.carries, h.capacity ▸ hf.fits⟩
  unfold Receiver.onStreamData
  rcases hall with hold | hnew
  · rw [h.sound.faithful.duplicate _ _ _ hfits fun o ho ho' => hold o ⟨ho, ho'⟩]
    exact ⟨.of_serves h (.refl _) rfl hold, rfl⟩
  have hcovered : ∀ o, f.offset ≤ o → o < f.offset + f.data.length → Covered r.buffer.gaps o :=
    fun o ho ho' => not_not.1 fun hc =>
      hnew o ⟨ho, ho'⟩ ((hfits.arrived_iff h.sound.gapped ho').2 hc)
  rcases h.sound.onStreamData_new timestamp hfits.pos hfits.fits hfits.carries hcovered with
    ⟨heq, -⟩ | ⟨heq, -⟩ | ⟨b, heq, hb, -, htotal, hcap, hunread⟩
  · rw [heq]
    exact ⟨.of_limits h (.inl rfl), rfl⟩
  · rw [heq]
    exact ⟨.of_limits h (.inr rfl), rfl⟩
  rw [heq]
  dsimp only
  -- The bytes are in the buffer now, and the stream may be told.
  have harrived : ∀ o, b.Arrived o ↔ r.buffer.Arrived o ∨ f.Has o := by
    intro o
    unfold Buffer.Arrived
    rw [hunread, htotal, or_assoc]
    rfl
  have hbuffered : Receiving content written isEnd { r with buffer := b } := by
    refine ⟨hb, hcap.trans h.capacity, fun o ho => ?_, h.close, fun hi => ?_, fun hi hfin => ?_,
      h.ending⟩
    · rcases (harrived o).1 ho with hold | hnew
      · exact h.lt o hold
      · exact hnew.2.trans_le hf.le
    · show r.received = BufferBlock.slice content 0 b.totalBytesRead
      rw [htotal]
      exact h.received hi
    · show isEnd b.totalBytesRead
      rw [htotal]
      exact h.finRead hi hfin
  have htakes : ∀ r', Serves content written isEnd { r with buffer := b } r' →
      Takes content written isEnd r f r' ∧ r'.closeOffset = r.closeOffset := fun r' hs =>
    ⟨⟨hs.receiving, .inr ⟨hs.ending, r.buffer, b, .refl _, harrived, hs.settles⟩⟩, hs.closeOffset⟩
  split_ifs with hblocked hoffset hignore
  · exact htakes _ (.refl hbuffered)
  · exact htakes _ (hbuffered.flushBufferedFrames hend hignore x)
  · exact htakes _ (hbuffered.onDataAvailable hend x)
  · exact htakes _ (.refl hbuffered)

include huniq

theorem closeStreamAtOffset (h : Receiving content written isEnd r) (hn : isEnd n) (x : Reader) :
    Receiving content written isEnd (r.closeStreamAtOffset n x) ∧
      Settles r.buffer (r.closeStreamAtOffset n x).buffer ∧
      (r.closeStreamAtOffset n x).ending = r.ending ∧
      (r.closeStreamAtOffset n x).closeOffset = n := by
  have hsame : ¬ (r.closeOffset ≠ kMaxOffset ∧ n ≠ r.closeOffset) := by
    rintro ⟨hmax, hne⟩
    exact hne (huniq _ _ hn (h.close.resolve_left hmax))
  have hclose : Receiving content written isEnd { r with closeOffset := n } :=
    ⟨h.sound, h.capacity, h.lt, .inr hn, h.received, h.finRead, h.ending⟩
  have hserves := hclose.maybeCloseStream hend x
  unfold Receiver.closeStreamAtOffset
  rw [if_neg hsame]
  exact ⟨hserves.receiving, hserves.settles, hserves.ending, hserves.closeOffset⟩

/-- **A frame of the stream is taken**, if it is not torn. -/
theorem onStreamFrame (h : Receiving content written isEnd r) (hf : Part content written isEnd f)
    (hall : AllOrNone f r.buffer) (timestamp : ℤ) (x : Reader) :
    Takes content written isEnd r f (r.onStreamFrame f timestamp x) ∧
      (r.onStreamFrame f timestamp x).closeOffset =
        if f.fin = true then f.stop else r.closeOffset := by
  have hstop : wrapAdd f.offset f.data.length = f.stop := by
    have := hf.fits
    unfold DataFrame.stop at this ⊢
    exact wrapAdd_eq (by omega)
  unfold Receiver.onStreamFrame
  rw [hstop]
  by_cases hfin : f.fin = true
  · obtain ⟨hclose, hsettles, hending, hoffset⟩ :=
      h.closeStreamAtOffset hend huniq (hf.fin hfin) x
    rw [if_pos hfin, if_pos hfin, hfin, Bool.true_and]
    by_cases hdata : f.data = []
    · rw [if_pos (by rw [hdata]; rfl)]
      refine ⟨.of_serves hclose hsettles hending fun o ho => ?_, hoffset⟩
      have hlt := ho.2
      unfold DataFrame.stop at hlt
      rw [hdata, List.length_nil] at hlt
      exact absurd ho.1 (by omega)
    · rw [if_neg (by rwa [List.isEmpty_iff])]
      obtain ⟨⟨hr, houtcome⟩, hsame⟩ :=
        hclose.onStreamData hend hf hdata (hsettles.allOrNone hall) timestamp x
      refine ⟨⟨hr, ?_⟩, hsame.trans hoffset⟩
      rcases houtcome with ⟨hne, hs⟩ | ⟨heq, b, b', hs, hb, hs'⟩
      · exact .inl ⟨hne, hsettles.trans hs⟩
      · exact .inr ⟨heq.trans hending, b, b', hsettles.trans hs, hb, hs'⟩
  · rw [if_neg hfin, if_neg hfin, Bool.eq_false_iff.2 hfin, Bool.false_and, if_neg (by decide)]
    exact h.onStreamData hend hf (fun hdata => hfin (hf.nonempty hdata)) hall timestamp x

end Receiving

end Reassembly
end QuicNs3
