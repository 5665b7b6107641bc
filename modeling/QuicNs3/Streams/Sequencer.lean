/-
# Putting received data in order

`QuicStreamSequencerBuffer` keeps the offset up to which data has been read and the
list of the gaps in what has arrived behind it.  The last gap ends at the largest
offset, `kMaxOffset`.  `OnStreamData` fills a gap or a part of one, and refuses a frame
that overlaps what is there, reaches beyond the buffer or would make too many gaps.

`Sequencer` adds what decides whether data goes to the application: the offset at
which the stream is closed, whether the application is blocked, and whether it has
stopped reading.

The contents of the buffer are left out, with its blocks and arrival times: no offset
depends on them.  `OnStreamData` takes the first gap not ending before the frame and
does not check that there is one; if there is none the result is `invalid`.
-/

import QuicNs3.Lib.Word

namespace QuicNs3
namespace Streams

open Lib

/-- `std::numeric_limits<QuicStreamOffset>::max()`. -/
def kMaxOffset : ℕ := 2 ^ 64 - 1

/-- `kMaxNumGapsAllowed`. -/
def kMaxNumGapsAllowed : ℕ := 2 * 5000

/-- `max_buffer_capacity_bytes_`, which is `kStreamReceiveWindowLimit`. -/
def maxBufferCapacityBytes : ℕ := 16 * 1024 * 1024

/-- `QuicStreamSequencerBuffer`. -/
structure SequencerBuffer where
  totalBytesRead : ℕ
  /-- Begin and end offset of each gap. -/
  gaps : List (ℕ × ℕ)
  deriving Repr, DecidableEq

/-- The errors of `OnStreamData`. -/
inductive StreamDataError
  | emptyStreamFrameNoFin
  | overlappingStreamData
  | internalError
  | tooManyFrameGaps
  deriving Repr, DecidableEq

/-- What `OnStreamData` makes of a frame. -/
inductive StreamDataResult
  | error (e : StreamDataError)
  /-- No error, and no bytes buffered. -/
  | duplicate
  | buffered (b : SequencerBuffer)
  /-- The search for a gap has run past the end of the list. -/
  | invalid
  deriving Repr, DecidableEq

namespace SequencerBuffer

/-- `Clear`. -/
def clear (b : SequencerBuffer) : SequencerBuffer :=
  { b with gaps := [(b.totalBytesRead, kMaxOffset)] }

/-- `UpdateGapList`, for data from `start` to `stop` in the gap `g`. -/
def updateGapList (before : List (ℕ × ℕ)) (g : ℕ × ℕ) (after : List (ℕ × ℕ)) (start stop : ℕ) :
    List (ℕ × ℕ) :=
  if g.1 = start ∧ stop < g.2 then before ++ (stop, g.2) :: after
  else if g.1 < start ∧ g.2 = stop then before ++ (g.1, start) :: after
  else if g.1 < start ∧ stop < g.2 then before ++ (g.1, start) :: (stop, g.2) :: after
  else if g.1 = start ∧ g.2 = stop then before ++ after
  else before ++ g :: after

/-- `OnStreamData`. -/
def onStreamData (b : SequencerBuffer) (offset size : ℕ) : StreamDataResult :=
  let stop := wrapAdd offset size
  if size = 0 then .error .emptyStreamFrameNoFin
  else
    match b.gaps.dropWhile fun g => decide (g.2 ≤ offset) with
    | [] => .invalid
    | g :: after =>
      if offset < g.1 ∧ stop ≤ g.1 then .duplicate
      else if offset < g.1 then .error .overlappingStreamData
      else if g.2 < stop then .error .overlappingStreamData
      else if wrapAdd b.totalBytesRead maxBufferCapacityBytes < stop then .error .internalError
      else if g.1 ≠ offset ∧ g.2 ≠ stop ∧ kMaxNumGapsAllowed ≤ b.gaps.length then
        .error .tooManyFrameGaps
      else
        let before := b.gaps.takeWhile fun g => decide (g.2 ≤ offset)
        .buffered { b with gaps := updateGapList before g after offset stop }

/-- `ReadableBytes`. -/
def readableBytes (b : SequencerBuffer) : ℕ :=
  wrapSub (b.gaps.headD (b.totalBytesRead, kMaxOffset)).1 b.totalBytesRead

/-- `MarkConsumed`, of no more than the readable bytes. -/
def markConsumed (b : SequencerBuffer) (bytes : ℕ) : SequencerBuffer :=
  { b with totalBytesRead := wrapAdd b.totalBytesRead bytes }

/-- `FlushBufferedFrames`, with the number of bytes flushed. -/
def flushBufferedFrames (b : SequencerBuffer) : ℕ × SequencerBuffer :=
  let total := (b.gaps.getLastD (b.totalBytesRead, kMaxOffset)).1
  (wrapSub total b.totalBytesRead, { b with totalBytesRead := total }.clear)

end SequencerBuffer

/-- `QuicStreamSequencer`. -/
structure Sequencer where
  buffer : SequencerBuffer
  closeOffset : ℕ
  blocked : Bool
  ignoreReadData : Bool
  /-- Set when the search for a gap has run past the end of the list. -/
  strayed : Bool
  deriving Repr, DecidableEq

namespace Sequencer

/-- A new sequencer; that of a `QuicSpdyStream` is blocked until its headers are read. -/
def new (blocked : Bool) : Sequencer where
  buffer := ⟨0, [(0, kMaxOffset)]⟩
  closeOffset := kMaxOffset
  blocked := blocked
  ignoreReadData := false
  strayed := false

/-- `IsClosed`. -/
def isClosed (q : Sequencer) : Bool := decide (q.closeOffset ≤ q.buffer.totalBytesRead)

/-- `ReleaseBuffer`. -/
def releaseBuffer (q : Sequencer) : Sequencer := { q with buffer := q.buffer.clear }

end Sequencer

end Streams
end QuicNs3
