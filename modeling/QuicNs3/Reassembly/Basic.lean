/-
# The blocks behind a stream

`QuicStreamSequencerBuffer` keeps the data of a stream from its arrival until it is read.  The
bytes lie in a ring of blocks of `kBlockSizeBytes`; a block is allocated when the first byte is
written to it, and deleted ("retired") when the last one has been read.  Which bytes have
arrived is known from the gaps (`Streams.SequencerBuffer`), and when they did from a map with
an entry for each frame.

A block is a function from positions to bytes, and those of a new block are zero, as
`new BufferBlock()` makes them.  The loops of the source run until nothing is left to copy; each
has fuel for one pass per byte, and `endless` is what becomes of a loop that makes no progress.
`invalidState` stands for the error of that name and for the use of a null pointer.

The offsets of `OnStreamData` are sums of 64 bits, as in `Streams.SequencerBuffer`; those of the
loops stay below `total_bytes_read_ + max_buffer_capacity_bytes_`.  The texts of the errors are
left out.
-/

import QuicNs3.Lib.Ring
import QuicNs3.Streams.Sequencer

namespace QuicNs3
namespace Reassembly

open Lib Streams

/-- `QuicStreamSequencerBuffer::kBlockSizeBytes`. -/
def kBlockSizeBytes : ℕ := 8 * 1024

/-- `BufferBlock`. -/
abbrev BufferBlock : Type := ℕ → UInt8

/-- `new BufferBlock()`. -/
def BufferBlock.new : BufferBlock := fun _ => 0

/-- `memcpy`, into a block from the position `start` on. -/
def memcpy (block : BufferBlock) (start : ℕ) (source : List UInt8) : BufferBlock :=
  fun i => if start ≤ i then source.getD (i - start) (block i) else block i

/-- The bytes of a block from the position `start` on. -/
def BufferBlock.slice (block : BufferBlock) (start length : ℕ) : List UInt8 :=
  (List.range length).map fun i => block (start + i)

/-- `FrameInfo`. -/
structure FrameInfo where
  length : ℕ
  timestamp : ℤ
  deriving Repr, DecidableEq

/-- `QuicStreamSequencerBuffer`. -/
structure Buffer where
  maxBufferCapacityBytes : ℕ
  totalBytesRead : ℕ
  /-- Begin and end offset of each gap. -/
  gaps : List (ℕ × ℕ)
  /-- Whether `blocks_` is not null. -/
  allocated : Bool
  blocks : ℕ → Option BufferBlock
  numBytesBuffered : ℕ
  /-- `std::map`, as a list in the order of its keys. -/
  frameArrivalTimeMap : List (ℕ × FrameInfo)

/-- What keeps an operation from being finished. -/
inductive Failure
  | invalidState
  | endless
  deriving Repr, DecidableEq

/-- What `OnStreamData` makes of a frame. -/
inductive DataResult
  | error (e : StreamDataError)
  | failure (f : Failure)
  /-- No error, and no bytes buffered. -/
  | duplicate
  | buffered (b : Buffer)
  /-- The search for a gap has run past the end of the list. -/
  | invalid

/-! ## The map of the frames -/

/-- `std::map::insert`, which leaves an entry that is there. -/
def insertFrame (offset : ℕ) (info : FrameInfo) : List (ℕ × FrameInfo) → List (ℕ × FrameInfo)
  | [] => [(offset, info)]
  | e :: frames =>
    if offset < e.1 then (offset, info) :: e :: frames
    else if offset = e.1 then e :: frames
    else e :: insertFrame offset info frames

/-- A pass of the loop of `UpdateFrameArrivalMap`, for the entry `e`. -/
def passFrame (offset : ℕ) (frames : List (ℕ × FrameInfo)) (e : ℕ × FrameInfo) :
    List (ℕ × FrameInfo) :=
  let rest := frames.filter fun e' => decide (e'.1 ≠ e.1)
  if offset < e.1 + e.2.length then
    insertFrame offset ⟨e.1 + e.2.length - offset, e.2.timestamp⟩ rest
  else rest

/-- `UpdateFrameArrivalMap`. -/
def updateFrameArrivalMap (frames : List (ℕ × FrameInfo)) (offset : ℕ) :
    List (ℕ × FrameInfo) :=
  (frames.takeWhile fun e => decide (e.1 ≤ offset)).foldl (passFrame offset) frames

namespace Buffer

/-! ## Places -/

/-- What `Streams` knows of the buffer. -/
def sequence (b : Buffer) : SequencerBuffer := ⟨b.totalBytesRead, b.gaps⟩

/-- `blocks_count_`. -/
def blocksCount (b : Buffer) : ℕ := Ring.blocksCount b.maxBufferCapacityBytes kBlockSizeBytes

/-- `GetBlockIndex`. -/
def getBlockIndex (b : Buffer) (offset : ℕ) : ℕ :=
  Ring.blockIndex b.maxBufferCapacityBytes kBlockSizeBytes offset

/-- `GetInBlockOffset`. -/
def getInBlockOffset (b : Buffer) (offset : ℕ) : ℕ :=
  Ring.inBlock b.maxBufferCapacityBytes kBlockSizeBytes offset

/-- `GetBlockCapacity`. -/
def getBlockCapacity (b : Buffer) (i : ℕ) : ℕ :=
  Ring.blockCapacity b.maxBufferCapacityBytes kBlockSizeBytes i

/-- `ReadOffset`. -/
def readOffset (b : Buffer) : ℕ := b.getInBlockOffset b.totalBytesRead

/-- `NextBlockToRead`. -/
def nextBlockToRead (b : Buffer) : ℕ := b.getBlockIndex b.totalBytesRead

/-- `ReadableBytes`. -/
def readableBytes (b : Buffer) : ℕ := b.sequence.readableBytes

/-- `Empty`. -/
def empty (b : Buffer) : Bool :=
  match b.gaps with
  | [g] => decide (g.1 = b.totalBytesRead)
  | _ => false

/-- `blocks_[i]`, if it is not null. -/
def block? (b : Buffer) (i : ℕ) : Option BufferBlock := if b.allocated then b.blocks i else none

/-! ## Construction and clearing -/

/-- `QuicStreamSequencerBuffer(max_capacity_bytes)`. -/
def new (maxCapacityBytes : ℕ) : Buffer where
  maxBufferCapacityBytes := maxCapacityBytes
  totalBytesRead := 0
  gaps := [(0, kMaxOffset)]
  allocated := false
  blocks := fun _ => none
  numBytesBuffered := 0
  frameArrivalTimeMap := []

/-- `Clear`. -/
def clear (b : Buffer) : Buffer :=
  { b with
    blocks := fun i => if i < b.blocksCount then none else b.blocks i
    numBytesBuffered := 0
    gaps := [(b.totalBytesRead, kMaxOffset)]
    frameArrivalTimeMap := [] }

/-- `ReleaseWholeBuffer`. -/
def releaseWholeBuffer (b : Buffer) : Buffer := { b.clear with allocated := false }

/-- `FlushBufferedFrames`, with the number of bytes flushed. -/
def flushBufferedFrames (b : Buffer) : ℕ × Buffer :=
  let total := (b.gaps.getLastD (b.totalBytesRead, kMaxOffset)).1
  (wrapSub total b.totalBytesRead, { b with totalBytesRead := total }.clear)

/-! ## Writing -/

/-- What is left of the loop of `OnStreamData`, at `offset` with the bytes `source`. -/
def writeBlocks : ℕ → Buffer → ℕ → List UInt8 → Except Failure Buffer
  | _, b, _, [] => .ok b
  | 0, _, _, _ :: _ => .error .endless
  | fuel + 1, b, offset, byte :: bytes =>
    let i := b.getBlockIndex offset
    let start := b.getInBlockOffset offset
    let room := b.getBlockCapacity i - start
    let bytesAvail :=
      if b.totalBytesRead + b.maxBufferCapacityBytes < offset + room then
        b.totalBytesRead + b.maxBufferCapacityBytes - offset
      else room
    if b.blocksCount ≤ i then .error .invalidState
    else
      let bytesToCopy := min bytesAvail (byte :: bytes).length
      -- A block that is null is allocated, and so is the array of the blocks.
      let block := (b.block? i).getD BufferBlock.new
      let written := memcpy block start ((byte :: bytes).take bytesToCopy)
      let blocks := if b.allocated then b.blocks else fun _ => none
      writeBlocks fuel
        { b with allocated := true, blocks := Function.update blocks i (some written) }
        (offset + bytesToCopy) ((byte :: bytes).drop bytesToCopy)

/-- `OnStreamData`. -/
def onStreamData (b : Buffer) (offset : ℕ) (data : List UInt8) (timestamp : ℤ) : DataResult :=
  let stop := wrapAdd offset data.length
  if data.length = 0 then .error .emptyStreamFrameNoFin
  else
    match b.gaps.dropWhile fun g => decide (g.2 ≤ offset) with
    | [] => .invalid
    | g :: after =>
      if offset < g.1 ∧ stop ≤ g.1 then .duplicate
      else if offset < g.1 then .error .overlappingStreamData
      else if g.2 < stop then .error .overlappingStreamData
      else if wrapAdd b.totalBytesRead b.maxBufferCapacityBytes < stop then .error .internalError
      else if g.1 ≠ offset ∧ g.2 ≠ stop ∧ kMaxNumGapsAllowed ≤ b.gaps.length then
        .error .tooManyFrameGaps
      else
        match b.writeBlocks data.length offset data with
        | .error f => .failure f
        | .ok b' =>
          let before := b.gaps.takeWhile fun g => decide (g.2 ≤ offset)
          .buffered { b' with
            gaps := SequencerBuffer.updateGapList before g after offset stop
            frameArrivalTimeMap := insertFrame offset ⟨data.length, timestamp⟩ b.frameArrivalTimeMap
            numBytesBuffered := b.numBytesBuffered + data.length }

/-! ## Reading -/

/-- `RetireBlock`, if there is a block to delete. -/
def retireBlock (b : Buffer) (i : ℕ) : Option Buffer :=
  (b.block? i).map fun _ => { b with blocks := Function.update b.blocks i none }

/-- `RetireBlockIfEmpty`. -/
def retireBlockIfEmpty (b : Buffer) (i : ℕ) : Option Buffer :=
  if b.empty then b.retireBlock i
  else if b.getBlockIndex ((b.gaps.getLastD (0, kMaxOffset)).1 - 1) = i then some b
  else if b.nextBlockToRead = i ∧ b.getBlockIndex (b.gaps.headD (0, kMaxOffset)).2 = i then some b
  else b.retireBlock i

/-- How many bytes can be read from the block in which the next read begins. -/
def availableInBlock (b : Buffer) : ℕ :=
  min b.readableBytes (b.getBlockCapacity b.nextBlockToRead - b.readOffset)

/-- The counters after `n` bytes have been read. -/
def advance (b : Buffer) (n : ℕ) : Buffer :=
  { b with
    totalBytesRead := b.totalBytesRead + n
    numBytesBuffered := wrapSub b.numBytesBuffered n }

/-- A pass of the inner loop of `Readv`, with room for `remaining` bytes. -/
def readBlock (b : Buffer) (remaining : ℕ) : Except Failure (List UInt8 × Buffer) :=
  let i := b.nextBlockToRead
  let bytesToCopy := min b.availableInBlock remaining
  match b.block? i with
  | none => .error .invalidState
  | some block =>
    let bytes := block.slice b.readOffset bytesToCopy
    let b' := b.advance bytesToCopy
    if bytesToCopy = b.availableInBlock then
      match b'.retireBlockIfEmpty i with
      | none => .error .invalidState
      | some b'' => .ok (bytes, b'')
    else .ok (bytes, b')

/-- The inner loop of `Readv`, which fills one of the vectors. -/
def fillVector : ℕ → Buffer → ℕ → Except Failure (List UInt8 × Buffer)
  | fuel, b, remaining =>
    if remaining = 0 ∨ b.readableBytes = 0 then .ok ([], b)
    else
      match fuel with
      | 0 => .error .endless
      | fuel + 1 =>
        match b.readBlock remaining with
        | .error f => .error f
        | .ok (bytes, b') =>
          match fillVector fuel b' (remaining - bytes.length) with
          | .error f => .error f
          | .ok (more, b'') => .ok (bytes ++ more, b'')

/-- The outer loop of `Readv`, with the lengths of the vectors. -/
def fillVectors : Buffer → List ℕ → Except Failure (List (List UInt8) × Buffer)
  | b, [] => .ok ([], b)
  | b, length :: lengths =>
    if b.readableBytes = 0 then .ok ([], b)
    else
      match b.fillVector length length with
      | .error f => .error f
      | .ok (bytes, b') =>
        match fillVectors b' lengths with
        | .error f => .error f
        | .ok (more, b'') => .ok (bytes :: more, b'')

/-- `Readv`, with what it writes to each of the vectors. -/
def readv (b : Buffer) (lengths : List ℕ) : Except Failure (List (List UInt8) × Buffer) :=
  match b.fillVectors lengths with
  | .error f => .error f
  | .ok (vectors, b') =>
    if 0 < vectors.flatten.length then
      .ok (vectors, { b' with
        frameArrivalTimeMap := updateFrameArrivalMap b'.frameArrivalTimeMap b'.totalBytesRead })
    else .ok (vectors, b')

/-- The loop of `MarkConsumed`. -/
def consumeBlocks : ℕ → Buffer → ℕ → Except Failure Buffer
  | _, b, 0 => .ok b
  | 0, _, _ + 1 => .error .endless
  | fuel + 1, b, n + 1 =>
    let i := b.nextBlockToRead
    let bytesRead := min (n + 1) b.availableInBlock
    let b' := b.advance bytesRead
    -- Whether the block could be deleted is not looked at.
    let b'' := if b.availableInBlock = bytesRead then (b'.retireBlockIfEmpty i).getD b' else b'
    consumeBlocks fuel b'' (n + 1 - bytesRead)

/-- `MarkConsumed`, unless more is to be consumed than can be read. -/
def markConsumed (b : Buffer) (bytesUsed : ℕ) : Except Failure (Option Buffer) :=
  if b.readableBytes < bytesUsed then .ok none
  else
    match b.consumeBlocks bytesUsed bytesUsed with
    | .error f => .error f
    | .ok b' =>
      if 0 < bytesUsed then
        .ok (some { b' with
          frameArrivalTimeMap := updateFrameArrivalMap b'.frameArrivalTimeMap b'.totalBytesRead })
      else .ok (some b')

/-! ## Looking at what can be read -/

/-- The bytes an `iovec` with this block, position and length points to. -/
def region (b : Buffer) (i start length : ℕ) : Option (List UInt8) :=
  (b.block? i).map fun block => block.slice start length

/-- The loop of `GetReadableRegions` and what follows it, with room for `count` regions from
the block `i` on. -/
def regionsFrom (b : Buffer) (endBlock endOffset : ℕ) : ℕ → ℕ → List (Option (List UInt8))
  | 0, _ => []
  | count + 1, i =>
    if i = endBlock then [b.region endBlock 0 (endOffset + 1)]
    else
      b.region i 0 (b.getBlockCapacity i) ::
        regionsFrom b endBlock endOffset count ((i + 1) % b.blocksCount)

/-- `GetReadableRegions`, for `count` vectors. -/
def getReadableRegions (b : Buffer) (count : ℕ) : List (Option (List UInt8)) :=
  if b.readableBytes = 0 then []
  else
    let first := b.nextBlockToRead
    let last := (b.gaps.headD (b.totalBytesRead, kMaxOffset)).1 - 1
    let endOffset := b.getInBlockOffset last
    let endBlock := b.getBlockIndex last
    if first = endBlock ∧ b.readOffset ≤ endOffset then
      [b.region first b.readOffset b.readableBytes]
    else
      b.region first b.readOffset (b.getBlockCapacity first - b.readOffset) ::
        b.regionsFrom endBlock endOffset (count - 1) ((first + 1) % b.blocksCount)

/-- The loop of `GetReadableRegion`: how many bytes of the frames arrived with the first one,
and the first frame that did not or goes beyond the block. -/
def sameArrival (timestamp : ℤ) (readable : ℕ) :
    ℕ → List (ℕ × FrameInfo) → ℕ × List (ℕ × FrameInfo)
  | regionLen, [] => (regionLen, [])
  | regionLen, e :: frames =>
    if regionLen + e.2.length ≤ readable ∧ e.2.timestamp = timestamp then
      sameArrival timestamp readable (regionLen + e.2.length) frames
    else (regionLen, e :: frames)

/-- `GetReadableRegion`: the bytes of the next region, and when they arrived. -/
def getReadableRegion (b : Buffer) : Option (Option (List UInt8) × ℤ) :=
  if b.readableBytes = 0 then none
  else
    match b.frameArrivalTimeMap with
    | [] => none
    | e :: frames =>
      let (regionLen, rest) := sameArrival e.2.timestamp b.availableInBlock 0 (e :: frames)
      let length :=
        match rest with
        | [] => b.availableInBlock
        | e' :: _ => if e'.2.timestamp = e.2.timestamp then b.availableInBlock else regionLen
      some (b.region b.nextBlockToRead b.readOffset length, e.2.timestamp)

end Buffer

/-! ## Operations -/

/-- An operation on the buffer. -/
inductive Op
  | onStreamData (offset : ℕ) (data : List UInt8) (timestamp : ℤ)
  | readv (lengths : List ℕ)
  | markConsumed (bytesUsed : ℕ)
  | flushBufferedFrames
  | clear
  | releaseWholeBuffer

/-- The buffer after an operation, whatever the operation reports; none if the operation does
not come to an end or leaves the language. -/
def step (b : Buffer) : Op → Option Buffer
  | .onStreamData offset data timestamp =>
    match b.onStreamData offset data timestamp with
    | .error _ => some b
    | .duplicate => some b
    | .buffered b' => some b'
    | .failure _ => none
    | .invalid => none
  | .readv lengths => (b.readv lengths).toOption.map Prod.snd
  | .markConsumed n => (b.markConsumed n).toOption.map fun b' => b'.getD b
  | .flushBufferedFrames => some b.flushBufferedFrames.2
  | .clear => some b.clear
  | .releaseWholeBuffer => some b.releaseWholeBuffer

end Reassembly
end QuicNs3
