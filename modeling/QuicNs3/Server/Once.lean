/-
# Answering once

Responses are sent by four handlers.  `OnDataAvailable` looks whether the write side is
finished before it sends a response to a whole request; for a body that is too large, for
headers that are not valid and for trailers, the error response is sent at once, whether or
not there has been a response.

So a stream answers once if nothing of that kind comes after a response (`Orderly`): no
trailers, and no data that `OnDataAvailable` finds to be too much.  Such data may have been
there before, since a body that is too large is not consumed and is handed over again with
the next FIN.  Headers that are not valid are answered before the data that came ahead of
them is read.

`Settled` is what holds between two deliveries: there is no response, or there is one and
the write side is finished.  A stream whose headers have not come is `Quiet`.
-/

import QuicNs3.Server.Answers
import QuicNs3.Streams.Windows

namespace QuicNs3
namespace Server

open Lib Streams

/-- **At most one header block, and nothing behind a FIN.** -/
def AnswersOnce (writes : List Write) : Prop :=
  (writes.filter Write.isHeaders).length ≤ 1 ∧ writes.Pairwise fun w _ => w.fin = false

instance {writes : List Write} : Decidable (AnswersOnce writes) :=
  inferInstanceAs (Decidable (_ ∧ _))

theorem answersOnce_nil : AnswersOnce [] := ⟨Nat.zero_le _, List.Pairwise.nil⟩

theorem answersOnce_headers (block : HeaderBlock) (fin : Bool) :
    AnswersOnce [.headers block fin] :=
  ⟨Nat.le_refl 1, List.pairwise_singleton _ _⟩

theorem Response.answersOnce (r : Response) : AnswersOnce r.writes := by
  unfold Response.writes
  split_ifs
  · exact answersOnce_headers _ _
  · exact ⟨Nat.le_refl 1, List.pairwise_pair.2 rfl⟩

namespace SimpleServerStream

variable {s t u : SimpleServerStream} {sent fin : Bool} {offset length : ℕ}

/-! ## The condition -/

/-- With `n` more bytes the body is larger than the content length. -/
def Exceeds (s : SimpleServerStream) (n : ℕ) : Prop :=
  0 < n ∧ 0 ≤ s.contentLength ∧ s.contentLength < s.bodySize + n

instance {n : ℕ} : Decidable (s.Exceeds n) := inferInstanceAs (Decidable (_ ∧ _))

/-- A FIN contradicts an earlier one. -/
def Contradicts (s : SimpleServerStream) (stop : ℕ) : Prop :=
  s.sequencer.closeOffset ≠ kMaxOffset ∧ stop ≠ s.sequencer.closeOffset

instance {stop : ℕ} : Decidable (s.Contradicts stop) := inferInstanceAs (Decidable (_ ∧ _))

/-- Data that goes to the buffer `b` makes too much readable. -/
def Brings (s : SimpleServerStream) (b : SequencerBuffer) (offset length : ℕ) : Bool :=
  match b.onStreamData offset length with
  | .buffered b => decide (offset = b.totalBytesRead ∧ s.Exceeds b.readableBytes)
  | _ => false

/-- **A frame lets `OnDataAvailable` find too much data**: with its FIN, if all before that
has been read, what is still in the buffer; or what it brings.  A FIN that contradicts an
earlier one empties the buffer. -/
def Overruns (s : SimpleServerStream) (offset length : ℕ) (fin : Bool) : Prop :=
  let b := s.sequencer.buffer
  fin = true ∧ ¬s.Contradicts (offset + length) ∧ offset + length ≤ b.totalBytesRead ∧
      s.Exceeds b.readableBytes ∨
    s.Brings (if fin = true ∧ s.Contradicts (offset + length) then b.clear else b) offset length =
      true

instance : Decidable (s.Overruns offset length fin) := inferInstanceAs (Decidable (_ ∨ _))

/-- The headers are valid, or the data that waits for them is not too much for the content
length that has been taken from them. -/
def Admits (s : SimpleServerStream) (headers : HeaderBlock) : Prop :=
  let v := copyAndValidateHeaders s.contentLength s.requestHeaders headers
  v.valid = true ∨
    ¬{ s with contentLength := v.contentLength }.Exceeds s.sequencer.buffer.readableBytes

instance {headers : HeaderBlock} : Decidable (s.Admits headers) :=
  inferInstanceAs (Decidable (_ ∨ _))

/-- **The deliveries that leave an answer alone.** -/
def Orderly (s : SimpleServerStream) : Delivery → Prop
  | .headerList _ _ headers =>
    (s.headersDecompressed = true → s.writes = [] ∨ headers = [] ∧ s.isDoneReading = true) ∧
      (s.headersDecompressed = false → s.Admits headers)
  | .streamFrame _ offset length fin =>
    offset + length < kMaxOffset ∧ (s.writes = [] ∨ ¬s.Overruns offset length fin)
  | .canWrite => True

instance decidableOrderly : (d : Delivery) → Decidable (s.Orderly d)
  | .headerList .. => inferInstanceAs (Decidable (_ ∧ _))
  | .streamFrame .. => inferInstanceAs (Decidable (_ ∧ _))
  | .canWrite => inferInstanceAs (Decidable True)

/-! ## What stays -/

/-- A change that leaves writes and headers alone. -/
structure Untouched (s t : SimpleServerStream) : Prop where
  writes : t.writes = s.writes
  finished : s.Finished → t.Finished
  headersDecompressed : t.headersDecompressed = s.headersDecompressed
  requestHeaders : t.requestHeaders = s.requestHeaders
  contentLength : t.contentLength = s.contentLength
  bodySize : t.bodySize = s.bodySize
  blocked : t.sequencer.blocked = s.sequencer.blocked

theorem Untouched.refl (s : SimpleServerStream) : s.Untouched s :=
  ⟨rfl, id, rfl, rfl, rfl, rfl, rfl⟩

theorem Untouched.trans (h : s.Untouched t) (h' : t.Untouched u) : s.Untouched u where
  writes := h'.writes.trans h.writes
  finished := h'.finished ∘ h.finished
  headersDecompressed := h'.headersDecompressed.trans h.headersDecompressed
  requestHeaders := h'.requestHeaders.trans h.requestHeaders
  contentLength := h'.contentLength.trans h.contentLength
  bodySize := h'.bodySize.trans h.bodySize
  blocked := h'.blocked.trans h.blocked

theorem untouched_onClose (s : SimpleServerStream) : s.Untouched s.onClose := by
  unfold onClose closeReadSide
  split_ifs <;> exact ⟨rfl, fun _ => .inl rfl, rfl, rfl, rfl, rfl, rfl⟩

theorem buffer_onClose (s : SimpleServerStream) :
    s.onClose.sequencer.buffer = s.sequencer.buffer ∨
      s.onClose.sequencer.buffer = s.sequencer.buffer.clear := by
  unfold onClose closeReadSide
  split_ifs
  · exact .inl rfl
  · exact .inr rfl

/-! ## One response -/

/-- There is no response, or one, and the write side is finished. -/
structure Settled (s : SimpleServerStream) : Prop where
  arranged : s.sequencer.buffer.Arranged (kMaxOffset - 1)
  answered : s.writes = [] ∨
    (∃ r : Response, s.writes = r.writes ∨ s.writes = [.headers r.headers false]) ∧ s.Finished

/-- A change that may read data and respond. -/
structure Advances (s t : SimpleServerStream) : Prop where
  headersDecompressed : t.headersDecompressed = s.headersDecompressed
  requestHeaders : t.requestHeaders = s.requestHeaders
  contentLength : t.contentLength = s.contentLength
  totalBytesRead : s.sequencer.buffer.totalBytesRead ≤ t.sequencer.buffer.totalBytesRead

theorem settled_new : new.Settled where
  arranged := SequencerBuffer.arranged_of_cleared rfl (Nat.zero_le _) (by decide)
  answered := .inl rfl

namespace Settled

theorem answersOnce (h : s.Settled) : AnswersOnce s.writes := by
  rcases h.answered with hw | ⟨⟨r, hw | hw⟩, -⟩
  · exact hw ▸ answersOnce_nil
  · exact hw ▸ r.answersOnce
  · exact hw ▸ answersOnce_headers _ _

theorem of_untouched (h : s.Settled) (ht : s.Untouched t)
    (hb : t.sequencer.buffer.Arranged (kMaxOffset - 1)) : t.Settled := by
  refine ⟨hb, ?_⟩
  rw [ht.writes]
  exact h.answered.imp_right fun hr => ⟨hr.1, ht.finished hr.2⟩

end Settled

/-- Sending leaves the reading side alone. -/
theorem sendHeadersAndBody_reading (s : SimpleServerStream) (sent : Bool) (r : Response) :
    (s.sendHeadersAndBody sent r).sequencer = s.sequencer ∧
      (s.sendHeadersAndBody sent r).headersDecompressed = s.headersDecompressed ∧
      (s.sendHeadersAndBody sent r).requestHeaders = s.requestHeaders ∧
      (s.sendHeadersAndBody sent r).contentLength = s.contentLength ∧
      (s.sendHeadersAndBody sent r).bodySize = s.bodySize := by
  unfold sendHeadersAndBody writeHeaders writeOrBufferData
  dsimp only
  split_ifs <;> exact ⟨rfl, rfl, rfl, rfl, rfl⟩

/-- The first response. -/
theorem Settled.sendHeadersAndBody (h : s.Settled) (hw : s.writes = []) (r : Response) :
    (s.sendHeadersAndBody sent r).Settled ∧ s.Advances (s.sendHeadersAndBody sent r) := by
  obtain ⟨ws, hws, hr, hfin⟩ := s.sendHeadersAndBody_spec sent r
  obtain ⟨hq, hd, hh, hc, -⟩ := s.sendHeadersAndBody_reading sent r
  refine ⟨⟨hq ▸ h.arranged, .inr ⟨⟨r, ?_⟩, hfin⟩⟩, ⟨hd, hh, hc, (hq ▸ le_rfl)⟩⟩
  rw [hws, hw, List.nil_append]
  exact hr.imp_right And.right

/-! ## Reading -/

/-- The state in which the loop of `OnDataAvailable` ends. -/
def readTo (s : SimpleServerStream) (n : ℕ) (b : SequencerBuffer) : SimpleServerStream :=
  { s with bodySize := n, sequencer := { s.sequencer with buffer := b } }

theorem readTo_readTo (s : SimpleServerStream) (m n : ℕ) (b c : SequencerBuffer) :
    (s.readTo m c).readTo n b = s.readTo n b := rfl

theorem buffer_readTo (s : SimpleServerStream) (n : ℕ) (b : SequencerBuffer) :
    (s.readTo n b).sequencer.buffer = b := rfl

theorem exceeds_readTo {m n : ℕ} {b : SequencerBuffer} :
    (s.readTo m b).Exceeds n ↔ 0 < n ∧ 0 ≤ s.contentLength ∧ s.contentLength < m + n := Iff.rfl

/-- **The loop of `OnDataAvailable`** reads on, and stops early only if there is too much to
read. -/
theorem readLoop_spec {hi : ℕ} (fuel : ℕ) (s : SimpleServerStream)
    (h : s.sequencer.buffer.Arranged hi) :
    ∃ n b, (s.readLoop fuel).2 = s.readTo n b ∧ b.Arranged hi ∧
      s.sequencer.buffer.totalBytesRead ≤ b.totalBytesRead ∧
      ((s.readLoop fuel).1 = true → s.Exceeds s.sequencer.buffer.readableBytes) := by
  induction fuel generalizing s with
  | zero => exact ⟨_, _, rfl, h, le_rfl, fun hover => absurd hover (by simp [readLoop])⟩
  | succ fuel ih =>
    rw [readLoop]
    by_cases hnone : s.sequencer.buffer.readableBytes = 0
    · rw [if_pos hnone]
      exact ⟨_, _, rfl, h, le_rfl, fun hover => absurd hover (by simp)⟩
    rw [if_neg hnone]
    have hle := Nat.min_le_left s.sequencer.buffer.readableBytes
      (kBlockSizeBytes - s.sequencer.buffer.totalBytesRead % kBlockSizeBytes)
    dsimp only
    generalize min s.sequencer.buffer.readableBytes
      (kBlockSizeBytes - s.sequencer.buffer.totalBytesRead % kBlockSizeBytes) = length at hle ⊢
    split_ifs with hover
    · refine ⟨_, _, rfl, h, le_rfl, fun _ => ⟨by omega, hover.1, ?_⟩⟩
      have := hover.2
      push_cast at this ⊢
      omega
    · obtain ⟨hA, htotal⟩ := h.markConsumed hle
      have hrest := h.readableBytes_markConsumed hle
      obtain ⟨n, b, heq, hb, hmono, hex⟩ :=
        ih (s.readTo (s.bodySize + length) (s.sequencer.buffer.markConsumed length)) hA
      refine ⟨n, b, heq.trans (readTo_readTo ..), hb, ?_, fun h' => ?_⟩
      · have : s.sequencer.buffer.totalBytesRead ≤
            (s.sequencer.buffer.markConsumed length).totalBytesRead := by omega
        exact this.trans hmono
      · have hrest' := hex h'
        rw [buffer_readTo, exceeds_readTo] at hrest'
        obtain ⟨-, hnonneg, hlt⟩ := hrest'
        refine ⟨by omega, hnonneg, ?_⟩
        push_cast at hlt
        omega

theorem Settled.closeReadSide (h : s.Settled) :
    s.closeReadSide.Settled ∧ s.Advances s.closeReadSide := by
  unfold SimpleServerStream.closeReadSide
  split_ifs
  · exact ⟨h, rfl, rfl, rfl, le_rfl⟩
  · exact ⟨⟨h.arranged.clear, h.answered⟩, rfl, rfl, rfl, le_rfl⟩

theorem Advances.trans (h : s.Advances t) (h' : t.Advances u) : s.Advances u where
  headersDecompressed := h'.headersDecompressed.trans h.headersDecompressed
  requestHeaders := h'.requestHeaders.trans h.requestHeaders
  contentLength := h'.contentLength.trans h.contentLength
  totalBytesRead := h.totalBytesRead.trans h'.totalBytesRead

/-- Behind the loop. -/
theorem Settled.onBodyRead (h : s.Settled) (ht : s.onBodyRead sent = some t) :
    t.Settled ∧ s.Advances t := by
  unfold SimpleServerStream.onBodyRead at ht
  dsimp only at ht
  have hfinal : { s with finReceived := true }.Settled := ⟨h.arranged, h.answered⟩
  have hfinalAdv : s.Advances { s with finReceived := true } := ⟨rfl, rfl, rfl, le_rfl⟩
  obtain ⟨hS, hA⟩ := hfinal.closeReadSide
  split_ifs at ht with hopen hfin
  · obtain rfl := Option.some.inj ht
    exact ⟨⟨h.arranged, h.answered⟩, rfl, rfl, rfl, le_rfl⟩
  · obtain rfl := Option.some.inj ht
    exact ⟨hS, hfinalAdv.trans hA⟩
  · unfold SimpleServerStream.sendResponse at ht
    obtain ⟨r, -, rfl⟩ := Option.map_eq_some_iff.1 ht
    have hw := hS.answered.resolve_right fun hr => hfin (by simpa [Finished] using hr.2)
    obtain ⟨hS', hA'⟩ := hS.sendHeadersAndBody hw r
    exact ⟨hS', (hfinalAdv.trans hA).trans hA'⟩

/-- **`OnDataAvailable`** where there is no response, or not too much to read. -/
theorem Settled.onDataAvailable (h : s.Settled)
    (hx : s.writes = [] ∨ ¬s.Exceeds s.sequencer.buffer.readableBytes)
    (ht : s.onDataAvailable sent = some t) : t.Settled ∧ s.Advances t := by
  unfold SimpleServerStream.onDataAvailable at ht
  generalize s.sequencer.buffer.readableBytes = fuel at ht
  obtain ⟨n, b, heq, hb, hmono, hex⟩ := readLoop_spec fuel s h.arranged
  have hread : (s.readTo n b).Settled := ⟨hb, h.answered⟩
  have hadv : s.Advances (s.readTo n b) := ⟨rfl, rfl, rfl, hmono⟩
  dsimp only at ht
  rw [heq] at ht
  split_ifs at ht with hover
  · have hw : (s.readTo n b).writes = [] := hx.resolve_right fun hnot => hnot (hex hover)
    obtain rfl := Option.some.inj ht
    obtain ⟨hS, hA⟩ := hread.sendHeadersAndBody hw Server.sendErrorResponse
    exact ⟨hS, hadv.trans hA⟩
  · obtain ⟨hS, hA⟩ := hread.onBodyRead ht
    exact ⟨hS, hadv.trans hA⟩

/-! ## Frames -/

theorem Settled.onClose (h : s.Settled) : s.onClose.Settled := by
  refine h.of_untouched s.untouched_onClose ?_
  rcases s.buffer_onClose with hb | hb
  · exact hb ▸ h.arranged
  · exact hb ▸ h.arranged.clear

/-- What `CloseStreamAtOffset` can do. -/
theorem closeStreamAtOffset_cases {stop : ℕ} (ht : s.closeStreamAtOffset sent stop = some t) :
    s.Contradicts stop ∧ t = s.onClose ∨
    ¬s.Contradicts stop ∧ (s.sequencer.blocked = true ∨ s.sequencer.buffer.totalBytesRead < stop) ∧
      t = { s with sequencer := { s.sequencer with closeOffset := stop } } ∨
    ¬s.Contradicts stop ∧ s.sequencer.blocked = false ∧
      stop ≤ s.sequencer.buffer.totalBytesRead ∧
      ∃ u, { s with sequencer := { s.sequencer with closeOffset := stop } }.onDataAvailable sent =
          some u ∧
        t = { u with sequencer := u.sequencer.releaseBuffer } := by
  unfold closeStreamAtOffset maybeCloseStream at ht
  dsimp only at ht
  split_ifs at ht with hcontra hwait
  · exact .inl ⟨hcontra, (Option.some.inj ht).symm⟩
  · refine .inr (.inl ⟨hcontra, ?_, (Option.some.inj ht).symm⟩)
    simpa [Sequencer.isClosed] using hwait
  · obtain ⟨u, hu, rfl⟩ := Option.map_eq_some_iff.1 ht
    have hread : s.sequencer.blocked = false ∧ stop ≤ s.sequencer.buffer.totalBytesRead := by
      simpa [Sequencer.isClosed] using hwait
    exact .inr (.inr ⟨hcontra, hread.1, hread.2, u, hu, rfl⟩)

/-- What `OnStreamData` can do. -/
theorem onStreamData_cases (ht : s.onStreamData sent offset length = some t) :
    t = s.onClose ∨ t = s ∨ t = { s with sequencer := { s.sequencer with strayed := true } } ∨
    ∃ b, s.sequencer.buffer.onStreamData offset length = .buffered b ∧
      (t = { s with sequencer := { s.sequencer with buffer := b } } ∨
        s.sequencer.blocked = false ∧ offset = b.totalBytesRead ∧
          { s with sequencer := { s.sequencer with buffer := b } }.onDataAvailable sent =
            some t) := by
  unfold onStreamData at ht
  cases hb : s.sequencer.buffer.onStreamData offset length with
  | error e =>
    rw [hb] at ht
    exact .inl (Option.some.inj ht).symm
  | duplicate =>
    rw [hb] at ht
    exact .inr (.inl (Option.some.inj ht).symm)
  | invalid =>
    rw [hb] at ht
    exact .inr (.inr (.inl (Option.some.inj ht).symm))
  | buffered b =>
    rw [hb] at ht
    dsimp only at ht
    refine .inr (.inr (.inr ⟨b, rfl, ?_⟩))
    split_ifs at ht with hblocked hnext
    · exact .inl (Option.some.inj ht).symm
    · exact .inr ⟨by simpa using hblocked, hnext, ht⟩
    · exact .inl (Option.some.inj ht).symm

/-- What matters of a stream for what is too much. -/
theorem exceeds_congr (hc : t.contentLength = s.contentLength) (hn : t.bodySize = s.bodySize)
    (n : ℕ) : t.Exceeds n ↔ s.Exceeds n := by
  unfold Exceeds
  rw [hc, hn]

theorem brings_congr (hc : t.contentLength = s.contentLength) (hn : t.bodySize = s.bodySize)
    (b : SequencerBuffer) : t.Brings b offset length = s.Brings b offset length := by
  unfold Brings
  cases b.onStreamData offset length with
  | buffered b => simp only [exceeds_congr hc hn]
  | _ => rfl

/-- **Data** that does not bring too much behind a response. -/
theorem Settled.onStreamData (h : s.Settled) (hstop : offset + length < kMaxOffset)
    (hx : s.writes = [] ∨ ¬s.Brings s.sequencer.buffer offset length = true)
    (ht : s.onStreamData sent offset length = some t) :
    t.Settled ∧ t.headersDecompressed = s.headersDecompressed := by
  obtain rfl | rfl | rfl | ⟨b, hb, hcases⟩ := onStreamData_cases ht
  · exact ⟨h.onClose, s.untouched_onClose.headersDecompressed⟩
  · exact ⟨h, rfl⟩
  · exact ⟨⟨h.arranged, h.answered⟩, rfl⟩
  have hsize : length ≠ 0 := by
    rintro rfl
    exact absurd hb (by simp [SequencerBuffer.onStreamData])
  obtain ⟨hA, -⟩ := h.arranged.onStreamData hsize (by omega) hb
  have hbuffered : { s with sequencer := { s.sequencer with buffer := b } }.Settled :=
    ⟨hA, h.answered⟩
  obtain rfl | ⟨-, hnext, ht⟩ := hcases
  · exact ⟨hbuffered, rfl⟩
  have hfits : s.writes = [] ∨ ¬s.Exceeds b.readableBytes := by
    refine hx.imp_right fun hnot hexceeds => hnot ?_
    unfold Brings
    rw [hb]
    exact decide_eq_true ⟨hnext, hexceeds⟩
  obtain ⟨hS, hadv⟩ := hbuffered.onDataAvailable hfits ht
  exact ⟨hS, hadv.headersDecompressed⟩

/-- **A FIN**, and what the data behind it can bring then. -/
theorem Settled.closeStreamAtOffset (h : s.Settled) (hopen : s.readSideClosed = false)
    (hx : s.writes = [] ∨ ¬s.Overruns offset length true)
    (hu : s.closeStreamAtOffset sent (offset + length) = some u) :
    u.Settled ∧ u.headersDecompressed = s.headersDecompressed ∧
      (length ≠ 0 → u.writes = [] ∨ ¬u.Brings u.sequencer.buffer offset length = true) := by
  obtain ⟨hcontra, rfl⟩ | ⟨hno, -, rfl⟩ | ⟨hno, -, hle, v, hv, rfl⟩ :=
    closeStreamAtOffset_cases hu
  · have huntouched := s.untouched_onClose
    have hbuffer : s.onClose.sequencer.buffer = s.sequencer.buffer.clear := by
      simp [SimpleServerStream.onClose, SimpleServerStream.closeReadSide, hopen, closeWriteSide,
        Sequencer.releaseBuffer]
    refine ⟨h.onClose, huntouched.headersDecompressed, fun _ => ?_⟩
    rw [huntouched.writes, hbuffer, brings_congr huntouched.contentLength huntouched.bodySize]
    refine hx.imp_right fun hnot hb => hnot (.inr ?_)
    rwa [if_pos ⟨rfl, hcontra⟩]
  · refine ⟨⟨h.arranged, h.answered⟩, rfl, fun _ => hx.imp_right fun hnot hb => hnot (.inr ?_)⟩
    rw [if_neg fun hand => hno hand.2]
    exact hb
  · have hfits : s.writes = [] ∨ ¬s.Exceeds s.sequencer.buffer.readableBytes :=
      hx.imp_right fun hnot hexceeds => hnot (.inl ⟨rfl, hno, hle, hexceeds⟩)
    have hclosing :
        Settled { s with sequencer := { s.sequencer with closeOffset := offset + length } } :=
      ⟨h.arranged, h.answered⟩
    obtain ⟨hS, hadv⟩ := hclosing.onDataAvailable hfits hv
    have hread : offset + length ≤ v.sequencer.buffer.clear.totalBytesRead :=
      hle.trans hadv.totalBytesRead
    refine ⟨⟨hS.arranged.clear, hS.answered⟩, hadv.headersDecompressed, fun hlength => .inr ?_⟩
    have hdup := hS.arranged.clear.onStreamData_of_le hlength hread
    show ¬Brings _ v.sequencer.buffer.clear offset length = true
    unfold Brings
    rw [hdup]
    exact Bool.false_ne_true

/-- **A frame** that does not overrun behind a response. -/
theorem Settled.onStreamFrame (h : s.Settled) (hstop : offset + length < kMaxOffset)
    (hx : s.writes = [] ∨ ¬s.Overruns offset length fin)
    (ht : s.onStreamFrame sent offset length fin = some t) :
    t.Settled ∧ t.headersDecompressed = s.headersDecompressed := by
  have hsum : wrapAdd offset length = offset + length :=
    wrapAdd_eq (hstop.trans SequencerBuffer.kMaxOffset_lt)
  unfold SimpleServerStream.onStreamFrame at ht
  dsimp only at ht
  rw [hsum] at ht
  cases fin with
  | false =>
    simp only [Bool.false_eq_true, if_false, Bool.false_and, Option.bind_eq_bind,
      Option.bind_some] at ht
    split_ifs at ht
    · obtain rfl := Option.some.inj ht
      exact ⟨h, rfl⟩
    · refine h.onStreamData hstop (hx.imp_right fun hnot hb => hnot (.inr ?_)) ht
      simpa using hb
  | true =>
    have hfinal : { s with finReceived := true }.Settled := ⟨h.arranged, h.answered⟩
    simp only [if_true, Bool.true_and, beq_iff_eq, Option.bind_eq_bind] at ht
    by_cases hclosed : s.readSideClosed = true
    · rw [if_pos hclosed] at ht
      obtain rfl := Option.some.inj ht
      exact ⟨hfinal, rfl⟩
    rw [if_neg hclosed] at ht
    obtain ⟨u, hu, ht⟩ := Option.bind_eq_some_iff.1 ht
    obtain ⟨hS, hd, hbrings⟩ :=
      hfinal.closeStreamAtOffset (by simpa using hclosed) hx hu
    split_ifs at ht with hlength
    · obtain rfl := Option.some.inj ht
      exact ⟨hS, hd⟩
    · obtain ⟨hS', hd'⟩ := hS.onStreamData hstop (hbrings hlength) ht
      exact ⟨hS', hd'.trans hd⟩

/-! ## Before the headers -/

/-- Nothing has come but data, which waits. -/
structure Quiet (s : SimpleServerStream) : Prop where
  writes : s.writes = []
  requestHeaders : s.requestHeaders = []
  contentLength : s.contentLength < 0
  blocked : s.sequencer.blocked = true

theorem Quiet.of_untouched (h : s.Quiet) (ht : s.Untouched t) : t.Quiet where
  writes := ht.writes.trans h.writes
  requestHeaders := ht.requestHeaders.trans h.requestHeaders
  contentLength := ht.contentLength ▸ h.contentLength
  blocked := ht.blocked.trans h.blocked

/-- A FIN waits, too. -/
theorem closeStreamAtOffset_blocked {stop : ℕ} (hb : s.sequencer.blocked = true)
    (ht : s.closeStreamAtOffset sent stop = some t) :
    s.Untouched t ∧ (t.sequencer.buffer = s.sequencer.buffer ∨
      t.sequencer.buffer = s.sequencer.buffer.clear) := by
  obtain ⟨-, rfl⟩ | ⟨-, -, rfl⟩ | ⟨-, hunblocked, -⟩ := closeStreamAtOffset_cases ht
  · exact ⟨s.untouched_onClose, s.buffer_onClose⟩
  · exact ⟨⟨rfl, id, rfl, rfl, rfl, rfl, rfl⟩, .inl rfl⟩
  · exact absurd (hb.symm.trans hunblocked) (by decide)

theorem onStreamData_blocked (hb : s.sequencer.blocked = true)
    (ht : s.onStreamData sent offset length = some t) : s.Untouched t := by
  obtain rfl | rfl | rfl | ⟨b, -, rfl | ⟨hunblocked, -⟩⟩ := onStreamData_cases ht
  · exact s.untouched_onClose
  · exact .refl t
  · exact ⟨rfl, id, rfl, rfl, rfl, rfl, rfl⟩
  · exact ⟨rfl, id, rfl, rfl, rfl, rfl, rfl⟩
  · exact absurd (hb.symm.trans hunblocked) (by decide)

theorem onStreamFrame_blocked (hb : s.sequencer.blocked = true)
    (ht : s.onStreamFrame sent offset length fin = some t) : s.Untouched t := by
  unfold onStreamFrame at ht
  dsimp only at ht
  cases fin with
  | false =>
    simp only [Bool.false_eq_true, if_false, Bool.false_and, Option.bind_eq_bind,
      Option.bind_some] at ht
    split_ifs at ht
    · exact Option.some.inj ht ▸ .refl s
    · exact onStreamData_blocked hb ht
  | true =>
    have hfinal : s.Untouched { s with finReceived := true } := ⟨rfl, id, rfl, rfl, rfl, rfl, rfl⟩
    simp only [if_true, Bool.true_and, beq_iff_eq, Option.bind_eq_bind] at ht
    by_cases hclosed : s.readSideClosed = true
    · rw [if_pos hclosed] at ht
      exact Option.some.inj ht ▸ hfinal
    rw [if_neg hclosed] at ht
    obtain ⟨u, hu, ht⟩ := Option.bind_eq_some_iff.1 ht
    have hmid := hfinal.trans
      (closeStreamAtOffset_blocked (s := { s with finReceived := true }) hb hu).1
    split_ifs at ht
    · exact Option.some.inj ht ▸ hmid
    · exact hmid.trans (onStreamData_blocked (hmid.blocked.trans hb) ht)

/-- The FIN of a header list leaves the data, or drops it. -/
theorem buffer_onStreamFrame_fin (hb : s.sequencer.blocked = true)
    (ht : s.onStreamFrame sent 0 0 true = some t) :
    t.sequencer.buffer = s.sequencer.buffer ∨
      t.sequencer.buffer = s.sequencer.buffer.clear := by
  unfold onStreamFrame at ht
  simp only [if_true, Bool.true_and, BEq.rfl, Option.bind_eq_bind] at ht
  split_ifs at ht
  · exact .inl (Option.some.inj ht ▸ rfl)
  · obtain ⟨u, hu, ht⟩ := Option.bind_eq_some_iff.1 ht
    obtain rfl := Option.some.inj ht
    exact (closeStreamAtOffset_blocked (s := { s with finReceived := true }) hb hu).2

/-! ## Headers -/

theorem Settled.setUnblocked (h : s.Settled)
    (hx : s.writes = [] ∨ ¬s.Exceeds s.sequencer.buffer.readableBytes)
    (ht : s.setUnblocked sent = some t) : t.Settled ∧ s.Advances t := by
  have hunblocked : { s with sequencer := { s.sequencer with blocked := false } }.Settled :=
    ⟨h.arranged, h.answered⟩
  unfold SimpleServerStream.setUnblocked at ht
  dsimp only at ht
  split_ifs at ht
  · obtain ⟨hS, hadv⟩ := hunblocked.onDataAvailable hx ht
    exact ⟨hS, hadv.headersDecompressed, hadv.requestHeaders, hadv.contentLength,
      hadv.totalBytesRead⟩
  · obtain rfl := Option.some.inj ht
    exact ⟨hunblocked, rfl, rfl, rfl, le_rfl⟩

/-- **A header list** read for the first time: a block that is not valid is answered, and
then the data that is there is not too much. -/
theorem Settled.readHeaders {headers : HeaderBlock} (h : s.Settled) (hw : s.writes = [])
    (hx : s.Admits headers)
    (ht : (s.readHeaders sent headers).setUnblocked sent = some t) :
    t.Settled ∧ t.headersDecompressed = s.headersDecompressed := by
  unfold SimpleServerStream.readHeaders at ht
  unfold Admits at hx
  dsimp only at ht hx
  generalize copyAndValidateHeaders s.contentLength s.requestHeaders headers = v at hx ht
  have hcopied : { s with contentLength := v.contentLength, requestHeaders := v.headers }.Settled :=
    ⟨h.arranged, h.answered⟩
  split_ifs at ht with hvalid
  · obtain ⟨hS, hadv⟩ := hcopied.setUnblocked (.inl hw) ht
    exact ⟨hS, hadv.headersDecompressed⟩
  · obtain ⟨hS, hA⟩ := hcopied.sendHeadersAndBody hw Server.sendErrorResponse
    obtain ⟨hq, -, -, hc, hn⟩ := sendHeadersAndBody_reading
      { s with contentLength := v.contentLength, requestHeaders := v.headers } sent
      Server.sendErrorResponse
    have hfits := hx.resolve_left hvalid
    obtain ⟨hS', hA'⟩ := hS.setUnblocked
      (.inr (by rw [hq, exceeds_congr hc hn]; exact hfits)) ht
    exact ⟨hS', (hA.trans hA').headersDecompressed⟩

theorem Admits.of_untouched {headers : HeaderBlock} {hi : ℕ} (h : s.Admits headers)
    (ht : s.Untouched t) (hA : s.sequencer.buffer.Arranged hi)
    (hb : t.sequencer.buffer = s.sequencer.buffer ∨
      t.sequencer.buffer = s.sequencer.buffer.clear) : t.Admits headers := by
  unfold Admits at h ⊢
  rw [ht.contentLength, ht.requestHeaders]
  refine h.imp_right fun hnot ⟨hpos, hnonneg, hlt⟩ => ?_
  rcases hb with hb | hb
  · rw [hb] at hpos hlt
    exact hnot ⟨hpos, hnonneg, ht.bodySize ▸ hlt⟩
  · rw [hb, hA.readableBytes_clear] at hpos
    exact absurd hpos (lt_irrefl 0)

/-- An empty list is a valid one. -/
theorem copyAndValidateHeaders_nil (contentLength : ℤ) :
    copyAndValidateHeaders contentLength [] [] = ⟨true, contentLength, []⟩ := rfl

/-- **The first header list.** -/
theorem Settled.onInitialHeadersComplete {headers : HeaderBlock} (h : s.Settled) (hq : s.Quiet)
    (hx : s.Admits headers) (ht : s.onInitialHeadersComplete sent fin headers = some t) :
    t.Settled ∧ t.headersDecompressed = true := by
  unfold SimpleServerStream.onInitialHeadersComplete at ht
  obtain ⟨u, hu, ht⟩ := Option.bind_eq_some_iff.1 ht
  obtain ⟨v, hv, ht⟩ := Option.bind_eq_some_iff.1 ht
  have hread : { s with headersDecompressed := true }.Settled := ⟨h.arranged, h.answered⟩
  have hmid : Untouched { s with headersDecompressed := true } u ∧
      (u.sequencer.buffer = s.sequencer.buffer ∨
        u.sequencer.buffer = s.sequencer.buffer.clear) := by
    split_ifs at hu
    · exact ⟨onStreamFrame_blocked (s := { s with headersDecompressed := true }) hq.blocked hu,
        buffer_onStreamFrame_fin (s := { s with headersDecompressed := true }) hq.blocked hu⟩
    · exact Option.some.inj hu ▸ ⟨.refl _, .inl rfl⟩
  obtain ⟨hsame, hbuffer⟩ := hmid
  have hquiet : u.Quiet := by
    refine Quiet.of_untouched ?_ hsame
    exact ⟨hq.writes, hq.requestHeaders, hq.contentLength, hq.blocked⟩
  have hsettled : u.Settled := hread.of_untouched hsame <|
    hbuffer.elim (fun hb => hb ▸ h.arranged) fun hb => hb ▸ h.arranged.clear
  cases headers with
  | nil =>
    -- the stream was told that the list was too large, and is unblocked twice
    obtain ⟨hS, hadv⟩ := hsettled.setUnblocked (.inl hquiet.writes) hv
    have hsame' : v.readHeaders sent [] = v := by
      unfold SimpleServerStream.readHeaders
      rw [hadv.requestHeaders, hquiet.requestHeaders, copyAndValidateHeaders_nil,
        ← hquiet.requestHeaders, ← hadv.requestHeaders]
      rfl
    have hless : ¬v.Exceeds v.sequencer.buffer.readableBytes := by
      rintro ⟨-, hnonneg, -⟩
      exact absurd (hadv.contentLength ▸ hnonneg) (Int.not_le.2 hquiet.contentLength)
    obtain ⟨hS', hadv'⟩ := hS.setUnblocked (.inr hless) (hsame' ▸ ht)
    exact ⟨hS', ((hadv.trans hadv').headersDecompressed).trans hsame.headersDecompressed⟩
  | cons header headers =>
    obtain rfl := Option.some.inj hv
    have hfits : u.Admits (header :: headers) :=
      Admits.of_untouched (s := { s with headersDecompressed := true }) hx hsame h.arranged hbuffer
    obtain ⟨hS, hd⟩ := hsettled.readHeaders hquiet.writes hfits ht
    exact ⟨hS, hd.trans hsame.headersDecompressed⟩

/-! ## A run -/

/-- What holds between two deliveries. -/
structure Sound (s : SimpleServerStream) : Prop where
  settled : s.Settled
  quiet : s.headersDecompressed = false → s.Quiet

theorem sound_new : new.Sound := ⟨settled_new, fun _ => ⟨rfl, rfl, by decide, rfl⟩⟩

theorem Sound.onClose (h : s.Sound) : s.onClose.Sound :=
  ⟨h.settled.onClose, fun hd =>
    (h.quiet (s.untouched_onClose.headersDecompressed ▸ hd)).of_untouched s.untouched_onClose⟩

theorem Sound.onStreamFrame (h : s.Sound) (hstop : offset + length < kMaxOffset)
    (hx : s.writes = [] ∨ ¬s.Overruns offset length fin)
    (ht : s.onStreamFrame sent offset length fin = some t) : t.Sound := by
  obtain ⟨hS, hd⟩ := h.settled.onStreamFrame hstop hx ht
  refine ⟨hS, fun hnot => ?_⟩
  have hquiet := h.quiet (hd.symm.trans hnot)
  exact hquiet.of_untouched (onStreamFrame_blocked hquiet.blocked ht)

theorem isDoneReading_onClose (s : SimpleServerStream) :
    s.onClose.isDoneReading = s.isDoneReading := by
  unfold SimpleServerStream.onClose closeReadSide
  split_ifs <;> rfl

/-- **A header list** on a stream that may just have been reset for it. -/
theorem Sound.headersComplete {headers : HeaderBlock} (h : s.Sound)
    (hfirst : s.headersDecompressed = false → s.Admits headers)
    (hlater : s.headersDecompressed = true → s.writes = [])
    (ht : (if (!s.headersDecompressed) = true then s.onInitialHeadersComplete sent fin headers
      else some (s.onTrailingHeadersComplete sent)) = some t) : t.Sound := by
  cases hd : s.headersDecompressed with
  | false =>
    rw [hd] at ht
    obtain ⟨hS, hd'⟩ := h.settled.onInitialHeadersComplete (h.quiet hd) (hfirst hd) ht
    exact ⟨hS, fun hnot => absurd (hnot.symm.trans hd') (by decide)⟩
  | true =>
    rw [hd] at ht
    obtain rfl := Option.some.inj ht
    obtain ⟨hS, hadv⟩ :=
      h.settled.sendHeadersAndBody (hlater hd) Server.sendErrorResponse
    exact ⟨hS, fun hnot => absurd (hnot.symm.trans (hadv.headersDecompressed.trans hd))
      (by decide)⟩

theorem Sound.onStreamHeaderList {headers : HeaderBlock} (h : s.Sound)
    (hx : s.Orderly (.headerList sent fin headers))
    (ht : s.onStreamHeaderList sent fin headers = some t) : t.Sound := by
  obtain ⟨hlater, hfirst⟩ := hx
  unfold SimpleServerStream.onStreamHeaderList at ht
  cases headers with
  | nil =>
    have hsame := s.untouched_onClose
    simp only [List.isEmpty_nil, if_true, Bool.true_and] at ht
    by_cases hdone : s.onClose.isDoneReading = true
    · rw [if_pos hdone] at ht
      exact Option.some.inj ht ▸ h.onClose
    rw [if_neg hdone] at ht
    refine h.onClose.headersComplete (fun hd => ?_) (fun hd => ?_) ht
    · have hquiet := h.onClose.quiet hd
      refine .inl ?_
      rw [hquiet.requestHeaders, copyAndValidateHeaders_nil]
    · rw [hsame.writes]
      refine (hlater (hsame.headersDecompressed.symm.trans hd)).resolve_right fun hend => hdone ?_
      exact s.isDoneReading_onClose.trans hend.2
  | cons header headers =>
    simp only [List.isEmpty_cons, Bool.false_eq_true, if_false, Bool.false_and] at ht
    refine h.headersComplete hfirst (fun hd => ?_) ht
    exact (hlater hd).resolve_right fun hend => absurd hend.1 (List.cons_ne_nil _ _)

theorem Sound.onCanWrite (h : s.Sound) : s.onCanWrite.Sound := by
  have hsame : s.Untouched s.onCanWrite := by
    unfold SimpleServerStream.onCanWrite
    split_ifs
    · exact ⟨rfl, fun _ => .inl rfl, rfl, rfl, rfl, rfl, rfl⟩
    · exact .refl s
  have hbuffer : s.onCanWrite.sequencer.buffer = s.sequencer.buffer := by
    unfold SimpleServerStream.onCanWrite
    split_ifs <;> rfl
  exact ⟨h.settled.of_untouched hsame (hbuffer ▸ h.settled.arranged), fun hd =>
    (h.quiet (hsame.headersDecompressed ▸ hd)).of_untouched hsame⟩

/-- **One delivery.** -/
theorem Sound.step {d : Delivery} (h : s.Sound) (hd : s.Orderly d) (ht : s.step d = some t) :
    t.Sound := by
  unfold SimpleServerStream.step at ht
  split_ifs at ht
  cases d with
  | headerList sent fin headers => exact h.onStreamHeaderList hd ht
  | streamFrame sent offset length fin => exact h.onStreamFrame hd.1 hd.2 ht
  | canWrite => exact Option.some.inj ht ▸ h.onCanWrite

/-- **A stream answers once** as long as its deliveries are orderly. -/
theorem always_answers_once (ds : List Delivery) (h : EachStep step Orderly new ds) :
    Always step (fun s => AnswersOnce s.writes) new ds := by
  have hsound : Always step Sound new ds :=
    always_of_eachStep (fun _ _ _ hs hd ht => hs.step hd ht) sound_new h
  exact hsound.mono fun _ hs => hs.settled.answersOnce

/-- A request in two pieces, of which one comes again, and its answer. -/
theorem answers_once_of_pieces :
    let ds : List Delivery :=
      [.headerList false false [("max_bytes", ['3']), ("content-length", ['5'])],
        .streamFrame false 0 2 false, .streamFrame false 2 3 true, .streamFrame false 0 2 false,
        .canWrite]
    EachStep step Orderly new ds ∧
      (run step new ds).map writes = some (okResponse 3).writes ∧
      Always step (fun s => AnswersOnce s.writes) new ds := by
  intro ds
  have horderly : EachStep step Orderly new ds := by decide +kernel
  exact ⟨horderly, by decide +kernel, always_answers_once ds horderly⟩

/-- **Two answers**: to a request and its trailers; to headers with two content lengths and
a body that is larger than the first; and to a body that is too large, with the FIN that
hands it over again. -/
theorem not_always_answers_once :
    let answers (ds : List Delivery) :=
      (run step new ds).map fun s =>
        (s.writes.countP Write.isHeaders, decide (AnswersOnce s.writes))
    let lengths (text : List (List Char)) : HeaderBlock := text.map fun n => ("content-length", n)
    answers [.headerList false true (sendRequest 3), .headerList false true (sendRequest 3)] =
        some (2, false) ∧
      answers [.headerList true false (lengths [['5'], ['7']]), .streamFrame true 0 6 false] =
        some (2, false) ∧
      answers [.headerList true false (lengths [['5']]), .streamFrame true 0 8 false,
        .streamFrame true 0 0 true] = some (2, false) := by
  decide +kernel

end SimpleServerStream

end Server
end QuicNs3
