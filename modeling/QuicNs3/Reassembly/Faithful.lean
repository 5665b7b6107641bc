/-
# The buffer is faithful

The blocks, the gaps and the map of the frames together are a store of bytes: what is read from
it are the bytes of the stream, in their order and each once, whatever the order, the sizes and
the repetitions of the frames, and however it is read.  `Faithful` is that contract, and
`always_faithful` says that a buffer keeps to it in every run; in particular no operation finds
a block missing, and none has to be given up.

`Sound` is the invariant; what each operation does to it is said where the operation is looked
at, and `Sound.step` collects them.
-/

import QuicNs3.Lib.Run
import QuicNs3.Reassembly.Loops

namespace QuicNs3
namespace Reassembly

open Lib Streams

variable {content : ℕ → UInt8} {b b' : Buffer} {o n offset capacity : ℕ} {data : List UInt8}
  {timestamp : ℤ}

/-- The invariant, with the map of the frames. -/
structure Sound (content : ℕ → UInt8) (b : Buffer) : Prop extends Stored content b where
  framed : Framed b.frameArrivalTimeMap b.Unread

theorem Reads.unread (h : Reads content b n b') :
    b'.Unread o ↔ b.Unread o ∧ b.totalBytesRead + n ≤ o := by
  have : b'.Unread o ↔ (b.advance n).Unread o := by
    unfold Buffer.Unread Buffer.advance
    rw [h.gaps, h.totalBytesRead]
  rw [this, unread_advance]

/-- The map of the frames follows what has been read. -/
theorem Sound.reads (h : Sound content b) (hr : Reads content b n b') :
    Sound content { b' with
      frameArrivalTimeMap := updateFrameArrivalMap b'.frameArrivalTimeMap b'.totalBytesRead } where
  gapped := ⟨hr.stored.gapped.capacity, hr.stored.gapped.separated, hr.stored.gapped.ge,
    hr.stored.gapped.room, hr.stored.gapped.fits, hr.stored.gapped.last⟩
  holds := hr.stored.holds.congr (fun _ => Iff.rfl) rfl rfl rfl
  count := hr.stored.count
  framed := by
    show Framed (updateFrameArrivalMap b'.frameArrivalTimeMap b'.totalBytesRead) b'.Unread
    rw [hr.frames, hr.totalBytesRead]
    exact h.framed.update.congr fun o => hr.unread

/-! ## Reading -/

theorem Sound.readv (h : Sound content b) (lengths : List ℕ) :
    ∃ vectors b', b.readv lengths = .ok (vectors, b') ∧ Sound content b' ∧
      vectors.flatten =
        BufferBlock.slice content b.totalBytesRead (min lengths.sum b.readableBytes) ∧
      List.Forall₂ (fun v length => v.length ≤ length) vectors (lengths.take vectors.length) ∧
      b'.totalBytesRead = b.totalBytesRead + min lengths.sum b.readableBytes ∧
      b'.gaps = b.gaps ∧ b'.maxBufferCapacityBytes = b.maxBufferCapacityBytes := by
  obtain ⟨vectors, b', heq, hreads, hflat, hlens⟩ := h.fillVectors lengths
  unfold Buffer.readv
  rw [heq]
  dsimp only
  rw [hflat, length_slice]
  split_ifs with hpos
  · exact ⟨vectors, _, rfl, h.reads hreads, hflat, hlens, hreads.totalBytesRead, hreads.gaps,
      hreads.capacity⟩
  · refine ⟨vectors, b', rfl, ⟨hreads.stored, ?_⟩, hflat, hlens, hreads.totalBytesRead,
      hreads.gaps, hreads.capacity⟩
    rw [hreads.frames]
    refine h.framed.congr fun o => hreads.unread.trans (and_iff_left_of_imp fun ho => ?_)
    have := ho.1
    omega

theorem Sound.markConsumed (h : Sound content b) (hn : n ≤ b.readableBytes) :
    ∃ b', b.markConsumed n = .ok (some b') ∧ Sound content b' ∧
      b'.totalBytesRead = b.totalBytesRead + n ∧ b'.gaps = b.gaps ∧
      b'.maxBufferCapacityBytes = b.maxBufferCapacityBytes := by
  obtain ⟨b', heq, hreads⟩ := h.consumeBlocks hn le_rfl
  unfold Buffer.markConsumed
  rw [if_neg (not_lt.2 hn), heq]
  dsimp only
  split_ifs with hpos
  · exact ⟨_, rfl, h.reads hreads, hreads.totalBytesRead, hreads.gaps, hreads.capacity⟩
  · refine ⟨b', rfl, ⟨hreads.stored, ?_⟩, hreads.totalBytesRead, hreads.gaps, hreads.capacity⟩
    rw [hreads.frames]
    refine h.framed.congr fun o => hreads.unread.trans (and_iff_left_of_imp fun ho => ?_)
    have := ho.1
    omega

/-- A byte of a frame that arrived at `timestamp`. -/
def Buffer.ArrivedAt (b : Buffer) (timestamp : ℤ) (o : ℕ) : Prop :=
  ∃ e ∈ b.frameArrivalTimeMap, (e.1 ≤ o ∧ o < e.1 + e.2.length) ∧ e.2.timestamp = timestamp

/-- The first frame behind `o` begins there, if `o` is unread. -/
theorem Framed.head_eq {P : ℕ → Prop} {e : ℕ × FrameInfo} {frames : List (ℕ × FrameInfo)}
    (h : Framed (e :: frames) P) (hle : ∀ x, P x → o ≤ x) (ho : P o) : e.1 = o := by
  have hfirst : P e.1 := by
    rw [h.mem, List.map_cons, covered_cons]
    exact .inl ⟨le_rfl, Nat.lt_add_of_pos_right (h.pos e (List.mem_cons_self ..))⟩
  have hge := hle _ hfirst
  rw [h.mem, List.map_cons, covered_cons] at ho
  rcases ho with ho | ⟨s, hs, hin⟩
  · exact le_antisymm ho.1 hge
  · obtain ⟨x, hx, rfl⟩ := List.mem_map.1 hs
    have h₁ : x.1 ≤ o := hin.1
    have h₂ := (List.pairwise_cons.1 h.sorted).1 x hx
    have h₃ := h.pos e (List.mem_cons_self ..)
    omega

/-- **The loop of `GetReadableRegion`.** -/
theorem sameArrival_spec (timestamp : ℤ) {readable regionLen : ℕ} {frames : List (ℕ × FrameInfo)}
    (hsub : ∀ e ∈ frames, e ∈ b.frameArrivalTimeMap)
    (h : Framed frames fun o => b.Unread o ∧ b.totalBytesRead + regionLen ≤ o)
    (hG : Gapped b) (hreadable : readable ≤ b.readableBytes) (hlen : regionLen ≤ readable)
    (harrived : ∀ o, b.totalBytesRead ≤ o → o < b.totalBytesRead + regionLen →
      b.ArrivedAt timestamp o) :
    ∃ len rest, Buffer.sameArrival timestamp readable regionLen frames = (len, rest) ∧
      regionLen ≤ len ∧ (len = regionLen → rest = frames) ∧
      (∀ o, b.totalBytesRead ≤ o → o < b.totalBytesRead + len → b.ArrivedAt timestamp o) ∧
      (len < readable → ∀ e rest', rest = e :: rest' → e.2.timestamp = timestamp →
        ∀ o, b.totalBytesRead ≤ o → o < b.totalBytesRead + readable → b.ArrivedAt timestamp o) ∧
      (rest = [] → len = readable) ∧ len ≤ readable := by
  induction frames generalizing regionLen with
  | nil =>
    refine ⟨regionLen, [], rfl, le_rfl, fun _ => rfl, harrived,
      fun _ e rest' hc => absurd hc (by simp), fun _ => ?_, hlen⟩
    by_contra hne
    have hunread : b.Unread (b.totalBytesRead + regionLen) :=
      hG.unread_of_readable (Nat.le_add_right _ _) (by omega)
    exact not_covered_nil ((h.mem _).1 ⟨hunread, le_rfl⟩)
  | cons e frames ih =>
    -- As long as the region is shorter than what can be read, the next frame follows it.
    have hnext : regionLen < readable → e.1 = b.totalBytesRead + regionLen := fun hlt =>
      h.head_eq (fun x hx => hx.2)
        ⟨hG.unread_of_readable (Nat.le_add_right _ _) (by omega), le_rfl⟩
    have hmore : ∀ k, regionLen < readable → k ≤ regionLen + e.2.length →
        e.2.timestamp = timestamp → ∀ o, b.totalBytesRead ≤ o → o < b.totalBytesRead + k →
        b.ArrivedAt timestamp o := by
      intro k hlt hk htime o ho ho'
      have hfirst := hnext hlt
      rcases lt_or_ge o (b.totalBytesRead + regionLen) with hold | hnew
      · exact harrived o ho hold
      · exact ⟨e, hsub e (List.mem_cons_self ..), ⟨by omega, by omega⟩, htime⟩
    have hpos := h.pos e (List.mem_cons_self ..)
    unfold Buffer.sameArrival
    split_ifs with hc
    · have hfirst := hnext (by omega)
      have hrest : Framed frames
          fun o => b.Unread o ∧ b.totalBytesRead + (regionLen + e.2.length) ≤ o := by
        refine ⟨h.tail.sorted, h.tail.pos, fun o => ?_⟩
        have hmem := h.mem o
        rw [List.map_cons, covered_cons] at hmem
        constructor
        · rintro ⟨ho, hle⟩
          rcases hmem.1 ⟨ho, by omega⟩ with hin | hin
          · have hlt : o < e.1 + e.2.length := hin.2
            omega
          · exact hin
        · intro hin
          obtain ⟨s, hs, hso⟩ := hin
          obtain ⟨x, hx, rfl⟩ := List.mem_map.1 hs
          have h₁ := (List.pairwise_cons.1 h.sorted).1 x hx
          have h₂ : x.1 ≤ o := hso.1
          exact ⟨(hmem.2 (.inr ⟨_, hs, hso⟩)).1, by omega⟩
      obtain ⟨len, rest, heq, hle, -, harr, hend, hnil, hlen'⟩ :=
        ih (fun x hx => hsub x (List.mem_cons_of_mem _ hx)) hrest hc.1
          (hmore _ (by omega) le_rfl hc.2)
      exact ⟨len, rest, heq, by omega, fun hl => by omega, harr, hend, hnil, hlen'⟩
    · refine ⟨regionLen, e :: frames, rfl, le_rfl, fun _ => rfl, harrived, ?_,
        fun hc => absurd hc (by simp), hlen⟩
      rintro hlt e' rest' heq htime
      obtain ⟨rfl, rfl⟩ := List.cons.inj heq
      exact hmore readable hlt (by omega) htime

/-- **`GetReadableRegion`** shows bytes of the stream that arrived at one time. -/
theorem Sound.getReadableRegion (h : Sound content b) (hpos : 0 < b.readableBytes) :
    ∃ n timestamp, b.getReadableRegion =
        some (some (BufferBlock.slice content b.totalBytesRead n), timestamp) ∧
      0 < n ∧ n ≤ b.readableBytes ∧
      ∀ o, b.totalBytesRead ≤ o → o < b.totalBytesRead + n → b.ArrivedAt timestamp o := by
  have hG := h.gapped
  have havail := hG.availableInBlock_pos hpos
  have hle : b.availableInBlock ≤ b.readableBytes := Nat.min_le_left _ _
  have hle' : b.availableInBlock ≤ b.getBlockCapacity b.nextBlockToRead - b.readOffset :=
    Nat.min_le_right _ _
  have hregion : ∀ n, 0 < n → n ≤ b.availableInBlock →
      b.region b.nextBlockToRead b.readOffset n =
        some (BufferBlock.slice content b.totalBytesRead n) := fun n hn hn' =>
    h.region_eq (o := b.totalBytesRead) hn le_rfl (by omega) (by
      show b.readOffset + n ≤ b.getBlockCapacity b.nextBlockToRead
      omega)
  have hframed : Framed b.frameArrivalTimeMap
      fun o => b.Unread o ∧ b.totalBytesRead + 0 ≤ o :=
    h.framed.congr fun o => and_iff_left_of_imp fun ho => ho.1
  unfold Buffer.getReadableRegion
  rw [if_neg (by omega)]
  cases hframes : b.frameArrivalTimeMap with
  | nil =>
    have hunread := hG.unread_of_readable (o := b.totalBytesRead) le_rfl (by omega)
    rw [h.framed.mem, hframes] at hunread
    exact absurd hunread not_covered_nil
  | cons e frames =>
    rw [hframes] at hframed
    obtain ⟨len, rest, heq, -, hsame, harr, hend, hnil, hlen⟩ :=
      sameArrival_spec e.2.timestamp (fun x hx => hframes ▸ hx) hframed hG hle
        (Nat.zero_le _) (fun o ho ho' => by omega)
    dsimp only
    rw [heq]
    cases rest with
    | nil =>
      obtain rfl := hnil rfl
      exact ⟨_, _, by rw [hregion _ havail le_rfl], havail, hle, harr⟩
    | cons e' rest =>
      dsimp only
      split_ifs with htime
      · refine ⟨_, _, by rw [hregion _ havail le_rfl], havail, hle, ?_⟩
        rcases lt_or_ge len b.availableInBlock with hlt | hge
        · exact hend hlt e' rest rfl htime
        · rw [show b.availableInBlock = len by omega]
          exact harr
      · have hlenpos : 0 < len := by
          by_contra hzero
          have := hsame (by omega)
          obtain ⟨rfl, -⟩ := List.cons.inj this
          exact htime rfl
        exact ⟨len, _, by rw [hregion len hlenpos hlen], hlenpos, by omega, harr⟩

/-! ## Writing -/

/-- What is compared with a frame: the first gap that does not end before it. -/
theorem Gapped.covered_iff (h : Gapped b) {before after : List (ℕ × ℕ)} {g : ℕ × ℕ}
    (hl : b.gaps = before ++ g :: after) (hbefore : ∀ x ∈ before, x.2 ≤ offset)
    (ho : offset ≤ o) (hlt : o ≤ g.2) : Covered b.gaps o ↔ g.1 ≤ o ∧ o < g.2 := by
  have hsep : Separated (before ++ g :: after) := hl ▸ h.separated
  rw [hl, covered_append, covered_cons]
  constructor
  · rintro (⟨x, hx, hin⟩ | hin | ⟨x, hx, hin⟩)
    · have := hbefore x hx
      omega
    · exact hin
    · have := hsep.lt_of_mem hx
      omega
  · exact fun hin => .inr (.inl hin)

theorem Gapped.ncard_add (h : Gapped b)
    (hunread : ∀ o, b'.Unread o ↔ b.Unread o ∨ offset ≤ o ∧ o < offset + n)
    (hdisj : ∀ o, b.Unread o → ¬ (offset ≤ o ∧ o < offset + n)) :
    {o | b'.Unread o}.ncard = {o | b.Unread o}.ncard + n := by
  have hset : {o | b'.Unread o} = {o | b.Unread o} ∪ Set.Ico offset (offset + n) :=
    Set.ext hunread
  have hdisj' : Disjoint {o | b.Unread o} (Set.Ico offset (offset + n)) :=
    Set.disjoint_left.2 hdisj
  rw [hset, Set.ncard_union_eq hdisj' h.finite_unread (Set.finite_Ico _ _), ncard_Ico]

section Frame

variable (h : Sound content b) (hdata : 0 < data.length)
  (hfits : offset + data.length + b.maxBufferCapacityBytes < 2 ^ 64) (timestamp)

include h hdata hfits

/-- **A frame with nothing new** is a duplicate. -/
theorem Sound.onStreamData_duplicate
    (hold : ∀ o, offset ≤ o → o < offset + data.length → ¬ Covered b.gaps o) :
    b.onStreamData offset data timestamp = .duplicate := by
  have hmax : offset < kMaxOffset := by
    unfold kMaxOffset
    omega
  obtain ⟨before, g, after, hl, -, hdrop, hbefore, hg⟩ := h.gapped.find_gap hmax
  have hstop : wrapAdd offset data.length = offset + data.length := wrapAdd_eq (by omega)
  have hlt : offset < g.1 := by
    by_contra hge
    exact hold offset le_rfl (by omega)
      ((h.gapped.covered_iff hl hbefore le_rfl hg.le).2 ⟨not_lt.1 hge, hg⟩)
  have hend : offset + data.length ≤ g.1 := by
    by_contra hgt
    have := h.gapped.separated.lt g (by simp [hl])
    exact hold g.1 hlt.le (by omega)
      ((h.gapped.covered_iff hl hbefore hlt.le this.le).2 ⟨le_rfl, this⟩)
  unfold Buffer.onStreamData
  dsimp only
  rw [if_neg (by omega), hdrop, hstop]
  exact if_pos ⟨hlt, hend⟩

/-- **A frame with old bytes and new ones** is an error. -/
theorem Sound.onStreamData_overlapping
    (hnew : ∃ o, offset ≤ o ∧ o < offset + data.length ∧ Covered b.gaps o)
    (hold : ∃ o, offset ≤ o ∧ o < offset + data.length ∧ ¬ Covered b.gaps o) :
    b.onStreamData offset data timestamp = .error .overlappingStreamData := by
  have hmax : offset < kMaxOffset := by
    unfold kMaxOffset
    omega
  obtain ⟨before, g, after, hl, -, hdrop, hbefore, hg⟩ := h.gapped.find_gap hmax
  have hsep : Separated (before ++ g :: after) := hl ▸ h.gapped.separated
  have hstop : wrapAdd offset data.length = offset + data.length := wrapAdd_eq (by omega)
  unfold Buffer.onStreamData
  dsimp only
  rw [if_neg (by omega), hdrop, hstop]
  dsimp only
  by_cases hlt : offset < g.1
  · have hgt : g.1 < offset + data.length := by
      obtain ⟨o, ho, ho', x, hx, hin⟩ := hnew
      rw [hl] at hx
      rcases List.mem_append.1 hx with hx | hx
      · have := hbefore x hx
        omega
      · rcases List.mem_cons.1 hx with rfl | hx
        · omega
        · have := hsep.lt g (by simp)
          have := hsep.lt_of_mem hx
          omega
    rw [if_neg (by omega), if_pos hlt]
  · have hgt : g.2 < offset + data.length := by
      by_contra hle
      obtain ⟨o, ho, ho', hc⟩ := hold
      exact hc ((h.gapped.covered_iff hl hbefore ho (by omega)).2 ⟨by omega, by omega⟩)
    rw [if_neg (by omega), if_neg hlt, if_pos hgt]

/-- **A frame of new bytes** is written, unless it goes beyond the window or would make one gap
too many. -/
theorem Sound.onStreamData_new (hs : Carries content offset data)
    (hnew : ∀ o, offset ≤ o → o < offset + data.length → Covered b.gaps o) :
    (b.onStreamData offset data timestamp = .error .internalError ∧
      b.totalBytesRead + b.maxBufferCapacityBytes < offset + data.length) ∨
    (b.onStreamData offset data timestamp = .error .tooManyFrameGaps ∧
      kMaxNumGapsAllowed ≤ b.gaps.length) ∨
    ∃ b', b.onStreamData offset data timestamp = .buffered b' ∧ Sound content b' ∧
      offset + data.length ≤ b.totalBytesRead + b.maxBufferCapacityBytes ∧
      b'.totalBytesRead = b.totalBytesRead ∧
      b'.maxBufferCapacityBytes = b.maxBufferCapacityBytes ∧
      ∀ o, b'.Unread o ↔ b.Unread o ∨ offset ≤ o ∧ o < offset + data.length := by
  have hG := h.gapped
  have hmax : offset < kMaxOffset := by
    unfold kMaxOffset
    omega
  obtain ⟨before, g, after, hl, htake, hdrop, hbefore, hg⟩ := hG.find_gap hmax
  have hgmem : g ∈ b.gaps := by simp [hl]
  have hlo : g.1 ≤ offset :=
    ((hG.covered_iff hl hbefore le_rfl hg.le).1 (hnew offset le_rfl (by omega))).1
  have hhi : offset + data.length ≤ g.2 := by
    by_contra hgt
    have := (hG.covered_iff hl hbefore hg.le le_rfl).1 (hnew g.2 hg.le (by omega))
    omega
  have hge := hG.ge g hgmem
  have hgfits := hG.fits g hgmem
  have hstop : wrapAdd offset data.length = offset + data.length := wrapAdd_eq (by omega)
  have hlimit : wrapAdd b.totalBytesRead b.maxBufferCapacityBytes =
      b.totalBytesRead + b.maxBufferCapacityBytes := wrapAdd_eq (by omega)
  unfold Buffer.onStreamData
  dsimp only
  rw [if_neg (by omega), hdrop, htake, hstop, hlimit]
  dsimp only
  rw [if_neg (by omega), if_neg (by omega), if_neg (by omega)]
  split_ifs with hroom hmany
  · exact .inl ⟨rfl, hroom⟩
  · exact .inr (.inl ⟨rfl, hmany.2.2⟩)
  · right; right
    -- The new bytes are not among the unread ones.
    have hdisj : ∀ o, b.Unread o → ¬ (offset ≤ o ∧ o < offset + data.length) :=
      fun o ho hin => ho.2.2 (hnew o hin.1 hin.2)
    obtain ⟨allocated, blocks, heq, hholds⟩ := h.holds.writeBlocks hG.capacity
      (fun o ho => ⟨ho.1, hG.lt_window ho⟩) (by omega) (not_lt.1 hroom) hdisj hs le_rfl
    rw [heq]
    obtain ⟨hG', hunread⟩ := hG.fill { b with
        allocated := allocated, blocks := blocks
        gaps := SequencerBuffer.updateGapList before g after offset (offset + data.length)
        frameArrivalTimeMap := insertFrame offset ⟨data.length, timestamp⟩ b.frameArrivalTimeMap
        numBytesBuffered := b.numBytesBuffered + data.length }
      hl hdata hlo hhi (not_lt.1 hroom) hfits rfl rfl rfl
    refine ⟨_, rfl, ⟨⟨hG', hholds.congr hunread rfl rfl rfl, ?_⟩, ?_⟩, not_lt.1 hroom, rfl, rfl,
      hunread⟩
    · show b.numBytesBuffered + data.length = _
      rw [h.count]
      exact (hG.ncard_add hunread hdisj).symm
    · exact (h.framed.insert ⟨data.length, timestamp⟩ hdata hdisj).congr hunread

/-- A frame that agrees with the stream, whatever becomes of it. -/
theorem Sound.onStreamData (hs : Carries content offset data) :
    (∃ e, b.onStreamData offset data timestamp = .error e) ∨
      b.onStreamData offset data timestamp = .duplicate ∨
      ∃ b', b.onStreamData offset data timestamp = .buffered b' ∧ Sound content b' ∧
        b'.maxBufferCapacityBytes = b.maxBufferCapacityBytes := by
  by_cases hnew : ∀ o, offset ≤ o → o < offset + data.length → Covered b.gaps o
  · rcases h.onStreamData_new timestamp hdata hfits hs hnew with
      ⟨heq, -⟩ | ⟨heq, -⟩ | ⟨b', heq, hb', -, -, hcap, -⟩
    · exact .inl ⟨_, heq⟩
    · exact .inl ⟨_, heq⟩
    · exact .inr (.inr ⟨b', heq, hb', hcap⟩)
  · push Not at hnew
    by_cases hold : ∀ o, offset ≤ o → o < offset + data.length → ¬ Covered b.gaps o
    · exact .inr (.inl (h.onStreamData_duplicate timestamp hdata hfits hold))
    · push Not at hold
      exact .inl ⟨_, h.onStreamData_overlapping timestamp hdata hfits hold hnew⟩

end Frame

/-! ## Clearing -/

theorem not_unread_clear : ¬ b.clear.Unread o := by
  rintro ⟨h₁, h₂, h₃⟩
  refine h₃ ?_
  show Covered [(b.totalBytesRead, kMaxOffset)] o
  rw [covered_cons]
  exact .inl ⟨h₁, h₂⟩

/-- An empty buffer, whatever the blocks were. -/
theorem Sound.of_clear (hcap : kBlockSizeBytes < b.maxBufferCapacityBytes)
    (hfits : b.totalBytesRead + b.maxBufferCapacityBytes < 2 ^ 64)
    (hblocks : ∀ i block, b.blocks i = some block → i < b.blocksCount) : Sound content b.clear := by
  have hnone : ∀ i, b.clear.blocks i = none := by
    intro i
    show (if i < b.blocksCount then none else b.blocks i) = none
    split_ifs with hi
    · rfl
    · cases hb : b.blocks i with
      | none => rfl
      | some block => exact absurd (hblocks i block hb) hi
  have hmem : ∀ g ∈ b.clear.gaps, g = (b.totalBytesRead, kMaxOffset) := fun g hg =>
    List.mem_singleton.1 hg
  refine ⟨⟨⟨hcap, .singleton ?_, fun g hg => ?_, fun g hg => ?_, fun g hg => ?_, [], _, rfl⟩,
    ⟨fun _ => hnone, fun o ho => absurd ho not_unread_clear, fun i block hi => ?_⟩, ?_⟩, ?_⟩
  · show b.totalBytesRead < kMaxOffset
    unfold kMaxOffset
    omega
  · rw [hmem g hg]
    exact le_rfl
  · rw [hmem g hg]
    exact Nat.le_add_right _ _
  · rw [hmem g hg]
    exact hfits
  · rw [hnone i] at hi
    exact absurd hi (by simp)
  · have hempty : {o | b.clear.Unread o} = ∅ :=
      Set.eq_empty_of_forall_notMem fun o ho => not_unread_clear ho
    rw [hempty, Set.ncard_empty]
    rfl
  · exact Framed.nil fun _ => not_unread_clear

theorem Sound.blocks_lt (h : Sound content b) {i : ℕ} {block : BufferBlock}
    (hb : b.blocks i = some block) : i < b.blocksCount := by
  obtain ⟨o, -, rfl⟩ := h.holds.used i block hb
  exact Ring.blockIndex_lt h.gapped.capacity_pos (by decide)

theorem Sound.clear (h : Sound content b) : Sound content b.clear := by
  obtain ⟨g, rest, hl⟩ := h.gapped.exists_cons
  have hg : g ∈ b.gaps := hl ▸ List.mem_cons_self ..
  have := h.gapped.ge g hg
  have := h.gapped.fits g hg
  exact .of_clear h.gapped.capacity (by omega) fun i block => h.blocks_lt

theorem Sound.flushBufferedFrames (h : Sound content b) :
    Sound content b.flushBufferedFrames.2 := by
  obtain ⟨before, start, hl⟩ := h.gapped.last
  have htotal : (b.gaps.getLastD (b.totalBytesRead, kMaxOffset)).1 = start := by
    rw [hl]
    simp
  unfold Buffer.flushBufferedFrames
  dsimp only
  rw [htotal]
  refine .of_clear h.gapped.capacity ?_ fun i block => h.blocks_lt
  exact h.gapped.fits (start, kMaxOffset) (by simp [hl])

theorem Sound.releaseWholeBuffer (h : Sound content b) : Sound content b.releaseWholeBuffer := by
  have hc := h.clear
  have hnone : ∀ i, b.clear.blocks i = none := by
    intro i
    cases hb : b.clear.blocks i with
    | none => rfl
    | some block =>
      obtain ⟨o, ho, -⟩ := hc.holds.used i block hb
      exact absurd ho not_unread_clear
  exact ⟨⟨⟨hc.gapped.capacity, hc.gapped.separated, hc.gapped.ge, hc.gapped.room, hc.gapped.fits,
    hc.gapped.last⟩, ⟨fun _ => hnone, hc.holds.bytes, hc.holds.used⟩, hc.count⟩, hc.framed⟩

/-! ## Runs -/

/-- An operation that agrees with the stream: a frame carries its bytes, and stays a ring below
the largest offset. -/
def Op.Agrees (content : ℕ → UInt8) (capacity : ℕ) : Op → Prop
  | .onStreamData offset data _ =>
    Carries content offset data ∧ offset + data.length + capacity < 2 ^ 64
  | _ => True

/-- **A step** never fails, and keeps the invariant. -/
theorem Sound.step (h : Sound content b) (op : Op)
    (hop : op.Agrees content b.maxBufferCapacityBytes) :
    ∃ b', step b op = some b' ∧ Sound content b' ∧
      b'.maxBufferCapacityBytes = b.maxBufferCapacityBytes := by
  cases op with
  | onStreamData offset data timestamp =>
    obtain ⟨hs, hfits⟩ := hop
    unfold Reassembly.step
    dsimp only
    rcases Nat.eq_zero_or_pos data.length with hzero | hpos
    · have : b.onStreamData offset data timestamp = .error .emptyStreamFrameNoFin := by
        unfold Buffer.onStreamData
        exact if_pos hzero
      rw [this]
      exact ⟨b, rfl, h, rfl⟩
    · rcases h.onStreamData timestamp hpos hfits hs with
        ⟨e, heq⟩ | heq | ⟨b', heq, hb', hcap⟩
      · rw [heq]
        exact ⟨b, rfl, h, rfl⟩
      · rw [heq]
        exact ⟨b, rfl, h, rfl⟩
      · rw [heq]
        exact ⟨b', rfl, hb', hcap⟩
  | readv lengths =>
    obtain ⟨vectors, b', heq, hb', -, -, -, -, hcap⟩ := h.readv lengths
    refine ⟨b', ?_, hb', hcap⟩
    show (b.readv lengths).toOption.map Prod.snd = some b'
    rw [heq]
    rfl
  | markConsumed n =>
    rcases Nat.lt_or_ge b.readableBytes n with hlt | hle
    · refine ⟨b, ?_, h, rfl⟩
      show ((b.markConsumed n).toOption.map fun b' => b'.getD b) = some b
      unfold Buffer.markConsumed
      rw [if_pos hlt]
      rfl
    · obtain ⟨b', heq, hb', -, -, hcap⟩ := h.markConsumed hle
      refine ⟨b', ?_, hb', hcap⟩
      show ((b.markConsumed n).toOption.map fun b' => b'.getD b) = some b'
      rw [heq]
      rfl
  | flushBufferedFrames => exact ⟨_, rfl, h.flushBufferedFrames, rfl⟩
  | clear => exact ⟨_, rfl, h.clear, rfl⟩
  | releaseWholeBuffer => exact ⟨_, rfl, h.releaseWholeBuffer, rfl⟩

theorem Sound.new (hcap : kBlockSizeBytes < capacity) (hlt : capacity < 2 ^ 64) :
    Sound content (Buffer.new capacity) := by
  have hclear : (Buffer.new capacity).clear = Buffer.new capacity := by
    unfold Buffer.clear Buffer.new
    simp
  rw [← hclear]
  refine .of_clear hcap ?_ fun i block hb => absurd hb (by simp [Buffer.new])
  show 0 + capacity < 2 ^ 64
  omega

/-- A frame of the stream `content`, which stays a ring below the largest offset. -/
structure Fits (content : ℕ → UInt8) (capacity offset : ℕ) (data : List UInt8) : Prop where
  pos : 0 < data.length
  carries : Carries content offset data
  fits : offset + data.length + capacity < 2 ^ 64

/-- **What a buffer does with a stream**, whatever has been received and read before. -/
structure Faithful (content : ℕ → UInt8) (b : Buffer) : Prop where
  /-- A frame is ignored if all of its bytes have arrived before. -/
  duplicate : ∀ offset data timestamp, Fits content b.maxBufferCapacityBytes offset data →
    (∀ o, offset ≤ o → o < offset + data.length → b.Arrived o) →
    b.onStreamData offset data timestamp = .duplicate
  /-- It is refused if some of them have and some have not. -/
  overlapping : ∀ offset data timestamp, Fits content b.maxBufferCapacityBytes offset data →
    (∃ o, offset ≤ o ∧ o < offset + data.length ∧ b.Arrived o) →
    (∃ o, offset ≤ o ∧ o < offset + data.length ∧ ¬ b.Arrived o) →
    b.onStreamData offset data timestamp = .error .overlappingStreamData
  /-- It is written if none of them has, unless it goes beyond the window or there are too many
  gaps. -/
  written : ∀ offset data timestamp, Fits content b.maxBufferCapacityBytes offset data →
    (∀ o, offset ≤ o → o < offset + data.length → ¬ b.Arrived o) →
    (b.onStreamData offset data timestamp = .error .internalError ∧
      b.totalBytesRead + b.maxBufferCapacityBytes < offset + data.length) ∨
    (b.onStreamData offset data timestamp = .error .tooManyFrameGaps ∧
      kMaxNumGapsAllowed ≤ b.gaps.length) ∨
    ∃ b', b.onStreamData offset data timestamp = .buffered b' ∧
      b'.totalBytesRead = b.totalBytesRead ∧
      ∀ o, b'.Unread o ↔ b.Unread o ∨ offset ≤ o ∧ o < offset + data.length
  /-- What is read are the bytes that follow, as many as fit and can be read. -/
  readv : ∀ lengths, ∃ vectors b', b.readv lengths = .ok (vectors, b') ∧
    vectors.flatten =
      BufferBlock.slice content b.totalBytesRead (min lengths.sum b.readableBytes) ∧
    List.Forall₂ (fun v length => v.length ≤ length) vectors (lengths.take vectors.length) ∧
    b'.totalBytesRead = b.totalBytesRead + min lengths.sum b.readableBytes
  /-- So are those that are shown. -/
  regions : ∀ count, 0 < count → ∃ (regions : List (List UInt8)) (n : ℕ),
    b.getReadableRegions count = regions.map some ∧
    regions.flatten = BufferBlock.slice content b.totalBytesRead n ∧ n ≤ b.readableBytes ∧
    regions.length ≤ count ∧ (regions.length < count → n = b.readableBytes) ∧
    (0 < b.readableBytes → 0 < n)
  /-- Those that are shown with a time arrived at that time. -/
  region : 0 < b.readableBytes → ∃ n timestamp, b.getReadableRegion =
      some (some (BufferBlock.slice content b.totalBytesRead n), timestamp) ∧
    0 < n ∧ n ≤ b.readableBytes ∧
    ∀ o, b.totalBytesRead ≤ o → o < b.totalBytesRead + n → b.ArrivedAt timestamp o
  /-- No block is there for nothing. -/
  blocks : ∀ i, (∃ block, b.blocks i = some block) ↔ ∃ o, b.Unread o ∧ b.getBlockIndex o = i
  count : b.numBytesBuffered = {o | b.Unread o}.ncard

/-- The bytes of a frame that fits lie below the largest offset. -/
theorem Fits.arrived_iff (h : Fits content b.maxBufferCapacityBytes offset data) (hG : Gapped b)
    (ho : o < offset + data.length) : b.Arrived o ↔ ¬ Covered b.gaps o := by
  refine hG.arrived_iff ?_
  have := h.fits
  unfold kMaxOffset
  omega

theorem Sound.faithful (h : Sound content b) : Faithful content b where
  duplicate := by
    intro offset data timestamp hf hold
    exact h.onStreamData_duplicate timestamp hf.pos hf.fits fun o ho ho' =>
      (hf.arrived_iff h.gapped ho').1 (hold o ho ho')
  overlapping := by
    rintro offset data timestamp hf ⟨o, ho, ho', hold⟩ ⟨x, hx, hx', hnew⟩
    refine h.onStreamData_overlapping timestamp hf.pos hf.fits ⟨x, hx, hx', ?_⟩
      ⟨o, ho, ho', (hf.arrived_iff h.gapped ho').1 hold⟩
    exact not_not.1 fun hc => hnew ((hf.arrived_iff h.gapped hx').2 hc)
  written := by
    intro offset data timestamp hf hnew
    have hcovered : ∀ o, offset ≤ o → o < offset + data.length → Covered b.gaps o :=
      fun o ho ho' => not_not.1 fun hc => hnew o ho ho' ((hf.arrived_iff h.gapped ho').2 hc)
    rcases h.onStreamData_new timestamp hf.pos hf.fits hf.carries hcovered with
      hbeyond | hmany | ⟨b', heq, -, -, htotal, -, hunread⟩
    · exact .inl hbeyond
    · exact .inr (.inl hmany)
    · exact .inr (.inr ⟨b', heq, htotal, hunread⟩)
  readv := by
    intro lengths
    obtain ⟨vectors, b', heq, -, hflat, hlens, htotal, -⟩ := h.readv lengths
    exact ⟨vectors, b', heq, hflat, hlens, htotal⟩
  regions := fun count hcount => h.getReadableRegions hcount
  region := h.getReadableRegion
  blocks := by
    intro i
    constructor
    · rintro ⟨block, hb⟩
      exact h.holds.used i block hb
    · rintro ⟨o, ho, rfl⟩
      obtain ⟨block, hb, -⟩ := h.holds.bytes o ho
      exact ⟨block, hb⟩
  count := h.count

end Reassembly
end QuicNs3
