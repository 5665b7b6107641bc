/-
# From one application to the other

A session hands the data of a stream over to the connection, which cuts it into frames.  A frame
is sent once or many times, and arrives once, many times or never, in any order.  At the other
end a receiver puts the frames together, and the stream there reads them as it likes.

The connection and the network are not modelled but allowed to do anything: `cut` is where the
packets happened to be full, and every frame between two cuts of a hand-over may arrive at any
time (`Link.step`).  What a retransmission never does is to cut data anew; the receiver would
refuse frames that overlap.

`always_delivers` is what the two ends together are for: what is read is what was written, up to
some point and not out of order, and the end is read only behind the last byte.  If every byte
that was sent has arrived in some frame, every byte can be read.
-/

import QuicNs3.Reassembly.Receiver
import QuicNs3.Streams.Growth

namespace QuicNs3
namespace Reassembly

open Lib Streams

variable {cut : ℕ → Bool} {h : HandOver} {f g : DataFrame} {o o' : Outgoing} {q n : ℕ}
  {rest rest' : List UInt8}

/-! ## Frames of a hand-over -/

/-- **A frame that was cut from a hand-over.** -/
structure CutFrom (cut : ℕ → Bool) (h : HandOver) (f : DataFrame) : Prop where
  le : h.offset ≤ f.offset
  stop_le : f.stop ≤ h.offset + h.bytesConsumed
  start : f.offset = h.offset ∨ cut f.offset = true
  stop : f.stop = h.offset + h.bytesConsumed ∨ cut f.stop = true
  /-- It has not been cut further. -/
  whole : ∀ k < f.data.length, 0 < k → cut (f.offset + k) = false
  data : f.data = (h.data.drop (f.offset - h.offset)).take f.data.length
  /-- The FIN is set on the last frame, if it is consumed. -/
  fin : f.fin = true → h.finConsumed = true ∧ f.stop = h.offset + h.bytesConsumed
  nonempty : f.data = [] → f.fin = true

instance (cut : ℕ → Bool) (h : HandOver) (f : DataFrame) : Decidable (CutFrom cut h f) :=
  decidable_of_iff
    (h.offset ≤ f.offset ∧ f.stop ≤ h.offset + h.bytesConsumed ∧
      (f.offset = h.offset ∨ cut f.offset = true) ∧
      (f.stop = h.offset + h.bytesConsumed ∨ cut f.stop = true) ∧
      (∀ k < f.data.length, 0 < k → cut (f.offset + k) = false) ∧
      f.data = (h.data.drop (f.offset - h.offset)).take f.data.length ∧
      (f.fin = true → h.finConsumed = true ∧ f.stop = h.offset + h.bytesConsumed) ∧
      (f.data = [] → f.fin = true))
    (by
      constructor
      · rintro ⟨h₁, h₂, h₃, h₄, h₅, h₆, h₇, h₈⟩
        exact ⟨h₁, h₂, h₃, h₄, h₅, h₆, h₇, h₈⟩
      · intro c
        exact ⟨c.le, c.stop_le, c.start, c.stop, c.whole, c.data, c.fin, c.nonempty⟩)

/-- A frame of the stream that can be on its way. -/
def Sent (cut : ℕ → Bool) (o : Outgoing) (f : DataFrame) : Prop :=
  ∃ h ∈ o.handOvers, CutFrom cut h f

instance (cut : ℕ → Bool) (o : Outgoing) (f : DataFrame) : Decidable (Sent cut o f) :=
  inferInstanceAs (Decidable (∃ h ∈ o.handOvers, CutFrom cut h f))

/-- Nothing is cut within a frame. -/
theorem CutFrom.le_of_cut (hf : CutFrom cut h f) (hc : cut n = true) (hlt : f.offset < n) :
    f.stop ≤ n := by
  by_contra hgt
  unfold DataFrame.stop at hgt
  have := hf.whole (n - f.offset) (by omega) (by omega)
  rw [Nat.add_sub_cancel' hlt.le, hc] at this
  exact absurd this (by decide)

/-- **Two frames of a hand-over** with a byte in common have the same bytes. -/
theorem CutFrom.stop_le_stop (hf : CutFrom cut h f) (hg : CutFrom cut h g) (hfn : f.Has n)
    (hgn : g.Has n) : f.offset ≤ g.offset ∧ g.stop ≤ f.stop := by
  constructor
  · by_contra hlt
    rcases hf.start with heq | hc
    · have := hg.le
      omega
    · have := hg.le_of_cut hc (by omega)
      have := hfn.1
      have := hgn.2
      omega
  · by_contra hlt
    rcases hf.stop with heq | hc
    · have := hg.stop_le
      omega
    · have := hgn.1
      have := hfn.2
      have := hg.le_of_cut hc (by omega)
      omega

/-! ## What is sent is a part of what was written -/

/-- The bytes of a list. -/
def contentOf (l : List UInt8) : ℕ → UInt8 := fun i => l.getD i 0

/-- The stream ends behind all that was written, once a FIN was. -/
def EndsAt (o : Outgoing) (n : ℕ) : Prop := o.finBuffered = true ∧ n = o.accepted.length

theorem slice_contentOf {l : List UInt8} (hn : n ≤ l.length) :
    BufferBlock.slice (contentOf l) 0 n = l.take n := by
  refine List.ext_getElem? fun i => ?_
  unfold BufferBlock.slice contentOf
  rw [List.getElem?_map, List.getElem?_take]
  by_cases hi : i < n
  · rw [if_pos hi, List.getElem?_range hi, Option.map_some, Nat.zero_add,
      List.getD_eq_getElem?_getD, List.getElem?_eq_getElem (hi.trans_le hn)]
    rfl
  · rw [if_neg hi, List.getElem?_eq_none (by rw [List.length_range]; omega)]
    rfl

/-- **Two frames that can be on their way** have all bytes in common or none. -/
theorem Sent.disjoint_or_subset (ht : Told o rest) (hf : Sent cut o f) (hg : Sent cut o g) :
    (∀ n, f.Has n → ¬ g.Has n) ∨ ∀ n, g.Has n → f.Has n := by
  by_cases hcommon : ∃ n, f.Has n ∧ g.Has n
  · right
    obtain ⟨n, hfn, hgn⟩ := hcommon
    obtain ⟨x, hx, hfx⟩ := hf
    obtain ⟨y, hy, hgy⟩ := hg
    obtain rfl : x = y := ht.eq_of_common hx hy (hfx.le.trans hfn.1) (hfn.2.trans_le hfx.stop_le)
      (hgy.le.trans hgn.1) (hgn.2.trans_le hgy.stop_le)
    obtain ⟨hstart, hstop⟩ := hfx.stop_le_stop hgy hfn hgn
    exact fun m hm => ⟨hstart.trans hm.1, hm.2.trans_le hstop⟩
  · exact .inl fun n hfn hgn => hcommon ⟨n, hfn, hgn⟩

/-- **A frame that can be on its way is a part of the stream.** -/
theorem Sent.part (ht : Told o rest) (hf : Sent cut o f)
    (hfits : f.stop + maxBufferCapacityBytes < 2 ^ 64) :
    Part (contentOf o.accepted) o.streamBytesWritten (EndsAt o) f := by
  obtain ⟨x, hx, hcut⟩ := hf
  obtain ⟨before, after, hl⟩ := List.append_of_mem hx
  obtain ⟨hoffset, hdata, hfin⟩ := ht.inPlace before x after hl
  refine ⟨?_, hcut.stop_le.trans (ht.stop_le hx), hfits, fun hff => ?_, hcut.nonempty⟩
  · intro k hk
    obtain ⟨more, hmore⟩ := hdata
    have hle := hcut.le
    rw [hcut.data, List.getElem?_take, if_pos hk, List.getElem?_drop]
    -- The bytes of the hand-over are those accepted from its offset on.
    have hlt : f.offset - x.offset + k < x.data.length := by
      have := congrArg List.length hcut.data
      rw [List.length_take, List.length_drop] at this
      omega
    have hsame : x.data[f.offset - x.offset + k]? = o.accepted[f.offset + k]? := by
      have happend : (x.data ++ more)[f.offset - x.offset + k]? =
          x.data[f.offset - x.offset + k]? := List.getElem?_append_left hlt
      rw [← happend, hmore, List.getElem?_drop]
      congr 1
      omega
    rw [hsame]
    unfold contentOf
    rw [List.getD_eq_getElem?_getD]
    cases hget : o.accepted[f.offset + k]? with
    | some byte => rfl
    | none =>
      rw [← hsame, List.getElem?_eq_getElem hlt] at hget
      exact absurd hget (by simp)
  · obtain ⟨hcons, hstop⟩ := hcut.fin hff
    obtain ⟨hbuf, hlen⟩ := hfin hcons
    exact ⟨hbuf, hstop.trans hlen⟩

/-! ## The link -/

/-- A session that sends, and the receiver of one of its streams. -/
structure Link where
  sender : Session
  receiver : Receiver
  /-- The frames that have arrived. -/
  delivered : List DataFrame

/-- What can happen. -/
inductive Event
  /-- A step of the session that sends. -/
  | send (y : Streams.Op × Environment)
  /-- A frame arrives. -/
  | deliver (f : DataFrame) (timestamp : ℤ) (x : Reader)
  /-- The stream reads on its own. -/
  | read (x : Reader)
  | setBlockedUntilFlush
  | setUnblocked (x : Reader)
  | stopReading (x : Reader)
  | releaseBufferIfEmpty

/-- The stream `q` of the sender. -/
def Link.outgoing (k : Link) (q : ℕ) : Outgoing := (k.sender.streams q).outgoing

/-- **A step of the link** for the stream `q`.  A frame arrives only if it can be on its way, and
nothing is received once the receiver has closed the connection. -/
def Link.step (cut : ℕ → Bool) (q : ℕ) (k : Link) : Event → Option Link
  | .send y => (k.sender.step y).map fun s => { k with sender := s }
  | .deliver f timestamp x =>
    if k.receiver.ending = none ∧ Sent cut (k.outgoing q) f then
      some { k with
        receiver := k.receiver.onStreamFrame f timestamp x
        delivered := f :: k.delivered }
    else none
  | .read x =>
    if k.receiver.blocked then none else some { k with receiver := k.receiver.onDataAvailable x }
  | .setBlockedUntilFlush => some { k with receiver := k.receiver.setBlockedUntilFlush }
  | .setUnblocked x => some { k with receiver := k.receiver.setUnblocked x }
  | .stopReading x => some { k with receiver := k.receiver.stopReading x }
  | .releaseBufferIfEmpty => some { k with receiver := k.receiver.releaseBufferIfEmpty }

variable {k k' : Link} {ev : Event}

/-- The connection consumes a FIN with the last byte, and no frame comes near the largest
offset. -/
def Event.Admissible : Event → Prop
  | .send y => y.1.consumesFin = true
  | .deliver f _ _ => f.stop + maxBufferCapacityBytes < 2 ^ 64
  | _ => True

/-- **The invariant of a link.** -/
structure Linked (cut : ℕ → Bool) (q : ℕ) (k : Link) : Prop where
  formed : Formed k.sender
  ordered : AllOrdered k.sender
  lt : q < k.sender.numStreams
  receiving : Receiving (contentOf (k.outgoing q).accepted) (k.outgoing q).streamBytesWritten
    (EndsAt (k.outgoing q)) k.receiver
  whole : ∀ f, Sent cut (k.outgoing q) f → AllOrNone f k.receiver.buffer
  arrived : k.receiver.ending = none → ∀ f ∈ k.delivered, ∀ n, f.Has n →
    k.receiver.buffer.Arrived n
  closing : ∀ f ∈ k.delivered, f.fin = true → EndsAt (k.outgoing q) k.receiver.closeOffset

theorem EndsAt.le (ht : Told o rest) (hn : EndsAt o n) : o.streamBytesWritten ≤ n :=
  hn.2 ▸ ht.written_le

theorem EndsAt.unique (m n : ℕ) (hm : EndsAt o m) (hn : EndsAt o n) : m = n :=
  hm.2.trans hn.2.symm

theorem EndsAt.extend (hn : EndsAt o n) (he : Extends o o') : EndsAt o' n := by
  obtain ⟨hfin, heq⟩ := he.fin hn.1
  exact ⟨hfin, heq ▸ hn.2⟩

/-- What has been received stays right while more is written. -/
theorem Receiving.extend {r : Receiver} (ht : Told o rest) (ht' : Told o' rest')
    (he : Extends o o')
    (hr : Receiving (contentOf o.accepted) o.streamBytesWritten (EndsAt o) r) :
    Receiving (contentOf o'.accepted) o'.streamBytesWritten (EndsAt o') r := by
  have hle := ht.written_mono ht' he
  have hsame : ∀ i < o.streamBytesWritten, contentOf o'.accepted i = contentOf o.accepted i := by
    intro i hi
    obtain ⟨more, hmore⟩ := he.accepted
    unfold contentOf
    rw [← hmore, List.getD_eq_getElem?_getD, List.getD_eq_getElem?_getD,
      List.getElem?_append_left (hi.trans_le ht.written_le)]
  refine ⟨hr.sound.congr_content fun i hi => hsame i (hr.lt i (.inr hi)), hr.capacity,
    fun i hi => (hr.lt i hi).trans_le hle, hr.close.imp_right fun hc => hc.extend he,
    fun hi => ?_, fun hi hf => (hr.finRead hi hf).extend he, hr.ending⟩
  rw [hr.received hi]
  unfold BufferBlock.slice
  refine List.map_congr_left fun i hin => (hsame _ ?_).symm
  have := List.mem_range.1 hin
  have := hr.totalBytesRead_le
  omega

namespace Linked

/-- The receiver goes on without a new frame. -/
theorem of_serves (hk : Linked cut q k) {r : Receiver}
    (hs : Serves (contentOf (k.outgoing q).accepted) (k.outgoing q).streamBytesWritten
      (EndsAt (k.outgoing q)) k.receiver r) : Linked cut q { k with receiver := r } where
  formed := hk.formed
  ordered := hk.ordered
  lt := hk.lt
  receiving := hs.receiving
  whole := fun f hf => hs.settles.allOrNone (hk.whole f hf)
  arrived := fun hr f hf n hn => hs.settles.mono (hk.arrived (hs.ending ▸ hr) f hf n hn)
  closing := fun f hf hfin => hs.closeOffset ▸ hk.closing f hf hfin

/-- **The session goes on**; what it adds lies behind all that can have arrived. -/
theorem send (hk : Linked cut q k) {y : Streams.Op × Environment} {s : Session}
    (hy : y.1.consumesFin = true) (hs : k.sender.step y = some s) :
    Linked cut q { k with sender := s } := by
  have hordered : AllOrdered s := hk.ordered.step hy hs
  obtain ⟨hformed, hgrown⟩ := Grown.step (q := q) ⟨hk.formed, hk.lt, .refl _⟩ hs
  have ht := (hk.ordered q).told
  have ht' := (hordered q).told
  refine ⟨hformed, hordered, hgrown.lt, hk.receiving.extend ht ht' hgrown.extend, ?_, hk.arrived,
    fun f hf hfin => (hk.closing f hf hfin).extend hgrown.extend⟩
  rintro f ⟨x, hx, hcut⟩
  rcases ht.mem_or_le ht' hgrown.extend hx with hold | hnew
  · exact hk.whole f ⟨x, hold, hcut⟩
  · refine .inr fun n hn hc => ?_
    have hlt : n < (k.sender.streams q).outgoing.streamBytesWritten := hk.receiving.lt n hc
    have hle := hcut.le.trans hn.1
    exact absurd (hnew.trans hle) (not_le.2 hlt)

/-- **A frame arrives.** -/
theorem deliver (hk : Linked cut q k) (hsent : Sent cut (k.outgoing q) f)
    (hfits : f.stop + maxBufferCapacityBytes < 2 ^ 64) (timestamp : ℤ) (x : Reader) :
    Linked cut q { k with
      receiver := k.receiver.onStreamFrame f timestamp x
      delivered := f :: k.delivered } := by
  have ht := (hk.ordered q).told
  obtain ⟨htakes, hclose⟩ := hk.receiving.onStreamFrame (fun n hn => hn.le ht) EndsAt.unique
    (hsent.part ht hfits) (hk.whole f hsent) timestamp x
  refine ⟨hk.formed, hk.ordered, hk.lt, htakes.receiving, fun g hg => ?_, ?_, ?_⟩
  · exact htakes.allOrNone (hk.whole g hg) (hsent.disjoint_or_subset ht hg)
  · intro hr g hg n hn
    rcases List.mem_cons.1 hg with rfl | hold
    · exact htakes.arrived hr hn
    · refine htakes.mono (hk.arrived ?_ g hold n hn)
      rcases htakes.outcome with ⟨hne, -⟩ | ⟨heq, -⟩
      · exact absurd hr hne
      · exact heq ▸ hr
  · intro g hg hfin
    show EndsAt (k.outgoing q) (k.receiver.onStreamFrame f timestamp x).closeOffset
    rw [hclose]
    split_ifs with hff
    · exact (hsent.part ht hfits).fin hff
    · rcases List.mem_cons.1 hg with rfl | hold
      · exact absurd hfin hff
      · exact hk.closing g hold hfin

/-- **One step.** -/
theorem step (hk : Linked cut q k) (hev : ev.Admissible) (hs : k.step cut q ev = some k') :
    Linked cut q k' := by
  have hend : ∀ n, EndsAt (k.outgoing q) n → (k.outgoing q).streamBytesWritten ≤ n :=
    fun n hn => hn.le (hk.ordered q).told
  cases ev with
  | send y =>
    obtain ⟨s, hs', rfl⟩ := Option.map_eq_some_iff.1 hs
    exact hk.send hev hs'
  | deliver f timestamp x =>
    obtain ⟨⟨-, hsent⟩, ⟨⟩⟩ := Option.ite_none_right_eq_some.1 hs
    exact hk.deliver hsent hev timestamp x
  | read x =>
    obtain ⟨-, ⟨⟩⟩ := Option.ite_none_left_eq_some.1 hs
    exact hk.of_serves (hk.receiving.onDataAvailable hend x)
  | setBlockedUntilFlush =>
    obtain rfl := Option.some.inj hs
    exact hk.of_serves hk.receiving.setBlockedUntilFlush
  | setUnblocked x =>
    obtain rfl := Option.some.inj hs
    exact hk.of_serves (hk.receiving.setUnblocked hend x)
  | stopReading x =>
    obtain rfl := Option.some.inj hs
    exact hk.of_serves (hk.receiving.stopReading hend x)
  | releaseBufferIfEmpty =>
    obtain rfl := Option.some.inj hs
    exact hk.of_serves hk.receiving.releaseBufferIfEmpty

end Linked

/-! ## Runs -/

theorem not_arrived_new : ¬ Receiver.new.buffer.Arrived n := by
  rintro (hlt | hun)
  · exact absurd hlt (Nat.not_lt_zero n)
  · exact hun.2.2 (covered_cons.2 (.inl ⟨Nat.zero_le n, hun.2.1⟩))

/-- A receiver has just been made. -/
theorem Linked.new {s : Session} (hF : Formed s) (hO : AllOrdered s) (hq : q < s.numStreams) :
    Linked cut q ⟨s, .new, []⟩ where
  formed := hF
  ordered := hO
  lt := hq
  receiving :=
    { sound := .new (by decide) (by decide)
      capacity := rfl
      lt := fun n hn => absurd hn not_arrived_new
      close := .inl rfl
      received := fun _ => rfl
      finRead := fun _ => Bool.noConfusion
      ending := fun e he => absurd he (by simp [Receiver.new]) }
  whole := fun f _ => .inr fun n _ => not_arrived_new
  arrived := fun _ f hf => absurd hf List.not_mem_nil
  closing := fun f hf => absurd hf List.not_mem_nil

/-- **What a link is for**, as long as the stream has not stopped reading. -/
structure Delivers (q : ℕ) (k : Link) : Prop where
  /-- What has been read is what was written first. -/
  inOrder : k.receiver.received <+: (k.outgoing q).accepted
  /-- If all that was sent has arrived, all of it can be read. -/
  complete : k.receiver.ending = none →
    (∀ n < (k.outgoing q).streamBytesWritten, ∃ f ∈ k.delivered, f.Has n) →
    ∀ lengths : List ℕ, (k.outgoing q).streamBytesWritten ≤ lengths.sum →
    ∃ vectors b, k.receiver.buffer.readv lengths = .ok (vectors, b) ∧
      k.receiver.received ++ vectors.flatten =
        (k.outgoing q).accepted.take (k.outgoing q).streamBytesWritten
  /-- The end is read behind the last byte that was written. -/
  fin : k.receiver.finRead = true →
    (k.outgoing q).finBuffered = true ∧ k.receiver.received = (k.outgoing q).accepted
  /-- If the FIN has arrived, the end is where the last byte was written. -/
  closing : (∃ f ∈ k.delivered, f.fin = true) →
    k.receiver.closeOffset = (k.outgoing q).accepted.length
  /-- The receiver gives up only at a limit of its buffer. -/
  ending : ∀ e, k.receiver.ending = some e → e.OfLimits

/-- If nothing that was sent is missing, the first gap lies behind it. -/
theorem Linked.readable_eq (hk : Linked cut q k) (hending : k.receiver.ending = none)
    (hall : ∀ n < (k.outgoing q).streamBytesWritten, ∃ f ∈ k.delivered, f.Has n) :
    k.receiver.buffer.totalBytesRead + k.receiver.buffer.readableBytes =
      (k.outgoing q).streamBytesWritten := by
  have hr := hk.receiving
  have hG := hr.sound.gapped
  obtain ⟨g, rest, hl⟩ := hG.exists_cons
  have hg : g ∈ k.receiver.buffer.gaps := hl ▸ List.mem_cons_self ..
  have hge := hG.ge g hg
  have hreadable := hG.readableBytes_eq hl
  refine le_antisymm ?_ ?_
  · rcases Nat.eq_zero_or_pos k.receiver.buffer.readableBytes with hzero | hpos
    · have := hr.totalBytesRead_le
      omega
    · have hun := hG.unread_of_readable (o := g.1 - 1) (by omega) (by omega)
      have := hr.lt _ (.inr hun)
      omega
  · by_contra hlt
    obtain ⟨f, hf, hn⟩ := hall g.1 (by omega)
    have harrived := hk.arrived hending f hf g.1 hn
    have hmax : g.1 < kMaxOffset := by
      have := hG.fits g hg
      have := hG.capacity_pos
      unfold kMaxOffset
      omega
    exact (hG.arrived_iff hmax).1 harrived ⟨g, hg, le_rfl, hG.separated.lt g hg⟩

theorem Linked.delivers (hk : Linked cut q k) (hread : k.receiver.ignoreReadData = false) :
    Delivers q k := by
  have ht : Told (k.outgoing q) _ := (hk.ordered q).told
  have hr := hk.receiving
  have hreceived : k.receiver.received =
      (k.outgoing q).accepted.take k.receiver.buffer.totalBytesRead :=
    (hr.received hread).trans (slice_contentOf (hr.totalBytesRead_le.trans ht.written_le))
  refine ⟨hreceived ▸ List.take_prefix _ _, fun hending hall lengths hlen => ?_, fun hfin => ?_, ?_,
    hr.ending⟩
  · obtain ⟨vectors, b, heq, -, hflat, -⟩ := hr.sound.readv lengths
    refine ⟨vectors, b, heq, ?_⟩
    have hreadable := hk.readable_eq hending hall
    have hmin : min lengths.sum k.receiver.buffer.readableBytes =
        k.receiver.buffer.readableBytes := by omega
    have happend := @slice_append (contentOf (k.outgoing q).accepted) 0
      k.receiver.buffer.totalBytesRead k.receiver.buffer.readableBytes
    rw [Nat.zero_add] at happend
    rw [hr.received hread, hflat, hmin, happend, hreadable, slice_contentOf ht.written_le]
  · obtain ⟨hbuf, hlen⟩ := hr.finRead hread hfin
    exact ⟨hbuf, by rw [hreceived, hlen, List.take_length]⟩
  · rintro ⟨f, hf, hfin⟩
    exact (hk.closing f hf hfin).2

/-- **What is read is what was written**, in every run of a session and a receiver of one of its
streams, however the data is cut into frames and whatever the network does with them. -/
theorem always_delivers (c : Config) (e : Environment) (ys : List (Streams.Op × Environment))
    (s : Session) (hs : run Session.step (Session.new c e) ys = some s)
    (hys : ∀ y ∈ ys, y.1.consumesFin = true) (q : ℕ) (hq : q < s.numStreams) (cut : ℕ → Bool)
    (evs : List Event) (hevs : ∀ ev ∈ evs, ev.Admissible) :
    Always (Link.step cut q) (fun k => k.receiver.ignoreReadData = false → Delivers q k)
      ⟨s, .new, []⟩ evs := by
  have hnew : AllOrdered (Session.new c e) :=
    fun p => AllOrdered.newStream c (if p = 0 then 1 else 3) true false
  have hsender : Always Session.step (fun t => Formed t ∧ AllOrdered t) (Session.new c e) ys := by
    refine always_of_eachStep (C := fun _ y => y.1.consumesFin = true) ?_ ⟨.new c e, hnew⟩
      (eachStep_of_forall hys)
    rintro t y u ⟨hF, hO⟩ hy hu
    exact ⟨(Grown.step (q := 0) ⟨hF, Nat.lt_of_lt_of_le Nat.two_pos hF.two_le, .refl _⟩ hu).1,
      hO.step hy hu⟩
  obtain ⟨hF, hO⟩ := hsender.last hs
  have hall : Always (Link.step cut q) (Linked cut q) ⟨s, .new, []⟩ evs :=
    always_of_eachStep (fun k ev k' hk hev hstep => hk.step hev hstep) (.new hF hO hq)
      (eachStep_of_forall hevs)
  exact hall.mono fun k hk => hk.delivers

/-- Three frames of two hand-overs arrive in the wrong order, one of them twice. -/
theorem delivers_three_frames :
    let ys : List (Streams.Op × Environment) :=
      [(.createOutgoing, ⟨1, 1⟩),
       (.write 2 [1, 2, 3] true ⟨false, 1, false, false⟩, ⟨2, 1⟩),
       (.canWrite 2 [⟨false, 2, true, false⟩], ⟨3, 1⟩)]
    let x : Reader := ⟨[.readv [1, 5], .regions 0], true⟩
    let evs : List Event :=
      [.deliver ⟨2, [3], true⟩ 7 x, .deliver ⟨0, [1], false⟩ 8 x, .deliver ⟨0, [1], false⟩ 9 x,
       .deliver ⟨1, [2], false⟩ 9 x]
    let cut : ℕ → Bool := fun o => decide (o = 2)
    ∃ s, run Session.step (Session.new (.tool .client) ⟨0, 1⟩) ys = some s ∧
      Always (Link.step cut 2) (fun k => k.receiver.ignoreReadData = false → Delivers 2 k)
        ⟨s, .new, []⟩ evs ∧
      (run (Link.step cut 2) ⟨s, .new, []⟩ evs).map (fun k =>
        (k.receiver.received, k.receiver.finRead)) = some ([1, 2, 3], true) := by
  intro ys x evs cut
  obtain ⟨s, hs⟩ : ∃ s, run Session.step (Session.new (.tool .client) ⟨0, 1⟩) ys = some s :=
    ⟨_, rfl⟩
  refine ⟨s, hs, always_delivers (.tool .client) ⟨0, 1⟩ ys s hs (by decide) 2 ?_ cut evs ?_, ?_⟩
  · obtain rfl := Option.some.inj hs
    decide +kernel
  · intro ev hev
    simp only [evs, List.mem_cons, List.not_mem_nil, or_false] at hev
    rcases hev with rfl | rfl | rfl | rfl <;> (show _ + _ < _; decide)
  · obtain rfl := Option.some.inj hs
    decide +kernel

end Reassembly
end QuicNs3
