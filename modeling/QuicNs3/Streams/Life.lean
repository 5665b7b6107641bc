/-
# A peer stream has one life

Whether a stream id of the peer is new, open or closed is not written down anywhere: it
follows from the map of dynamic streams, the set of available streams and the largest id
the peer has used.  `Lived` is the invariant that makes this work.  In every run the set
of available streams is what the peer has skipped, a stream is made once, and an id that
is closed stays closed (`always_one_life`).

A header block comes in on the headers stream and names a stream in its own header.  That
this is not a static stream is left to a `DCHECK` of `GetOrCreateDynamicStream`, which ends
the program: `IsOpenStream` finds the static streams too, so that such an id is never
closed, and a dynamic stream of that id would be made again and again.
-/

import QuicNs3.Lib.Run
import QuicNs3.Streams.Making

namespace QuicNs3
namespace Streams

open Lib

variable {N M : Finset ℕ} {K : ℕ → Prop} {c : Config} {t t' : Tables} {connected : Bool}
  {s : Session} {p id x : ℕ}

/-- The ids that the peer may make streams for. -/
def Config.IsPeerId (c : Config) (id : ℕ) : Prop :=
  c.initialLargestPeerStreamId < id ∧ id % 2 = c.initialLargestPeerStreamId % 2

instance : DecidablePred c.IsPeerId := fun _ => instDecidableAnd

/-- **What the tables say about the ids of streams**, where `N` are the ids that frames
have named and `K` are ids known to be closed. -/
structure Lived (N : Finset ℕ) (K : ℕ → Prop) (c : Config) (t : Tables) (connected : Bool) :
    Prop where
  next_parity : t.nextOutgoingStreamId % 2 ≠ c.initialLargestPeerStreamId % 2
  largest_parity : t.largestPeerCreatedStreamId % 2 = c.initialLargestPeerStreamId % 2
  le_largest : c.initialLargestPeerStreamId ≤ t.largestPeerCreatedStreamId
  largest_named : c.initialLargestPeerStreamId < t.largestPeerCreatedStreamId →
    t.largestPeerCreatedStreamId ∈ N
  named_le : connected = true → ∀ id ∈ N, id % 2 = c.initialLargestPeerStreamId % 2 →
    id ≤ t.largestPeerCreatedStreamId
  available : ∀ id, id ∈ t.availableStreams ↔
    c.IsPeerId id ∧ id < t.largestPeerCreatedStreamId ∧ id ∉ N
  card_le : connected = true →
    t.availableStreams.card ≤ c.maxOpenIncomingStreams * kMaxAvailableStreamsMultiplier
  created_nodup : t.created.Nodup
  created_spec : ∀ id ∈ t.created,
    id ∈ N ∧ c.IsPeerId id ∧ id ≤ t.largestPeerCreatedStreamId
  dynamic_created : ∀ id ∈ t.dynamicIds, id % 2 = c.initialLargestPeerStreamId % 2 →
    id ∈ t.created
  dynamic_lt : ∀ id ∈ t.dynamicIds, id % 2 ≠ c.initialLargestPeerStreamId % 2 →
    id < t.nextOutgoingStreamId
  closed : ∀ id, K id → t.isClosedStream id = true

/-! ## Ids that are closed -/

theorem isClosedStream_iff : t.isClosedStream id = true ↔
    isStaticId id = false ∧ id ∉ t.dynamicIds ∧
      (t.isIncomingStream id = false → id < t.nextOutgoingStreamId) ∧
      (t.isIncomingStream id = true →
        id ≤ t.largestPeerCreatedStreamId ∧ id ∉ t.availableStreams) := by
  unfold Tables.isClosedStream Tables.isOpenStream
  cases hs : isStaticId id <;> cases hi : t.isIncomingStream id <;> simp

namespace Lived

theorem isIncomingStream_iff (h : Lived N K c t connected) :
    t.isIncomingStream id = true ↔ id % 2 = c.initialLargestPeerStreamId % 2 := by
  have hn := h.next_parity
  simp only [Tables.isIncomingStream, decide_eq_true_eq]
  omega

/-- A closed id stays closed while the tables only move on. -/
theorem isClosedStream_mono (hx : t.isClosedStream x = true)
    (hdyn : x ∈ t'.dynamicIds → x ∈ t.dynamicIds)
    (hnext : t.nextOutgoingStreamId ≤ t'.nextOutgoingStreamId)
    (hparity : t'.nextOutgoingStreamId % 2 = t.nextOutgoingStreamId % 2)
    (hlargest : t.largestPeerCreatedStreamId ≤ t'.largestPeerCreatedStreamId)
    (havail : x ≤ t.largestPeerCreatedStreamId → x ∈ t'.availableStreams →
      x ∈ t.availableStreams) : t'.isClosedStream x = true := by
  have hin : t'.isIncomingStream x = t.isIncomingStream x := by
    unfold Tables.isIncomingStream
    rw [hparity]
  obtain ⟨hs, hd, hout, hinc⟩ := isClosedStream_iff.1 hx
  refine isClosedStream_iff.2 ⟨hs, fun hm => hd (hdyn hm), fun ho => ?_, fun hi => ?_⟩
  · exact (hout (hin ▸ ho)).trans_le hnext
  · obtain ⟨hle, hna⟩ := hinc (hin ▸ hi)
    exact ⟨hle.trans hlargest, fun hm => hna (havail hle hm)⟩

/-- Streams may leave the map of dynamic streams. -/
theorem shrink (h : Lived N K c t connected) (hdyn : ∀ x ∈ t'.dynamicIds, x ∈ t.dynamicIds)
    (hnext : t'.nextOutgoingStreamId = t.nextOutgoingStreamId)
    (hlargest : t'.largestPeerCreatedStreamId = t.largestPeerCreatedStreamId)
    (havail : t'.availableStreams = t.availableStreams) (hcreated : t'.created = t.created) :
    Lived N K c t' connected where
  next_parity := hnext ▸ h.next_parity
  largest_parity := hlargest ▸ h.largest_parity
  le_largest := hlargest ▸ h.le_largest
  largest_named := hlargest ▸ h.largest_named
  named_le := hlargest ▸ h.named_le
  available := by
    rw [havail, hlargest]
    exact h.available
  card_le := havail ▸ h.card_le
  created_nodup := hcreated ▸ h.created_nodup
  created_spec := by
    rw [hcreated, hlargest]
    exact h.created_spec
  dynamic_created := by
    rw [hcreated]
    exact fun x hx => h.dynamic_created x (hdyn x hx)
  dynamic_lt := by
    rw [hnext]
    exact fun x hx => h.dynamic_lt x (hdyn x hx)
  closed := fun x hK => isClosedStream_mono (h.closed x hK) (hdyn x) hnext.ge (by rw [hnext])
    hlargest.ge fun _ => by rw [havail]; exact id

theorem disconnect (h : Lived N K c t connected) : Lived N K c t false :=
  { h with
    named_le := fun hc => absurd hc (by decide)
    card_le := fun hc => absurd hc (by decide) }

/-- A frame names an id that is not available. -/
theorem name (h : Lived N K c t connected) (hx : x ∉ t.availableStreams)
    (hle : x % 2 = c.initialLargestPeerStreamId % 2 → x ≤ t.largestPeerCreatedStreamId) :
    Lived (insert x N) K c t connected where
  next_parity := h.next_parity
  largest_parity := h.largest_parity
  le_largest := h.le_largest
  largest_named := fun hlt => Finset.mem_insert_of_mem (h.largest_named hlt)
  named_le := by
    intro hc y hy hp
    rcases Finset.mem_insert.1 hy with rfl | hy
    · exact hle hp
    · exact h.named_le hc y hy hp
  available := by
    intro y
    rw [h.available, Finset.mem_insert, not_or]
    constructor
    · rintro ⟨hp, hlt, hN⟩
      refine ⟨hp, hlt, ?_, hN⟩
      rintro rfl
      exact hx ((h.available y).2 ⟨hp, hlt, hN⟩)
    · rintro ⟨hp, hlt, -, hN⟩
      exact ⟨hp, hlt, hN⟩
  card_le := h.card_le
  created_nodup := h.created_nodup
  created_spec := fun y hy => ⟨Finset.mem_insert_of_mem (h.created_spec y hy).1,
    (h.created_spec y hy).2⟩
  dynamic_created := h.dynamic_created
  dynamic_lt := h.dynamic_lt
  closed := h.closed

end Lived

/-- The invariant of a session set up with `c`, with the ids `M` that frames are noted to
have named. -/
structure LivedIn (c : Config) (N : Finset ℕ) (K : ℕ → Prop) (M : Finset ℕ) (s : Session) :
    Prop where
  lived : Lived N K c s.tables s.connected
  named : s.tables.named = M
  config : s.config = c

theorem indifferent_livedIn : Indifferent (LivedIn c N K M) where
  change := fun h _ => ⟨h.lived, h.named, h.config⟩
  close := by
    intro s id b h
    cases hp : s.findDynamic id with
    | none =>
      unfold Session.closeStreamInner
      rw [hp]
      exact h
    | some p =>
      obtain ⟨g, c, failed, o, heq, -, -⟩ := closeStreamInner_received (b := b) hp
      rw [heq]
      refine ⟨h.lived.shrink (fun x hx => (Tables.mem_dynamicIds_closeStream.1 hx).1)
        Tables.nextOutgoingStreamId_closeStream Tables.largestPeerCreatedStreamId_closeStream
        Tables.availableStreams_closeStream Tables.created_closeStream, ?_, h.config⟩
      exact Tables.named_closeStream.trans h.named
  disconnect := fun h => ⟨h.lived.disconnect, h.named, h.config⟩
  drain := by
    intro s id h _
    unfold Tables.streamDraining
    by_cases hd : id ∈ s.tables.drainingStreams
    · rw [if_pos hd]
      exact h
    · rw [if_neg hd]
      exact ⟨h.lived.shrink (fun _ hx => hx) rfl rfl rfl rfl, h.named, h.config⟩

theorem unwritten_livedIn : Unwritten (fun _ => True) (LivedIn c N K M) where
  toRules := indifferent_livedIn.rules
  outgoing := fun h _ => ⟨h.lived, h.named, h.config⟩
  finSent := fun h _ => ⟨h.lived, h.named, h.config⟩
  sending := fun h => ⟨h.lived, h.named, h.config⟩
  drain := fun h hid => indifferent_livedIn.drain h hid

/-! ## Looking a stream up -/

/-- The static streams are not among those the peer makes. -/
theorem not_isPeerId_of_isStaticId (h : isStaticId x = true) :
    ¬ c.IsPeerId x ∧ (x % 2 = c.initialLargestPeerStreamId % 2 →
      x ≤ c.initialLargestPeerStreamId) := by
  simp only [isStaticId, Bool.or_eq_true, decide_eq_true_eq] at h
  unfold Config.IsPeerId Config.initialLargestPeerStreamId
  cases c.perspective
  · dsimp only
    omega
  · dsimp only
    omega

namespace Lived

/-- An id in the map of dynamic streams is not available. -/
theorem not_available_of_dynamic (h : Lived N K c t connected) (hx : x ∈ t.dynamicIds) :
    x ∉ t.availableStreams := by
  intro ha
  obtain ⟨hp, -, hN⟩ := (h.available x).1 ha
  exact hN (h.created_spec x (h.dynamic_created x hx hp.2)).1

/-- An id whose parity is not that of the peer is not available. -/
theorem not_available_of_parity (h : Lived N K c t connected)
    (hx : x % 2 ≠ c.initialLargestPeerStreamId % 2) : x ∉ t.availableStreams :=
  fun ha => hx ((h.available x).1 ha).1.2

theorem le_of_dynamic (h : Lived N K c t connected) (hx : x ∈ t.dynamicIds)
    (hp : x % 2 = c.initialLargestPeerStreamId % 2) : x ≤ t.largestPeerCreatedStreamId :=
  (h.created_spec x (h.dynamic_created x hx hp)).2.2

/-- **An id that is new**: it is available, or beyond the largest one. -/
theorem available_or_beyond (hs : isStaticId x = false) (hd : x ∉ t.dynamicIds)
    (hc : t.isClosedStream x = false) (hin : t.isIncomingStream x = true) :
    x ∈ t.availableStreams ∨ t.largestPeerCreatedStreamId < x := by
  by_contra hne
  rw [not_or] at hne
  have hclosed : t.isClosedStream x = true :=
    isClosedStream_iff.2 ⟨hs, hd, fun ho => absurd (ho.symm.trans hin) (by decide),
      fun _ => ⟨Nat.not_lt.1 hne.2, hne.1⟩⟩
  exact absurd (hc.symm.trans hclosed) (by decide)

theorem of_fresh (h : Lived N K c s.tables connected) (hn : Fresh s x) :
    c.IsPeerId x ∧ x ∉ s.tables.created := by
  have hdyn : x ∉ s.tables.dynamicIds := valueAt_eq_none_iff.1 hn.find
  have hnew := available_or_beyond hn.not_static hdyn hn.not_closed hn.incoming
  constructor
  · rcases hnew with ha | hlt
    · exact ((h.available x).1 ha).1
    · exact ⟨h.le_largest.trans_lt hlt, h.isIncomingStream_iff.1 hn.incoming⟩
  · intro hx
    obtain ⟨hN, -, hle⟩ := h.created_spec x hx
    rcases hnew with ha | hlt
    · exact ((h.available x).1 ha).2.2 hN
    · exact absurd hle (Nat.not_le.2 hlt)

/-- A frame names an id that no stream of the peer can have. -/
theorem stay (h : Lived N K c t connected)
    (hx : isStaticId x = true ∨ t.isIncomingStream x = false ∨ x = 0) :
    Lived (insert x N) K c t connected := by
  rcases hx with hs | hi | rfl
  · obtain ⟨hpeer, hle⟩ := not_isPeerId_of_isStaticId (c := c) hs
    exact h.name (fun ha => hpeer ((h.available x).1 ha).1) fun hp => (hle hp).trans h.le_largest
  · have hp : x % 2 ≠ c.initialLargestPeerStreamId % 2 := fun hp =>
      absurd (hi.symm.trans (h.isIncomingStream_iff.2 hp)) (by decide)
    exact h.name (h.not_available_of_parity hp) fun hp' => absurd hp' hp
  · exact h.name (fun ha => Nat.not_lt_zero _ ((h.available 0).1 ha).1.1) fun _ => Nat.zero_le _

/-- A frame takes an available id. -/
theorem take (h : Lived N K c t connected)
    (hle : connected = true → x ≤ t.largestPeerCreatedStreamId) :
    Lived (insert x N) K c (t.take x) connected where
  next_parity := h.next_parity
  largest_parity := h.largest_parity
  le_largest := h.le_largest
  largest_named := fun hlt => Finset.mem_insert_of_mem (h.largest_named hlt)
  named_le := by
    intro hc y hy hp
    rcases Finset.mem_insert.1 hy with rfl | hy
    · exact hle hc
    · exact h.named_le hc y hy hp
  available := by
    intro y
    show y ∈ t.availableStreams.erase x ↔ _ ∧ y < t.largestPeerCreatedStreamId ∧ _
    rw [Finset.mem_erase, h.available, Finset.mem_insert, not_or]
    tauto
  card_le := fun hc => (Finset.card_le_card (Finset.erase_subset ..)).trans (h.card_le hc)
  created_nodup := h.created_nodup
  created_spec := fun y hy => ⟨Finset.mem_insert_of_mem (h.created_spec y hy).1,
    (h.created_spec y hy).2⟩
  dynamic_created := h.dynamic_created
  dynamic_lt := h.dynamic_lt
  closed := fun y hK => isClosedStream_mono (h.closed y hK) (fun hy => hy) le_rfl rfl le_rfl
    fun _ hy => (Finset.mem_erase.1 hy).2

theorem mem_skipped {l : ℕ} (hp : x % 2 = l % 2) (hlt : l < x) {y : ℕ} :
    y ∈ (Finset.range ((x - l) / 2 - 1)).image (fun i => l + 2 + 2 * i) ↔
      l < y ∧ y < x ∧ y % 2 = l % 2 := by
  rw [Finset.mem_image]
  constructor
  · rintro ⟨i, hi, rfl⟩
    have := Finset.mem_range.1 hi
    omega
  · rintro ⟨hl, hx, hy⟩
    exact ⟨(y - l - 2) / 2, Finset.mem_range.2 (by omega), by omega⟩

/-- **A frame names an id beyond the largest one**: those skipped become available. -/
theorem skip (h : Lived N K c t true) (hlt : t.largestPeerCreatedStreamId < x)
    (hp : x % 2 = c.initialLargestPeerStreamId % 2)
    (hcard : (t.availableStreams.erase x).card +
      ((x - t.largestPeerCreatedStreamId) / 2 - 1) ≤
        c.maxOpenIncomingStreams * kMaxAvailableStreamsMultiplier) :
    Lived (insert x N) K c ((t.take x).skipTo x) true where
  next_parity := h.next_parity
  largest_parity := hp
  le_largest := h.le_largest.trans hlt.le
  largest_named := fun _ => Finset.mem_insert_self ..
  named_le := by
    intro _ y hy hyp
    rcases Finset.mem_insert.1 hy with rfl | hy
    · exact le_rfl
    · exact (h.named_le rfl y hy hyp).trans hlt.le
  available := by
    intro y
    have hl := h.largest_parity
    show y ∈ t.availableStreams.erase x ∪
      (Finset.range ((x - t.largestPeerCreatedStreamId) / 2 - 1)).image
        (fun i => t.largestPeerCreatedStreamId + 2 + 2 * i) ↔
      c.IsPeerId y ∧ y < x ∧ y ∉ insert x N
    rw [Finset.mem_union, mem_skipped (by rw [hp, hl]) hlt, Finset.mem_erase, h.available,
      Finset.mem_insert, not_or]
    constructor
    · rintro (⟨hne, hpy, hy, hN⟩ | ⟨hly, hyx, hyp⟩)
      · exact ⟨hpy, hy.trans hlt, hne, hN⟩
      · refine ⟨⟨h.le_largest.trans_lt hly, hyp.trans hl⟩, hyx, hyx.ne, fun hN => ?_⟩
        exact absurd (h.named_le rfl y hN (hyp.trans hl)) (Nat.not_le.2 hly)
    · rintro ⟨hpy, hyx, hne, hN⟩
      rcases lt_trichotomy y t.largestPeerCreatedStreamId with hy | rfl | hy
      · exact .inl ⟨hne, hpy, hy, hN⟩
      · exact absurd (h.largest_named hpy.1) hN
      · exact .inr ⟨hy, hyx, hpy.2.trans hl.symm⟩
  card_le := by
    intro _
    refine le_trans ((Finset.card_union_le _ _).trans (Nat.add_le_add_left ?_ _)) hcard
    refine Finset.card_image_le.trans ?_
    rw [Finset.card_range]
    exact le_rfl
  created_nodup := h.created_nodup
  created_spec := by
    intro y hy
    obtain ⟨hN, hpy, hle⟩ := h.created_spec y hy
    exact ⟨Finset.mem_insert_of_mem hN, hpy, hle.trans hlt.le⟩
  dynamic_created := h.dynamic_created
  dynamic_lt := h.dynamic_lt
  closed := by
    intro y hK
    refine isClosedStream_mono (h.closed y hK) (fun hy => hy) le_rfl rfl hlt.le fun hle hy => ?_
    rcases Finset.mem_union.1 hy with hy | hy
    · exact (Finset.mem_erase.1 hy).2
    · have hy' := (mem_skipped (by rw [hp, h.largest_parity]) hlt).1 hy
      exact absurd hle (Nat.not_le.2 hy'.1)

/-- A stream is made for an id that is noted. -/
theorem activate (h : Lived N K c t connected) (hK : ¬ K x)
    (hpeer : x % 2 = c.initialLargestPeerStreamId % 2 → x ∈ t.created)
    (hown : x % 2 ≠ c.initialLargestPeerStreamId % 2 → x < t.nextOutgoingStreamId) :
    Lived N K c (t.activateStream x p) connected where
  next_parity := h.next_parity
  largest_parity := h.largest_parity
  le_largest := h.le_largest
  largest_named := h.largest_named
  named_le := h.named_le
  available := h.available
  card_le := h.card_le
  created_nodup := h.created_nodup
  created_spec := h.created_spec
  dynamic_created := by
    intro y hy hyp
    rcases Tables.mem_dynamicIds_activateStream.1 hy with hy | rfl
    · exact h.dynamic_created y hy hyp
    · exact hpeer hyp
  dynamic_lt := by
    intro y hy hyp
    rcases Tables.mem_dynamicIds_activateStream.1 hy with hy | rfl
    · exact h.dynamic_lt y hy hyp
    · exact hown hyp
  closed := by
    intro y hKy
    refine isClosedStream_mono (h.closed y hKy) (fun hy => ?_) le_rfl rfl le_rfl fun _ hy => hy
    rcases Tables.mem_dynamicIds_activateStream.1 hy with hy | rfl
    · exact hy
    · exact absurd hKy hK

/-- `CreateIncomingDynamicStream` is called for an id that it was not called for before. -/
theorem note (h : Lived N K c t connected) (hx : x ∉ t.created) (hN : x ∈ N)
    (hp : c.IsPeerId x) (hle : x ≤ t.largestPeerCreatedStreamId) :
    Lived N K c { t with created := x :: t.created } connected where
  next_parity := h.next_parity
  largest_parity := h.largest_parity
  le_largest := h.le_largest
  largest_named := h.largest_named
  named_le := h.named_le
  available := h.available
  card_le := h.card_le
  created_nodup := List.nodup_cons.2 ⟨hx, h.created_nodup⟩
  created_spec := by
    intro y hy
    rcases List.mem_cons.1 hy with rfl | hy
    · exact ⟨hN, hp, hle⟩
    · exact h.created_spec y hy
  dynamic_created := fun y hy hyp => List.mem_cons_of_mem _ (h.dynamic_created y hy hyp)
  dynamic_lt := h.dynamic_lt
  closed := h.closed

/-- The next id for a stream of this side is taken. -/
theorem own (h : Lived N K c t connected) :
    Lived N K c (({ t with nextOutgoingStreamId := t.nextOutgoingStreamId + 2 } :
      Tables).activateStream t.nextOutgoingStreamId p) connected := by
  have hnext : Lived N K c { t with nextOutgoingStreamId := t.nextOutgoingStreamId + 2 }
      connected :=
    { h with
      next_parity := by
        show (t.nextOutgoingStreamId + 2) % 2 ≠ _
        rw [Nat.add_mod_right]
        exact h.next_parity
      dynamic_lt := fun y hy hyp => (h.dynamic_lt y hy hyp).trans (by simp)
      closed := fun y hK => isClosedStream_mono (h.closed y hK) (fun hy => hy) (by simp) (by simp)
        le_rfl fun _ hy => hy }
  refine hnext.activate (fun hK => ?_) (fun hp => absurd hp h.next_parity) fun _ => by simp
  obtain ⟨-, -, hlt, -⟩ := isClosedStream_iff.1 (h.closed _ hK)
  exact absurd (hlt (by simp [Tables.isIncomingStream])) (lt_irrefl _)

end Lived

/-- What the id of a stream that is not known yet comes to. -/
theorem LivedIn.of_fresh (h : LivedIn c N K M s) (hc : s.connected = true) (hn : Fresh s id)
    (hfit : Fits s id) :
    LivedIn c (insert id N) K M (s.admitId id) ∧
      LivedIn c (insert id N) K M ((s.admitId id).noteCreated id) ∧
      ∀ w, LivedIn c (insert id N) K M
        (((s.admitId id).noteCreated id).activateStream id w) := by
  obtain ⟨hL, hM, rfl⟩ := h
  have hp := hL.isIncomingStream_iff.1 hn.incoming
  obtain ⟨hpeer, hcreated⟩ := hL.of_fresh hn
  have hK : ¬ K id := fun hK =>
    absurd (hn.not_closed.symm.trans (hL.closed id hK)) (by decide)
  have hadmit : Lived (insert id N) K s.config (s.tables.admitPeer id) s.connected ∧
      id ≤ (s.tables.admitPeer id).largestPeerCreatedStreamId ∧
      (s.tables.admitPeer id).created = s.tables.created ∧
      (s.tables.admitPeer id).named = s.tables.named := by
    unfold Tables.admitPeer
    split_ifs with hle
    · exact ⟨hL.take fun _ => hle, hle, rfl, rfl⟩
    · rw [hc] at hL ⊢
      exact ⟨hL.skip (Nat.lt_of_not_le hle) hp (hfit (Nat.lt_of_not_le hle)), le_rfl, rfl, rfl⟩
  obtain ⟨hA, hle, hcr, hnm⟩ := hadmit
  have hnote := hA.note (x := id) (hcr ▸ hcreated) (Finset.mem_insert_self ..) hpeer hle
  refine ⟨⟨hA, hnm.trans hM, rfl⟩, ⟨hnote, hnm.trans hM, rfl⟩, fun w => ⟨?_, hnm.trans hM, rfl⟩⟩
  exact hnote.activate hK (fun _ => List.mem_cons_self ..) fun hne => absurd hp hne

/-- **Looking a stream up** for a frame that names it. -/
theorem LivedIn.getOrCreateDynamicStream (h : LivedIn c N K M s) (hc : s.connected = true) :
    LivedIn c (insert id N) K M (s.getOrCreateDynamicStream id).2 := by
  have hfresh (hn : Fresh s id) (hfit : Fits s id) := h.of_fresh hc hn hfit
  obtain ⟨hL, hM, rfl⟩ := h
  have hadm := s.admission id
  generalize s.getOrCreateDynamicStream id = r at hadm ⊢
  cases hadm with
  | failed hid =>
    exact indifferent_livedIn.abort ⟨hL.stay (hid.imp_right .inr), hM, rfl⟩
  | known p hp =>
    have hmem : id ∈ s.tables.dynamicIds := by
      by_contra hx
      exact absurd (hp.symm.trans (valueAt_eq_none_iff.2 hx)) (by simp)
    exact ⟨hL.name (hL.not_available_of_dynamic hmem) fun hp => hL.le_of_dynamic hmem hp, hM, rfl⟩
  | closed hf hcl =>
    obtain ⟨-, -, -, hinc⟩ := isClosedStream_iff.1 hcl
    refine ⟨hL.name (fun ha => ?_) fun hp => (hinc (hL.isIncomingStream_iff.2 hp)).1, hM, rfl⟩
    exact (hinc (hL.isIncomingStream_iff.2 ((hL.available id).1 ha).1.2)).2 ha
  | foreign hf hi =>
    have hp : id % 2 ≠ s.config.initialLargestPeerStreamId % 2 := fun hp =>
      absurd (hi.symm.trans (hL.isIncomingStream_iff.2 hp)) (by decide)
    exact indifferent_livedIn.closeConnection
      ⟨hL.name (hL.not_available_of_parity hp) fun h => absurd h hp, hM, rfl⟩
  | tooFar hn hlt =>
    refine (indifferent_livedIn.rules (A := fun _ => True)).closeConnection_of_disconnected hc ?_
    exact ⟨hL.disconnect.take fun h => absurd h (by decide), hM, rfl⟩
  | refused hn hfit hmax => exact (hfresh hn hfit).1
  | ignored hn hfit hg => exact (hfresh hn hfit).2.1
  | wrongParity hn hfit => exact indifferent_livedIn.closeConnection (hfresh hn hfit).2.1
  | made hn hfit hc' w => exact (hfresh hn hfit).2.2 w

theorem LivedIn.onFinalByteOffsetReceived {n : ℕ} (h : LivedIn c N K M s) :
    LivedIn c N K M (s.onFinalByteOffsetReceived id n) := by
  unfold Session.onFinalByteOffsetReceived
  cases valueAt id s.tables.locallyClosedStreams with
  | none => exact h
  | some recorded =>
    dsimp only
    split_ifs
    · exact indifferent_livedIn.closeConnection
        (indifferent_livedIn.change (b := s.aborted) h fun q => Similar.refl _)
    · exact ⟨h.lived.shrink (fun _ hx => hx) rfl rfl rfl rfl, h.named, h.config⟩

theorem LivedIn.createOutgoingDynamicStream (h : LivedIn c N K M s) :
    LivedIn c N K M s.createOutgoingDynamicStream := by
  unfold Session.createOutgoingDynamicStream
  split_ifs
  · exact ⟨h.lived.own, h.named, h.config⟩
  · exact h

theorem framed_livedIn : Framed (fun _ => True) fun s => Formed s ∧ LivedIn c N K M s where
  toIndifferent := indifferent_livedIn.ofFormed
  final := fun h => ⟨h.1.onFinalByteOffsetReceived, h.2.onFinalByteOffsetReceived⟩
  windowUpdate := fun h _ _ => unwritten_livedIn.ofFormed.streamOnWindowUpdateFrame (fun h => h.1) h
  sessionWindow := fun {s _} h => unwritten_livedIn.ofFormed.sending (b := s.sentTooMuch) h
  goaway := fun h => ⟨h.1.goaway, ⟨h.2.lived, h.2.named, h.2.config⟩⟩

/-! ## Runs -/

/-- The state of a session between two steps. -/
def Alive (c : Config) (K : ℕ → Prop) (s : Session) : Prop :=
  Formed s ∧ LivedIn c s.tables.named K s.tables.named s

theorem Alive.new (c : Config) (e : Environment) : Alive c (fun _ => False) (Session.new c e) := by
  refine ⟨Formed.new c e, ⟨?_, rfl, rfl⟩⟩
  refine ⟨?_, rfl, le_rfl, fun h => absurd h (lt_irrefl _), ?_, ?_, ?_, List.nodup_nil, ?_, ?_, ?_,
    fun _ h => h.elim⟩
  · cases hp : c.perspective <;> simp [Session.new, Config.initialLargestPeerStreamId, hp]
  · exact fun _ x hx => absurd hx (Finset.notMem_empty x)
  · intro x
    refine iff_of_false (Finset.notMem_empty x) fun h => ?_
    exact absurd (h.1.1.trans h.2.1) (lt_irrefl _)
  · exact fun _ => Nat.zero_le _
  · exact fun x hx => absurd hx List.not_mem_nil
  · exact fun x hx => absurd hx List.not_mem_nil
  · exact fun x hx => absurd hx List.not_mem_nil

theorem LivedIn.arrive {op : Op} {e : Environment} (h : LivedIn c N K s.tables.named s)
    (hM : (s.arrive op e).tables.named = M) : LivedIn c N K M (s.arrive op e) :=
  ⟨h.lived.shrink (fun _ hx => hx) rfl rfl rfl rfl, hM, h.config⟩

/-- **One step.** -/
theorem Alive.step {op : Op} {e : Environment} {t : Session} (h : Alive c K s)
    (ht : s.step (op, e) = some t) : Alive c K t := by
  obtain ⟨hF, hL⟩ := h
  obtain ⟨hconn, ht⟩ := Session.step_eq_some ht
  have hfinish : ∀ M, Formed t ∧ LivedIn c M K M t → Alive c K t := by
    rintro M ⟨hF, hL⟩
    obtain rfl := hL.named
    exact ⟨hF, hL⟩
  by_cases hop : op.isFrame = true
  swap
  · have hop' := Bool.eq_false_iff.2 hop
    have hM : (s.arrive op e).tables.named = s.tables.named := by
      simp [Session.arrive, Op.names_of_not_isFrame hop']
    exact hfinish s.tables.named (unwritten_livedIn.ofFormed.local_step (fun h => h.1)
      (fun h => ⟨h.1.createOutgoingDynamicStream, h.2.createOutgoingDynamicStream⟩) hop'
      (fun _ _ _ => trivial) ⟨hF.arrive, hL.arrive hM⟩ ht)
  cases hnames : op.names with
  | none =>
    have hM : (s.arrive op e).tables.named = s.tables.named := by simp [Session.arrive, hnames]
    refine hfinish s.tables.named (framed_livedIn.step ?_ ?_ ?_ (fun _ _ _ _ => trivial) hop ht)
    · exact fun _ => ⟨hF.arrive, hL.arrive hM⟩
    · exact fun id hid => absurd (hnames.symm.trans hid) (by simp)
    · exact fun id hid => absurd (hnames.symm.trans hid) (by simp)
  | some id =>
    have hM : (s.arrive op e).tables.named = insert id s.tables.named := by
      simp [Session.arrive, hnames]
    have hL' := hL.arrive hM
    refine hfinish (insert id s.tables.named)
      (framed_livedIn.step ?_ ?_ ?_ (fun _ _ _ _ => trivial) hop ht)
    · rintro rfl
      exact absurd hnames (by simp [Op.names])
    · intro id' hid' hstay
      obtain rfl := Option.some.inj (hnames.symm.trans hid')
      exact ⟨hF.arrive, hL'.lived.stay hstay, hL'.named, hL'.config⟩
    · intro id' hid'
      obtain rfl := Option.some.inj (hnames.symm.trans hid')
      exact ⟨hF.arrive.getOrCreateDynamicStream, hL'.getOrCreateDynamicStream (hconn hop)⟩

/-- A header block that names the headers stream ends the program. -/
example : run Session.step (Session.new (.tool .server) ⟨0, 1⟩)
    [(.headerList 3 true [.plain] ⟨0, false⟩, ⟨1, 1⟩)] = none := by decide

end Streams
end QuicNs3
