/-
# The counters of the session

The session counts the incoming ids in three of its tables: the dynamic streams, those of
them that are draining, and the streams closed before their final offset is known.  The
counts are subtracted from each other and from the sizes of the tables, so they have to
be exact, and only dynamic streams may be marked as draining (`Counted`).

The stream code marks a stream as draining where a FIN meets one of the other direction.
A header block that was too large resets its stream and is then processed on, so that the
stream may be closed by then.  A `DCHECK` of `OnStreamFrame` ends the program in that case,
and so would that of `StreamDraining`.  In every run the counters are exact
(`always_exact_counts`).
-/

import QuicNs3.Streams.Life

namespace QuicNs3
namespace Streams

open Lib

variable {N M : Finset ℕ} {K : ℕ → Prop} {c : Config} {t : Tables} {connected : Bool}
  {s : Session} {p id x : ℕ}

/-- **The counters are exact.** -/
structure Counted (c : Config) (t : Tables) : Prop where
  dynamic : t.numDynamicIncomingStreams = t.dynamicIds.countP t.isIncomingStream
  draining : t.numDrainingIncomingStreams =
    (t.drainingStreams.filter fun id => t.isIncomingStream id = true).card
  locallyClosed : t.numLocallyClosedIncomingStreams =
    t.locallyClosedIds.countP t.isIncomingStream
  draining_mem : ∀ id ∈ t.drainingStreams, id ∈ t.dynamicIds
  nodup : t.locallyClosedIds.Nodup
  disjoint : ∀ id ∈ t.locallyClosedIds, id ∉ t.dynamicIds
  created : ∀ id ∈ t.locallyClosedIds, id % 2 = c.initialLargestPeerStreamId % 2 →
    id ∈ t.created
  lt : ∀ id ∈ t.locallyClosedIds, id % 2 ≠ c.initialLargestPeerStreamId % 2 →
    id < t.nextOutgoingStreamId

/-! ## Counting -/

/-- A key that leaves a table is counted out. -/
theorem countP_keys_without {V : Type} {l : List (ℕ × V)} {f : ℕ → Bool}
    (h : (l.map Prod.fst).Nodup) (hx : x ∈ l.map Prod.fst) :
    ((without x l).map Prod.fst).countP f =
      if f x then decrement ((l.map Prod.fst).countP f) else (l.map Prod.fst).countP f := by
  obtain ⟨⟨y, v⟩, he, rfl⟩ := List.mem_map.1 hx
  have hperm := ((perm_cons_without h he).map Prod.fst).countP_eq f
  rw [List.map_cons, List.countP_cons] at hperm
  split_ifs with hf
  · rw [hperm, if_pos hf, decrement, if_neg (Nat.succ_ne_zero _), Nat.add_sub_cancel]
  · rw [hperm, if_neg hf, Nat.add_zero]

/-- An id that leaves a set is counted out if it was there. -/
theorem card_filter_erase {d : Finset ℕ} {f : ℕ → Bool} :
    ((d.erase x).filter fun y => f y = true).card =
      if x ∈ d ∧ f x = true then decrement (d.filter fun y => f y = true).card
      else (d.filter fun y => f y = true).card := by
  rw [Finset.filter_erase]
  by_cases hx : x ∈ d ∧ f x = true
  · have hmem : x ∈ d.filter fun y => f y = true := Finset.mem_filter.2 hx
    rw [if_pos hx, Finset.card_erase_of_mem hmem, decrement,
      if_neg (Finset.card_pos.2 ⟨x, hmem⟩).ne']
  · rw [if_neg hx, Finset.erase_eq_of_notMem fun hmem => hx (Finset.mem_filter.1 hmem)]

namespace Counted

/-- A stream is closed. -/
theorem closeStream {o : Option ℕ} (h : Counted c t) (hL : Lived N K c t connected)
    (hnd : t.dynamicIds.Nodup) (hx : x ∈ t.dynamicIds) : Counted c (t.closeStream x o) := by
  have hlc : x ∉ t.locallyClosedIds := fun hx' => h.disjoint x hx' hx
  -- What happens to the maps of dynamic and draining streams is the same in both cases.
  have hdyn : ∀ y ∈ t.locallyClosedIds, y ∉ (without x t.dynamicStreams).map Prod.fst :=
    fun y hy hy' => h.disjoint y hy (mem_keys_without.1 hy').1
  have hdrain : ∀ y ∈ t.drainingStreams.erase x, y ∈ (without x t.dynamicStreams).map Prod.fst := by
    intro y hy
    obtain ⟨hne, hy⟩ := Finset.mem_erase.1 hy
    exact mem_keys_without.2 ⟨h.draining_mem y hy, hne⟩
  have hcount : (if t.isIncomingStream x then decrement t.numDynamicIncomingStreams
      else t.numDynamicIncomingStreams) =
      ((without x t.dynamicStreams).map Prod.fst).countP t.isIncomingStream := by
    rw [countP_keys_without hnd hx, h.dynamic]
    rfl
  have hcount' : (if x ∈ t.drainingStreams ∧ t.isIncomingStream x then
      decrement t.numDrainingIncomingStreams else t.numDrainingIncomingStreams) =
      ((t.drainingStreams.erase x).filter fun id => t.isIncomingStream id = true).card := by
    rw [card_filter_erase, h.draining]
  cases o with
  | none =>
    exact ⟨hcount, hcount', h.locallyClosed, hdrain, h.nodup, hdyn, h.created, h.lt⟩
  | some offset =>
    have hids : (t.closeStream x (some offset)).locallyClosedIds = t.locallyClosedIds ++ [x] := by
      show (without x t.locallyClosedStreams ++ [(x, offset)]).map Prod.fst = _
      rw [without_eq_self hlc, List.map_append]
      rfl
    have hmem : ∀ y, y ∈ (t.closeStream x (some offset)).locallyClosedIds ↔
        y ∈ t.locallyClosedIds ∨ y = x := by
      intro y
      rw [hids, List.mem_append, List.mem_singleton]
    refine ⟨hcount, hcount', ?_, hdrain, ?_, fun y hy => ?_, fun y hy hp => ?_, fun y hy hp => ?_⟩
    · show (if t.isIncomingStream x then t.numLocallyClosedIncomingStreams + 1
        else t.numLocallyClosedIncomingStreams) = List.countP t.isIncomingStream _
      rw [hids, List.countP_append, List.countP_singleton, h.locallyClosed]
      split_ifs <;> rfl
    · rw [hids]
      exact List.nodup_append.2 ⟨h.nodup, List.nodup_singleton x,
        fun y hy z hz hyz => hlc (List.mem_singleton.1 hz ▸ hyz ▸ hy)⟩
    · rcases (hmem y).1 hy with hy | rfl
      · exact hdyn y hy
      · exact not_mem_keys_without
    · rcases (hmem y).1 hy with hy | rfl
      · exact h.created y hy hp
      · exact hL.dynamic_created y hx hp
    · rcases (hmem y).1 hy with hy | rfl
      · exact h.lt y hy hp
      · exact hL.dynamic_lt y hx hp

/-- A dynamic stream is marked as draining. -/
theorem streamDraining (h : Counted c t) (hx : x ∈ t.dynamicIds) :
    Counted c (t.streamDraining x) := by
  unfold Tables.streamDraining
  by_cases hd : x ∈ t.drainingStreams
  · rw [if_pos hd]
    exact h
  · rw [if_neg hd]
    refine ⟨h.dynamic, ?_, h.locallyClosed, fun y hy => ?_, h.nodup, h.disjoint, h.created, h.lt⟩
    · show (if t.isIncomingStream x then t.numDrainingIncomingStreams + 1
        else t.numDrainingIncomingStreams) =
        ((insert x t.drainingStreams).filter fun id => t.isIncomingStream id = true).card
      rw [Finset.filter_insert, h.draining]
      split_ifs with hi
      · rw [Finset.card_insert_of_notMem fun hm => hd (Finset.mem_filter.1 hm).1]
      · rfl
    · rcases Finset.mem_insert.1 hy with rfl | hy
      · exact hx
      · exact h.draining_mem y hy

/-- A stream is made for an id that is new. -/
theorem activateStream (h : Counted c t) (hx : x ∉ t.dynamicIds) (hlc : x ∉ t.locallyClosedIds) :
    Counted c (t.activateStream x p) := by
  have hids : (t.activateStream x p).dynamicIds = t.dynamicIds ++ [x] := by
    show (without x t.dynamicStreams ++ [(x, p)]).map Prod.fst = _
    rw [without_eq_self hx, List.map_append]
    rfl
  refine ⟨?_, h.draining, h.locallyClosed, fun y hy => ?_, h.nodup, fun y hy hy' => ?_, h.created,
    h.lt⟩
  · show (if t.isIncomingStream x then t.numDynamicIncomingStreams + 1
      else t.numDynamicIncomingStreams) = List.countP t.isIncomingStream _
    rw [hids, List.countP_append, List.countP_singleton, h.dynamic]
    split_ifs <;> rfl
  · rw [hids]
    exact List.mem_append_left _ (h.draining_mem y hy)
  · rw [hids, List.mem_append, List.mem_singleton] at hy'
    rcases hy' with hy' | rfl
    · exact h.disjoint y hy hy'
    · exact hlc hy

/-- The final offset of a locally closed stream is received. -/
theorem eraseLocallyClosed (h : Counted c t) (hx : x ∈ t.locallyClosedIds) :
    Counted c (t.eraseLocallyClosed x) := by
  have hmem : ∀ y ∈ (t.eraseLocallyClosed x).locallyClosedIds, y ∈ t.locallyClosedIds :=
    fun y hy => (mem_keys_without.1 hy).1
  refine ⟨h.dynamic, h.draining, ?_, h.draining_mem, nodup_keys_without h.nodup,
    fun y hy => h.disjoint y (hmem y hy), fun y hy => h.created y (hmem y hy),
    fun y hy => h.lt y (hmem y hy)⟩
  show (if t.isIncomingStream x then decrement t.numLocallyClosedIncomingStreams
    else t.numLocallyClosedIncomingStreams) =
    ((without x t.locallyClosedStreams).map Prod.fst).countP t.isIncomingStream
  rw [countP_keys_without h.nodup hx, h.locallyClosed]
  rfl

end Counted

/-! ## The session -/

/-- The invariant of the session. -/
structure Tracked (c : Config) (N : Finset ℕ) (K : ℕ → Prop) (M : Finset ℕ) (s : Session) :
    Prop where
  formed : Formed s
  livedIn : LivedIn c N K M s
  counted : Counted c s.tables

/-- A stream that is found under its id is in the map. -/
theorem Formed.mem_of_findDynamic (h : Formed s) (hp : s.findDynamic id = some p) :
    (id, p) ∈ s.tables.dynamicStreams :=
  (valueAt_eq_some_iff h.nodup).1 hp

theorem Tracked.close {b : Bool} (h : Tracked c N K M s) :
    Tracked c N K M (s.closeStreamInner id b) := by
  refine ⟨indifferent_formed.close h.formed, indifferent_livedIn.close h.livedIn, ?_⟩
  cases hq : s.findDynamic id with
  | none =>
    unfold Session.closeStreamInner
    rw [hq]
    exact h.counted
  | some q =>
    obtain ⟨g, r, failed, o, heq, -, -⟩ := closeStreamInner_received (b := b) hq
    rw [heq]
    exact h.counted.closeStream h.livedIn.lived h.formed.nodup
      (List.mem_map.2 ⟨_, h.formed.mem_of_findDynamic hq, rfl⟩)

theorem indifferent_tracked : Indifferent (Tracked c N K M) where
  change := fun h hg => ⟨indifferent_formed.change h.formed hg,
    indifferent_livedIn.change h.livedIn hg, h.counted⟩
  close := fun h => h.close
  disconnect := fun h => ⟨indifferent_formed.disconnect h.formed,
    indifferent_livedIn.disconnect h.livedIn, h.counted⟩
  drain := fun h hid => ⟨indifferent_formed.drain h.formed hid,
    indifferent_livedIn.drain h.livedIn hid, h.counted.streamDraining hid⟩

theorem unwritten_tracked : Unwritten (fun _ => True) (Tracked c N K M) where
  toRules := indifferent_tracked.rules
  outgoing := fun h hf => ⟨unwritten_formed.outgoing h.formed hf,
    unwritten_livedIn.outgoing h.livedIn hf, h.counted⟩
  finSent := fun h hs => ⟨unwritten_formed.finSent h.formed hs,
    unwritten_livedIn.finSent h.livedIn hs, h.counted⟩
  sending := fun h => ⟨unwritten_formed.sending h.formed, unwritten_livedIn.sending h.livedIn,
    h.counted⟩
  drain := fun h hid => indifferent_tracked.drain h hid

/-! ## Making streams -/

/-- Taking an id changes nothing that is counted. -/
theorem Counted.admitPeer (h : Counted c t) : Counted c (t.admitPeer x) := by
  unfold Tables.admitPeer
  split_ifs
  · exact ⟨h.dynamic, h.draining, h.locallyClosed, h.draining_mem, h.nodup, h.disjoint, h.created,
      h.lt⟩
  · exact ⟨h.dynamic, h.draining, h.locallyClosed, h.draining_mem, h.nodup, h.disjoint, h.created,
      h.lt⟩

theorem Counted.note (h : Counted c t) : Counted c { t with created := x :: t.created } :=
  ⟨h.dynamic, h.draining, h.locallyClosed, h.draining_mem, h.nodup, h.disjoint,
    fun y hy hp => List.mem_cons_of_mem _ (h.created y hy hp), h.lt⟩

theorem Tracked.getOrCreateDynamicStream (h : Tracked c N K M s) (hc : s.connected = true) :
    Tracked c (insert id N) K M (s.getOrCreateDynamicStream id).2 := by
  have hF : Formed (s.getOrCreateDynamicStream id).2 := h.formed.getOrCreateDynamicStream
  have hL : LivedIn c (insert id N) K M (s.getOrCreateDynamicStream id).2 :=
    h.livedIn.getOrCreateDynamicStream hc
  have hadm := s.admission id
  generalize s.getOrCreateDynamicStream id = r at hadm hF hL ⊢
  cases hadm with
  | failed hid => exact ⟨hF, hL, h.counted⟩
  | known p hp => exact ⟨hF, hL, h.counted⟩
  | closed hf hcl => exact ⟨hF, hL, h.counted⟩
  | foreign hf hi => exact ⟨hF, hL, (indifferent_tracked.closeConnection h).counted⟩
  | tooFar hn hlt =>
    refine (indifferent_tracked.rules (A := fun _ => True)).closeConnection_of_disconnected hc ?_
    refine ⟨indifferent_formed.disconnect (h.formed.withTables rfl), ?_, ?_⟩
    · exact ⟨h.livedIn.lived.disconnect.take fun h => absurd h (by decide), h.livedIn.named,
        h.livedIn.config⟩
    · exact ⟨h.counted.dynamic, h.counted.draining, h.counted.locallyClosed,
        h.counted.draining_mem, h.counted.nodup, h.counted.disjoint, h.counted.created,
        h.counted.lt⟩
  | refused hn hfit hmax => exact ⟨hF, hL, h.counted.admitPeer⟩
  | ignored hn hfit hg => exact ⟨hF, hL, h.counted.admitPeer.note⟩
  | wrongParity hn hfit =>
    refine indifferent_tracked.closeConnection
      ⟨(h.formed.admitId).withTables rfl, (h.livedIn.of_fresh hc hn hfit).2.1,
        h.counted.admitPeer.note⟩
  | made hn hfit hc' w =>
    have hdyn : id ∉ s.tables.dynamicIds := valueAt_eq_none_iff.1 hn.find
    have hdyn' : id ∉ ((s.admitId id).noteCreated id).tables.dynamicIds := by
      show id ∉ (s.tables.admitPeer id).dynamicStreams.map Prod.fst
      rwa [Tables.dynamicStreams_admitPeer]
    refine ⟨hF, hL, h.counted.admitPeer.note.activateStream hdyn' ?_⟩
    show id ∉ (s.tables.admitPeer id).locallyClosedStreams.map Prod.fst
    rw [Tables.locallyClosedStreams_admitPeer]
    intro hlc
    have hin := h.livedIn.lived.isIncomingStream_iff.1 hn.incoming
    exact (h.livedIn.lived.of_fresh hn).2 (h.counted.created id hlc hin)

theorem Counted.advance (h : Counted c t) :
    Counted c { t with nextOutgoingStreamId := t.nextOutgoingStreamId + 2 } := by
  have hin : ({ t with nextOutgoingStreamId := t.nextOutgoingStreamId + 2 } :
      Tables).isIncomingStream = t.isIncomingStream := by
    funext y
    simp [Tables.isIncomingStream]
  refine ⟨?_, ?_, ?_, h.draining_mem, h.nodup, h.disjoint, h.created,
    fun y hy hp => (h.lt y hy hp).trans (by simp)⟩
  · rw [hin]
    exact h.dynamic
  · rw [hin]
    exact h.draining
  · rw [hin]
    exact h.locallyClosed

theorem Tracked.createOutgoingDynamicStream (h : Tracked c N K M s) :
    Tracked c N K M s.createOutgoingDynamicStream := by
  have hF := h.formed.createOutgoingDynamicStream
  have hL := h.livedIn.createOutgoingDynamicStream
  unfold Session.createOutgoingDynamicStream at hF hL ⊢
  split_ifs at hF hL ⊢
  · have hparity := h.livedIn.lived.next_parity
    have hdyn : s.tables.nextOutgoingStreamId ∉ s.tables.dynamicIds := fun hm =>
      absurd (h.livedIn.lived.dynamic_lt _ hm hparity) (lt_irrefl _)
    have hlc : s.tables.nextOutgoingStreamId ∉ s.tables.locallyClosedIds := fun hm =>
      absurd (h.counted.lt _ hm hparity) (lt_irrefl _)
    exact ⟨hF, hL, h.counted.advance.activateStream hdyn hlc⟩
  · exact h

theorem Tracked.onFinalByteOffsetReceived {n : ℕ} (h : Tracked c N K M s) :
    Tracked c N K M (s.onFinalByteOffsetReceived id n) := by
  unfold Session.onFinalByteOffsetReceived
  cases hv : valueAt id s.tables.locallyClosedStreams with
  | none => exact h
  | some recorded =>
    have hmem : id ∈ s.tables.locallyClosedIds := by
      by_contra hx
      exact absurd (hv.symm.trans (valueAt_eq_none_iff.2 hx)) (by simp)
    have herase : Tracked c N K M { s with tables := s.tables.eraseLocallyClosed id } :=
      ⟨h.formed.withTables rfl,
        ⟨h.livedIn.lived.shrink (fun _ hx => hx) rfl rfl rfl rfl, h.livedIn.named,
          h.livedIn.config⟩,
        h.counted.eraseLocallyClosed hmem⟩
    dsimp only
    split_ifs
    · exact indifferent_tracked.closeConnection
        (indifferent_tracked.change (b := s.aborted) h fun q => Similar.refl _)
    · exact indifferent_tracked.change herase fun q => Similar.refl _

theorem framed_tracked : Framed (fun _ => True) (Tracked c N K M) where
  toIndifferent := indifferent_tracked
  final := fun h => h.onFinalByteOffsetReceived
  windowUpdate := fun h _ _ => unwritten_tracked.streamOnWindowUpdateFrame (fun h => h.formed) h
  sessionWindow := fun {s _} h => unwritten_tracked.sending (b := s.sentTooMuch) h
  goaway := fun h => ⟨h.formed.goaway, ⟨h.livedIn.lived, h.livedIn.named, h.livedIn.config⟩,
    h.counted⟩

/-! ## Runs -/

/-- The state of a session between two steps. -/
def Steady (c : Config) (s : Session) : Prop :=
  Tracked c s.tables.named (fun _ => False) s.tables.named s

theorem Steady.new (c : Config) (e : Environment) : Steady c (Session.new c e) := by
  refine ⟨(Alive.new c e).1, (Alive.new c e).2, ?_⟩
  exact ⟨rfl, rfl, rfl, fun x hx => absurd hx (Finset.notMem_empty x), List.nodup_nil,
    fun x hx => absurd hx List.not_mem_nil, fun x hx => absurd hx List.not_mem_nil,
    fun x hx => absurd hx List.not_mem_nil⟩

theorem Tracked.arrive {op : Op} {e : Environment} (h : Tracked c N K s.tables.named s)
    (hM : (s.arrive op e).tables.named = M) : Tracked c N K M (s.arrive op e) :=
  ⟨h.formed.arrive, h.livedIn.arrive hM,
    ⟨h.counted.dynamic, h.counted.draining, h.counted.locallyClosed, h.counted.draining_mem,
      h.counted.nodup, h.counted.disjoint, h.counted.created, h.counted.lt⟩⟩

/-- **One step.** -/
theorem Steady.step {op : Op} {e : Environment} {t : Session} (h : Steady c s)
    (ht : s.step (op, e) = some t) : Steady c t := by
  obtain ⟨hconn, ht⟩ := Session.step_eq_some ht
  have hfinish : ∀ M, Tracked c M (fun _ => False) M t → Steady c t := by
    intro M h
    obtain rfl := h.livedIn.named
    exact h
  by_cases hop : op.isFrame = true
  swap
  · have hop' := Bool.eq_false_iff.2 hop
    have hM : (s.arrive op e).tables.named = s.tables.named := by
      simp [Session.arrive, Op.names_of_not_isFrame hop']
    exact hfinish s.tables.named (unwritten_tracked.local_step (fun h => h.formed)
      (fun h => h.createOutgoingDynamicStream) hop' (fun _ _ _ => trivial) (h.arrive hM) ht)
  cases hnames : op.names with
  | none =>
    have hM : (s.arrive op e).tables.named = s.tables.named := by simp [Session.arrive, hnames]
    refine hfinish s.tables.named (framed_tracked.step ?_ ?_ ?_ (fun _ _ _ _ => trivial) hop ht)
    · exact fun _ => h.arrive hM
    · exact fun id hid => absurd (hnames.symm.trans hid) (by simp)
    · exact fun id hid => absurd (hnames.symm.trans hid) (by simp)
  | some id =>
    have hM : (s.arrive op e).tables.named = insert id s.tables.named := by
      simp [Session.arrive, hnames]
    have h' := h.arrive hM
    refine hfinish (insert id s.tables.named)
      (framed_tracked.step ?_ ?_ ?_ (fun _ _ _ _ => trivial) hop ht)
    · rintro rfl
      exact absurd hnames (by simp [Op.names])
    · intro id' hid' hstay
      obtain rfl := Option.some.inj (hnames.symm.trans hid')
      exact ⟨h'.formed, ⟨h'.livedIn.lived.stay hstay, h'.livedIn.named, h'.livedIn.config⟩,
        h'.counted⟩
    · intro id' hid'
      obtain rfl := Option.some.inj (hnames.symm.trans hid')
      exact h'.getOrCreateDynamicStream (hconn hop)

/-- **The counters are exact**, and no difference that is taken of them is negative. -/
structure ExactCounts (t : Tables) : Prop where
  dynamic : t.numDynamicIncomingStreams = t.dynamicIds.countP t.isIncomingStream
  draining : t.numDrainingIncomingStreams =
    (t.drainingStreams.filter fun id => t.isIncomingStream id = true).card
  locallyClosed : t.numLocallyClosedIncomingStreams =
    t.locallyClosedIds.countP t.isIncomingStream
  draining_mem : ∀ id ∈ t.drainingStreams, id ∈ t.dynamicIds
  /-- `GetNumOpenIncomingStreams`, with what it subtracts on the other side. -/
  openIncoming : t.dynamicStreams.length + t.locallyClosedStreams.length < 2 ^ 64 →
    t.getNumOpenIncomingStreams + t.numDrainingIncomingStreams =
      t.numDynamicIncomingStreams + t.numLocallyClosedIncomingStreams
  openOutgoing : t.dynamicStreams.length + t.locallyClosedStreams.length < 2 ^ 64 →
    t.getNumOpenOutgoingStreams + t.drainingStreams.card + t.numDynamicIncomingStreams +
        t.numLocallyClosedIncomingStreams =
      t.dynamicStreams.length + t.locallyClosedStreams.length + t.numDrainingIncomingStreams
  active : t.dynamicStreams.length + t.locallyClosedStreams.length < 2 ^ 64 →
    t.getNumActiveStreams + t.drainingStreams.card = t.dynamicStreams.length

/-- The draining streams among some are no more than those. -/
theorem card_filter_le_countP {l : List ℕ} {d : Finset ℕ} {f : ℕ → Bool}
    (hd : ∀ y ∈ d, y ∈ l) : (d.filter fun y => f y = true).card ≤ l.countP f := by
  have hsub : d.filter (fun y => f y = true) ⊆ (l.filter f).toFinset := by
    intro y hy
    obtain ⟨hy, hf⟩ := Finset.mem_filter.1 hy
    exact List.mem_toFinset.2 (List.mem_filter.2 ⟨hd y hy, hf⟩)
  calc (d.filter fun y => f y = true).card ≤ (l.filter f).toFinset.card :=
        Finset.card_le_card hsub
    _ ≤ (l.filter f).length := List.toFinset_card_le _
    _ = l.countP f := List.countP_eq_length_filter.symm

/-- **Exact counters do not underflow.** -/
theorem Counted.exactCounts (h : Counted c t) : ExactCounts t := by
  have hids : t.dynamicIds.length = t.dynamicStreams.length := List.length_map _
  have hlcids : t.locallyClosedIds.length = t.locallyClosedStreams.length := List.length_map _
  have hlc : t.locallyClosedIds.countP t.isIncomingStream ≤ t.locallyClosedIds.length :=
    List.countP_le_length
  -- The ids of each side, in the maps of dynamic and of draining streams.
  have hlen : t.dynamicIds.length = t.dynamicIds.countP t.isIncomingStream +
      t.dynamicIds.countP fun y => !t.isIncomingStream y := by
    rw [List.length_eq_countP_add_countP t.isIncomingStream]
    simp
  have hcard : (t.drainingStreams.filter fun y => t.isIncomingStream y = true).card +
      (t.drainingStreams.filter fun y => (!t.isIncomingStream y) = true).card =
      t.drainingStreams.card := by
    rw [← Finset.card_filter_add_card_filter_not (s := t.drainingStreams)
      (fun y => t.isIncomingStream y = true)]
    simp
  have hin := card_filter_le_countP (f := t.isIncomingStream) h.draining_mem
  have hout := card_filter_le_countP (f := fun y => !t.isIncomingStream y) h.draining_mem
  refine ⟨h.dynamic, h.draining, h.locallyClosed, h.draining_mem, fun hlt => ?_, fun hlt => ?_,
    fun hlt => ?_⟩
  · unfold Tables.getNumOpenIncomingStreams
    rw [h.dynamic, h.draining, h.locallyClosed, wrapSub_eq hin (by omega), wrapAdd_eq (by omega)]
    omega
  · unfold Tables.getNumOpenOutgoingStreams
    rw [h.dynamic, h.draining, h.locallyClosed]
    have h₁ : wrapSub t.dynamicStreams.length (t.dynamicIds.countP t.isIncomingStream) = _ :=
      wrapSub_eq (by omega) (by omega)
    have h₂ : wrapSub t.locallyClosedStreams.length
        (t.locallyClosedIds.countP t.isIncomingStream) = _ := wrapSub_eq (by omega) (by omega)
    have h₃ : wrapSub t.drainingStreams.card
        (t.drainingStreams.filter fun y => t.isIncomingStream y = true).card = _ :=
      wrapSub_eq (by omega) (by omega)
    rw [h₁, h₂, h₃, wrapAdd_eq (by omega), wrapSub_eq (by omega) (by omega)]
    omega
  · unfold Tables.getNumActiveStreams
    rw [wrapSub_eq (by omega) (by omega)]
    omega

/-- **The counters of a session are exact**, in every state of every run. -/
theorem always_exact_counts (c : Config) (e : Environment) (xs : List (Op × Environment)) :
    Always Session.step (fun s => ExactCounts s.tables) (Session.new c e) xs := by
  have hsteady : Always Session.step (Steady c) (Session.new c e) xs :=
    always_of_step (fun s x t h ht => h.step ht) (Steady.new c e)
  exact hsteady.mono fun s h => h.counted.exactCounts

/-- A stream of a server is drained by its FIN. -/
theorem exact_counts_of_draining :
    let xs : List (Op × Environment) :=
      [(.headerList 5 false [.plain] ⟨0, false⟩, ⟨1, 1⟩),
       (.write 2 [0] true ⟨false, 1, true, false⟩, ⟨2, 1⟩),
       (.streamFrame ⟨5, true, 0, 0⟩ ⟨0, false⟩, ⟨3, 1⟩)]
    Always Session.step (fun s => ExactCounts s.tables) (Session.new (.tool .server) ⟨0, 1⟩) xs ∧
      (run Session.step (Session.new (.tool .server) ⟨0, 1⟩) xs).map
        (fun s => s.tables.drainingStreams) = some {5} :=
  ⟨always_exact_counts (.tool .server) ⟨0, 1⟩ _, by decide⟩

/-- A client has sent a request with a FIN, and the header block of the response was too
large: the program ends before a stream that is closed is marked as draining. -/
example : run Session.step (Session.new (.tool .client) ⟨0, 1⟩)
    [(.createOutgoing, ⟨1, 1⟩),
     (.writeHeaders 2 [0] true ⟨false, 1, false, false⟩, ⟨2, 1⟩),
     (.headerList 5 true [] ⟨0, false⟩, ⟨3, 1⟩)] = none := by decide

end Streams
end QuicNs3
