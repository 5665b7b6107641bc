/-
# Making streams

`Formed` is what every invariant of the session builds on: the map of dynamic streams has
distinct ids, and each names a stream of that id that is not static.  `ofFormed` adds it
to another invariant.

Streams are made for frames of the peer and by the application.  `Admission` lists what
`GetOrCreateDynamicStream` can come to for an id: its `DCHECK` fails, or the stream is
known, closed, not one the peer may make, too far beyond the largest id, refused, or made.
`local_step` is the step of all operations that are not frames.
-/

import QuicNs3.Streams.WriteRules

namespace QuicNs3
namespace Streams

open Lib

variable {A : Stream → Prop} {P : Session → Prop} {s : Session} {p q id : ℕ} {w : Bool}

/-! ## The map of dynamic streams -/

namespace Tables

variable {t : Tables} {id x : ℕ} {o : Option ℕ}

theorem dynamicStreams_closeStream :
    (t.closeStream id o).dynamicStreams = without id t.dynamicStreams := by
  cases o <;> rfl

theorem nextOutgoingStreamId_closeStream :
    (t.closeStream id o).nextOutgoingStreamId = t.nextOutgoingStreamId := by
  cases o <;> rfl

theorem largestPeerCreatedStreamId_closeStream :
    (t.closeStream id o).largestPeerCreatedStreamId = t.largestPeerCreatedStreamId := by
  cases o <;> rfl

theorem availableStreams_closeStream :
    (t.closeStream id o).availableStreams = t.availableStreams := by
  cases o <;> rfl

theorem created_closeStream : (t.closeStream id o).created = t.created := by
  cases o <;> rfl

theorem named_closeStream : (t.closeStream id o).named = t.named := by
  cases o <;> rfl

theorem mem_dynamicIds_closeStream :
    x ∈ (t.closeStream id o).dynamicIds ↔ x ∈ t.dynamicIds ∧ x ≠ id := by
  unfold dynamicIds
  rw [dynamicStreams_closeStream, mem_keys_without]

theorem mem_dynamicIds_activateStream :
    x ∈ (t.activateStream id p).dynamicIds ↔ x ∈ t.dynamicIds ∨ x = id := by
  show x ∈ (without id t.dynamicStreams ++ [(id, p)]).map Prod.fst ↔ x ∈ t.dynamicIds ∨ x = id
  rw [List.map_append, List.mem_append, mem_keys_without, List.map_singleton, List.mem_singleton]
  unfold dynamicIds
  rcases eq_or_ne x id with h | h
  · simp [h]
  · simp [h]

end Tables

theorem indifferent_formed : Indifferent Formed where
  change := by
    intro s g c b h hg
    refine ⟨fun q hs => ?_, h.nodup, fun e he => (hg e.2).id.trans (h.id_eq e he),
      fun e he => (hg e.2).isStatic.trans (h.isStatic e he), h.lt, h.two_le⟩
    show (g q).outgoing.finBuffered = false
    rw [(hg q).outgoing]
    exact h.noFin q ((hg q).isStatic ▸ hs)
  close := by
    intro s id b h
    cases hp : s.findDynamic id with
    | none =>
      unfold Session.closeStreamInner
      rw [hp]
      exact h
    | some p =>
      obtain ⟨g, c, failed, o, heq, hg, -⟩ := closeStreamInner_received (b := b) hp
      have hmem : ∀ e ∈ (s.tables.closeStream id o).dynamicStreams,
          e ∈ s.tables.dynamicStreams := by
        intro e he
        rw [Tables.dynamicStreams_closeStream, mem_without] at he
        exact he.1
      rw [heq]
      refine ⟨fun q hs => ?_, ?_, fun e he => (hg e.2).id.trans (h.id_eq e (hmem e he)),
        fun e he => (hg e.2).isStatic.trans (h.isStatic e (hmem e he)),
        fun e he => h.lt e (hmem e he), h.two_le⟩
      · show (g q).outgoing.finBuffered = false
        rw [(hg q).outgoing]
        exact h.noFin q ((hg q).isStatic ▸ hs)
      · show ((s.tables.closeStream id o).dynamicStreams.map Prod.fst).Nodup
        rw [Tables.dynamicStreams_closeStream]
        exact nodup_keys_without h.nodup
  disconnect := fun h => ⟨h.noFin, h.nodup, h.id_eq, h.isStatic, h.lt, h.two_le⟩
  drain := by
    intro s id h _
    unfold Tables.streamDraining
    by_cases hd : id ∈ s.tables.drainingStreams
    · rw [if_pos hd]
      exact h
    · rw [if_neg hd]
      exact ⟨h.noFin, h.nodup, h.id_eq, h.isStatic, h.lt, h.two_le⟩

theorem Formed.markFinSent (h : Formed s) :
    Formed (s.modify p fun st => { st with finSent := true }) := by
  have hself : ∀ q, let st := (s.modify p fun st => { st with finSent := true }).streams q
      st.id = (s.streams q).id ∧ st.isStatic = (s.streams q).isStatic ∧
        st.outgoing = (s.streams q).outgoing := by
    intro q
    rcases eq_or_ne q p with rfl | hne
    · rw [Session.streams_modify_self]
      exact ⟨rfl, rfl, rfl⟩
    · rw [Session.streams_modify_of_ne hne]
      exact ⟨rfl, rfl, rfl⟩
  refine ⟨fun q hs => ?_, h.nodup, fun e he => (hself e.2).1.trans (h.id_eq e he),
    fun e he => (hself e.2).2.1.trans (h.isStatic e he), h.lt, h.two_le⟩
  rw [(hself q).2.2]
  exact h.noFin q ((hself q).2.1 ▸ hs)

theorem unwritten_formed : Unwritten (fun _ => True) Formed where
  toRules := indifferent_formed.rules
  outgoing := by
    intro s p f h hf
    have hid : ∀ q, ((s.modifyOutgoing p f).streams q).id = (s.streams q).id := by
      intro q
      rcases eq_or_ne q p with rfl | hne
      · rw [Session.streams_modifyOutgoing_self]
      · unfold Session.modifyOutgoing
        rw [Session.streams_modify_of_ne hne]
    refine ⟨fun q hs => ?_, h.nodup, fun e he => (hid e.2).trans (h.id_eq e he),
      fun e he => Session.isStatic_modifyOutgoing.trans (h.isStatic e he), h.lt, h.two_le⟩
    rw [Session.isStatic_modifyOutgoing] at hs
    rcases eq_or_ne q p with rfl | hne
    · rw [Session.streams_modifyOutgoing_self]
      refine Bool.eq_false_iff.2 fun hb => ?_
      exact absurd (hf hs hb) (Bool.eq_false_iff.1 (h.noFin q hs))
    · unfold Session.modifyOutgoing
      rw [Session.streams_modify_of_ne hne]
      exact h.noFin q hs
  finSent := fun h _ => h.markFinSent
  sending := fun h => ⟨h.noFin, h.nodup, h.id_eq, h.isStatic, h.lt, h.two_le⟩
  drain := fun h hid => indifferent_formed.drain h hid

theorem Indifferent.ofFormed (I : Indifferent P) : Indifferent fun s => Formed s ∧ P s where
  change := fun h hg => ⟨indifferent_formed.change h.1 hg, I.change h.2 hg⟩
  close := fun h => ⟨indifferent_formed.close h.1, I.close h.2⟩
  disconnect := fun h => ⟨indifferent_formed.disconnect h.1, I.disconnect h.2⟩
  drain := fun h hid => ⟨indifferent_formed.drain h.1 hid, I.drain h.2 hid⟩

/-- An invariant together with what all of them build on. -/
theorem Unwritten.ofFormed (U : Unwritten A P) : Unwritten A fun s => Formed s ∧ P s where
  mark := fun h hf => ⟨unwritten_formed.mark h.1 hf, U.mark h.2 hf⟩
  closeWrite := fun h => ⟨unwritten_formed.closeWrite h.1, U.closeWrite h.2⟩
  closeRead := fun h he => ⟨unwritten_formed.closeRead h.1 he, U.closeRead h.2 he⟩
  close := fun h hr hw => ⟨unwritten_formed.close h.1 hr hw, U.close h.2 hr hw⟩
  goDown := fun h hc => ⟨unwritten_formed.goDown h.1 hc, U.goDown h.2 hc⟩
  reset := fun h hA => ⟨unwritten_formed.reset h.1 fun _ => trivial, U.reset h.2 hA⟩
  disconnect := fun h => ⟨unwritten_formed.disconnect h.1, U.disconnect h.2⟩
  read := fun h hn => ⟨unwritten_formed.read h.1 hn, U.read h.2 hn⟩
  flush := fun h => ⟨unwritten_formed.flush h.1, U.flush h.2⟩
  release := fun h => ⟨unwritten_formed.release h.1, U.release h.2⟩
  abort := fun h => ⟨unwritten_formed.abort h.1, U.abort h.2⟩
  outgoing := fun h hf => ⟨unwritten_formed.outgoing h.1 hf, U.outgoing h.2 hf⟩
  finSent := fun h hs => ⟨unwritten_formed.finSent h.1 hs, U.finSent h.2 hs⟩
  sending := fun h => ⟨unwritten_formed.sending h.1, U.sending h.2⟩
  drain := fun h hid => ⟨unwritten_formed.drain h.1 hid, U.drain h.2 hid⟩

/-! ## What becomes of an id -/

/-- The id is no longer available. -/
def Tables.take (t : Tables) (id : ℕ) : Tables :=
  { t with availableStreams := t.availableStreams.erase id }

/-- The id is no longer available, and those skipped before it are. -/
def Tables.admitPeer (t : Tables) (id : ℕ) : Tables :=
  if id ≤ t.largestPeerCreatedStreamId then t.take id else (t.take id).skipTo id

namespace Tables

variable {t : Tables} {x : ℕ}

theorem dynamicStreams_admitPeer : (t.admitPeer x).dynamicStreams = t.dynamicStreams := by
  unfold admitPeer
  split_ifs <;> rfl

theorem locallyClosedStreams_admitPeer :
    (t.admitPeer x).locallyClosedStreams = t.locallyClosedStreams := by
  unfold admitPeer
  split_ifs <;> rfl

theorem nextOutgoingStreamId_admitPeer :
    (t.admitPeer x).nextOutgoingStreamId = t.nextOutgoingStreamId := by
  unfold admitPeer
  split_ifs <;> rfl

end Tables

namespace Session

def takeId (s : Session) (id : ℕ) : Session := { s with tables := s.tables.take id }

def admitId (s : Session) (id : ℕ) : Session := { s with tables := s.tables.admitPeer id }

/-- `CreateIncomingDynamicStream` has been called. -/
def noteCreated (s : Session) (id : ℕ) : Session :=
  { s with tables := { s.tables with created := id :: s.tables.created } }

end Session

/-- The id is one of the peer that has not been used. -/
structure Fresh (s : Session) (id : ℕ) : Prop where
  not_static : isStaticId id = false
  find : s.findDynamic id = none
  not_closed : s.tables.isClosedStream id = false
  incoming : s.tables.isIncomingStream id = true

/-- The ids skipped before a new id fit into the set of available streams. -/
def Fits (s : Session) (id : ℕ) : Prop :=
  s.tables.largestPeerCreatedStreamId < id →
    (s.tables.availableStreams.erase id).card +
        ((id - s.tables.largestPeerCreatedStreamId) / 2 - 1) ≤
      s.config.maxOpenIncomingStreams * kMaxAvailableStreamsMultiplier

/-- **What `GetOrCreateDynamicStream` can come to.** -/
inductive Admission (s : Session) (id : ℕ) : Option ℕ × Session → Prop
  | failed (hid : isStaticId id = true ∨ id = 0) : Admission s id (none, s.abort)
  | known (p : ℕ) (hp : s.findDynamic id = some p) : Admission s id (some p, s)
  | closed (hf : s.findDynamic id = none) (hc : s.tables.isClosedStream id = true) :
    Admission s id (none, s)
  | foreign (hf : s.findDynamic id = none) (hi : s.tables.isIncomingStream id = false) :
    Admission s id (none, s.closeConnection)
  | tooFar (hn : Fresh s id) (hlt : s.tables.largestPeerCreatedStreamId < id) :
    Admission s id (none, (s.takeId id).closeConnection)
  | refused (hn : Fresh s id) (hfit : Fits s id)
      (hmax : s.config.maxOpenIncomingStreams ≤ s.tables.getNumOpenIncomingStreams) :
    Admission s id (none, s.admitId id)
  | ignored (hn : Fresh s id) (hfit : Fits s id)
      (hg : s.connected = false ∨ s.config.perspective = .client ∧ s.goawayReceived = true) :
    Admission s id (none, (s.admitId id).noteCreated id)
  | wrongParity (hn : Fresh s id) (hfit : Fits s id) :
    Admission s id (none, ((s.admitId id).noteCreated id).closeConnection)
  | made (hn : Fresh s id) (hfit : Fits s id) (hc : s.connected = true) (w : Bool) :
    Admission s id (some s.numStreams, ((s.admitId id).noteCreated id).activateStream id w)

namespace Session

variable (s id)

theorem maybeIncreaseLargestPeerStreamId_takeId :
    (s.takeId id).maybeIncreaseLargestPeerStreamId id = (true, s.admitId id) ∧ Fits s id ∨
      (s.takeId id).maybeIncreaseLargestPeerStreamId id = (false, (s.takeId id).closeConnection) ∧
        s.tables.largestPeerCreatedStreamId < id := by
  unfold maybeIncreaseLargestPeerStreamId admitId Tables.admitPeer
  by_cases hle : id ≤ s.tables.largestPeerCreatedStreamId
  · rw [if_pos hle]
    exact .inl ⟨if_pos hle, fun hlt => absurd hlt (Nat.not_lt.2 hle)⟩
  · rw [if_neg hle]
    by_cases hcap : s.config.maxOpenIncomingStreams * kMaxAvailableStreamsMultiplier <
        (s.tables.availableStreams.erase id).card +
          ((id - s.tables.largestPeerCreatedStreamId) / 2 - 1)
    · exact .inr ⟨(if_neg hle).trans (if_pos hcap), Nat.lt_of_not_le hle⟩
    · exact .inl ⟨(if_neg hle).trans (if_neg hcap), fun _ => Nat.not_lt.1 hcap⟩

theorem createIncomingDynamicStream_admitId (hn : Fresh s id) (hfit : Fits s id) :
    Admission s id ((s.admitId id).createIncomingDynamicStream id) := by
  unfold createIncomingDynamicStream
  dsimp only
  by_cases hc : (s.admitId id).connected = true
  swap
  · rw [if_pos (by simpa using hc)]
    exact .ignored hn hfit (.inl (Bool.eq_false_iff.2 hc))
  rw [if_neg (by simpa using hc)]
  cases hp : (s.admitId id).config.perspective with
  | client =>
    dsimp only
    split_ifs with h₁ h₂
    · exact .ignored hn hfit (.inr ⟨hp, h₁⟩)
    · exact .wrongParity hn hfit
    · exact .made hn hfit hc true
  | server =>
    dsimp only
    split_ifs
    · exact .wrongParity hn hfit
    · exact .made hn hfit hc false

/-- **Every call of `GetOrCreateDynamicStream`** comes to one of these. -/
theorem admission : Admission s id (s.getOrCreateDynamicStream id) := by
  unfold getOrCreateDynamicStream
  by_cases hst : isStaticId id = true
  · rw [if_pos hst]
    exact .failed (.inl hst)
  rw [if_neg hst]
  cases hf : s.findDynamic id with
  | some p => exact .known p hf
  | none =>
    dsimp only
    by_cases h0 : id = 0
    · rw [if_pos h0]
      exact .failed (.inr h0)
    rw [if_neg h0]
    by_cases hcl : s.tables.isClosedStream id = true
    · rw [if_pos hcl]
      exact .closed hf hcl
    rw [if_neg hcl]
    by_cases hin : s.tables.isIncomingStream id = true
    swap
    · rw [if_pos (by simpa using hin)]
      exact .foreign hf (Bool.eq_false_iff.2 hin)
    rw [if_neg (by simpa using hin)]
    have hn : Fresh s id := ⟨Bool.eq_false_iff.2 hst, hf, Bool.eq_false_iff.2 hcl, hin⟩
    change Admission s id (
      let r := (s.takeId id).maybeIncreaseLargestPeerStreamId id
      if !r.1 then (none, r.2)
      else if r.2.config.maxOpenIncomingStreams ≤ r.2.tables.getNumOpenIncomingStreams then
        (none, r.2.sendRstStream id)
      else r.2.createIncomingDynamicStream id)
    rcases s.maybeIncreaseLargestPeerStreamId_takeId id with ⟨heq, hfit⟩ | ⟨heq, hlt⟩
    · rw [heq]
      have hmax : (s.admitId id).config.maxOpenIncomingStreams ≤
          (s.admitId id).tables.getNumOpenIncomingStreams ↔
          s.config.maxOpenIncomingStreams ≤ s.tables.getNumOpenIncomingStreams := by
        unfold admitId Tables.admitPeer
        split_ifs <;> rfl
      have hrst : (s.admitId id).sendRstStream id = s.admitId id := by
        have hfind : (s.admitId id).findDynamic id = none := by
          rw [← hf]
          unfold admitId Tables.admitPeer
          split_ifs <;> rfl
        unfold sendRstStream closeStreamInner
        rw [hfind]
        split_ifs <;> rfl
      dsimp only
      rw [if_neg (by decide)]
      by_cases hm : s.config.maxOpenIncomingStreams ≤ s.tables.getNumOpenIncomingStreams
      · rw [if_pos (hmax.2 hm), hrst]
        exact .refused hn hfit hm
      · rw [if_neg (mt hmax.1 hm)]
        exact s.createIncomingDynamicStream_admitId id hn hfit
    · rw [heq]
      exact .tooFar hn hlt

end Session

/-! ## Streams that are made are well formed -/

namespace Formed

theorem withTables {t : Tables} (h : Formed s)
    (ht : t.dynamicStreams = s.tables.dynamicStreams) : Formed { s with tables := t } where
  noFin := h.noFin
  nodup := by
    show (t.dynamicStreams.map Prod.fst).Nodup
    rw [ht]
    exact h.nodup
  id_eq := by
    show ∀ e ∈ t.dynamicStreams, _
    rw [ht]
    exact h.id_eq
  isStatic := by
    show ∀ e ∈ t.dynamicStreams, _
    rw [ht]
    exact h.isStatic
  lt := by
    show ∀ e ∈ t.dynamicStreams, _
    rw [ht]
    exact h.lt
  two_le := h.two_le

/-- A new stream is not static, and its handle is new. -/
theorem activateStream (h : Formed s) : Formed (s.activateStream id w) := by
  have hold : ∀ q, q ≠ s.numStreams → (s.activateStream id w).streams q = s.streams q :=
    fun q hq => Function.update_of_ne hq ..
  have hnew : (s.activateStream id w).streams s.numStreams = s.config.newStream id false w :=
    Function.update_self ..
  have hmem : ∀ e ∈ (s.activateStream id w).tables.dynamicStreams,
      e ∈ s.tables.dynamicStreams ∨ e = (id, s.numStreams) := by
    intro e he
    rcases List.mem_append.1 he with he | he
    · exact .inl (mem_without.1 he).1
    · exact .inr (List.mem_singleton.1 he)
  refine ⟨fun q hs => ?_, ?_, fun e he => ?_, fun e he => ?_, fun e he => ?_, ?_⟩
  · rcases eq_or_ne q s.numStreams with rfl | hne
    · rw [hnew] at hs
      simp [Config.newStream] at hs
    · rw [hold q hne] at hs ⊢
      exact h.noFin q hs
  · show ((without id s.tables.dynamicStreams ++ [(id, s.numStreams)]).map Prod.fst).Nodup
    rw [List.map_append, List.nodup_append]
    refine ⟨nodup_keys_without h.nodup, List.nodup_singleton _, fun x hx y hy hxy => ?_⟩
    obtain rfl := List.mem_singleton.1 hy
    exact (mem_keys_without.1 hx).2 hxy
  · rcases hmem e he with he | rfl
    · rw [hold e.2 (h.lt e he).ne]
      exact h.id_eq e he
    · rw [hnew]
      rfl
  · rcases hmem e he with he | rfl
    · rw [hold e.2 (h.lt e he).ne]
      exact h.isStatic e he
    · rw [hnew]
      rfl
  · rcases hmem e he with he | rfl
    · exact (h.lt e he).trans (Nat.lt_succ_self _)
    · exact Nat.lt_succ_self _
  · exact h.two_le.trans (Nat.le_succ _)

theorem createOutgoingDynamicStream (h : Formed s) : Formed s.createOutgoingDynamicStream := by
  unfold Session.createOutgoingDynamicStream
  split_ifs
  · exact activateStream (h.withTables rfl)
  · exact h

theorem admitId (h : Formed s) : Formed (s.admitId id) :=
  h.withTables Tables.dynamicStreams_admitPeer

theorem getOrCreateDynamicStream (h : Formed s) : Formed (s.getOrCreateDynamicStream id).2 := by
  have hcreated : Formed ((s.admitId id).noteCreated id) := h.admitId.withTables rfl
  have hadm := s.admission id
  generalize s.getOrCreateDynamicStream id = r at hadm ⊢
  cases hadm with
  | failed hid => exact indifferent_formed.abort h
  | known p hp => exact h
  | closed hf hc => exact h
  | foreign hf hi => exact indifferent_formed.closeConnection h
  | tooFar hn hlt => exact indifferent_formed.closeConnection (h.withTables rfl)
  | refused hn hfit hmax => exact h.admitId
  | ignored hn hfit hg => exact hcreated
  | wrongParity hn hfit => exact indifferent_formed.closeConnection hcreated
  | made hn hfit hc w => exact hcreated.activateStream

theorem onFinalByteOffsetReceived {n : ℕ} (h : Formed s) :
    Formed (s.onFinalByteOffsetReceived id n) := by
  unfold Session.onFinalByteOffsetReceived
  cases valueAt id s.tables.locallyClosedStreams with
  | none => exact h
  | some recorded =>
    have herase : Formed { s with tables := s.tables.eraseLocallyClosed id } := h.withTables rfl
    dsimp only
    split_ifs
    · exact indifferent_formed.closeConnection
        (indifferent_formed.change (b := s.aborted) h fun q => Similar.refl _)
    · exact indifferent_formed.change herase fun q => Similar.refl _

end Formed

/-- The stream that is found or made is in the map of dynamic streams. -/
theorem mem_of_getOrCreateDynamicStream (hp : (s.getOrCreateDynamicStream id).1 = some p) :
    (id, p) ∈ (s.getOrCreateDynamicStream id).2.tables.dynamicStreams := by
  have hadm := s.admission id
  generalize s.getOrCreateDynamicStream id = r at hp hadm ⊢
  cases hadm with
  | failed hid => exact absurd hp (by simp)
  | known q hq =>
    obtain rfl := Option.some.inj hp
    obtain ⟨e, he, rfl⟩ := Option.map_eq_some_iff.1 hq
    obtain rfl : e.1 = id := by simpa using List.find?_some he
    exact List.mem_of_find?_eq_some he
  | closed hf hc => exact absurd hp (by simp)
  | foreign hf hi => exact absurd hp (by simp)
  | tooFar hn hlt => exact absurd hp (by simp)
  | refused hn hfit hmax => exact absurd hp (by simp)
  | ignored hn hfit hg => exact absurd hp (by simp)
  | wrongParity hn hfit => exact absurd hp (by simp)
  | made hn hfit hc w =>
    obtain rfl := Option.some.inj hp
    exact List.mem_append_right _ (List.mem_singleton_self _)

/-! ## Frames -/

/-- **What an invariant has to be kept by for frames**, if it does not look at what is
received.  A window update may lead to writes, with answers that meet `W`. -/
structure Framed (W : List Answer → Prop) (Q : Session → Prop) : Prop extends Indifferent Q where
  final : ∀ {s id n}, Q s → Q (s.onFinalByteOffsetReceived id n)
  windowUpdate : ∀ {s p as} {offset : UInt64}, Q s → s.isOpen p = true → W as →
    Q (s.streamOnWindowUpdateFrame p offset.toNat as)
  sessionWindow : ∀ {s} {offset : UInt64}, Q s →
    Q { s with sendController := (s.sendController.updateSendWindowOffset offset.toNat).2 }
  goaway : ∀ {s}, Q s → Q { s with goawayReceived := true }

theorem isOpen_of_getOrCreateDynamicStream
    (hp : (s.getOrCreateDynamicStream id).1 = some p) :
    (s.getOrCreateDynamicStream id).2.isOpen p = true := by
  have hmem : p ∈ (s.getOrCreateDynamicStream id).2.tables.dynamicStreams.map Prod.snd :=
    List.mem_map.2 ⟨_, mem_of_getOrCreateDynamicStream hp, rfl⟩
  simp [Session.isOpen, Session.isDynamic, hmem]

theorem closes_closeStreamInner {b : Bool} :
    Closes (s.streams q) ((s.closeStreamInner id b).streams q) := by
  cases hf : s.findDynamic id with
  | none =>
    unfold Session.closeStreamInner
    rw [hf]
    exact Closes.refl _
  | some y =>
    obtain ⟨g, c, failed, o, heq, hg, -⟩ := closeStreamInner_received (b := b) hf
    rw [heq]
    exact hg q

/-- A reset closes streams and does nothing else to them. -/
theorem closes_reset : Closes (s.streams q) ((s.reset p).streams q) := by
  have hclose : Closes (s.streams q) ((s.sendRstStream (s.streams p).id).streams q) := by
    unfold Session.sendRstStream
    split_ifs
    · exact Closes.refl _
    · exact closes_closeStreamInner
  exact hclose.trans
    (Closes.modify ⟨⟨rfl, rfl, rfl, fun h => h, fun h => h, rfl⟩, rfl, rfl, rfl, rfl⟩ q)

/-- Nor does closing the write side. -/
theorem closes_closeWriteSide : Closes (s.streams q) ((s.closeWriteSide p).streams q) := by
  have hbase : ∀ t : Session, Closes (t.streams q) ((t.closeWriteSideBase p).streams q) := by
    intro t
    have hwrite : Closes (t.streams q)
        ((t.modify p fun st => { st with writeSideClosed := true }).streams q) :=
      Closes.modify ⟨⟨rfl, rfl, rfl, fun h => h, fun _ => rfl, rfl⟩, rfl, rfl, rfl, rfl⟩ q
    unfold Session.closeWriteSideBase
    dsimp only
    split_ifs
    · exact Closes.refl _
    · exact hwrite.trans closes_closeStreamInner
    · exact hwrite
  unfold Session.closeWriteSide
  dsimp only
  split_ifs
  · exact closes_reset.trans (hbase _)
  · exact hbase _

/-- **The frames of the peer**, one case for each. -/
inductive Op.Frame : Op → Prop
  | streamFrame (m : StreamFrame) (r : Reaction) : Frame (.streamFrame m r)
  | rstStream (m : RstStreamFrame) : Frame (.rstStream m)
  | windowUpdate (id : ℕ) (offset : UInt64) (as : List Answer) : Frame (.windowUpdate id offset as)
  | headerList (id : ℕ) (fin : Bool) (headers : List Header) (r : Reaction) :
    Frame (.headerList id fin headers r)
  | goaway : Frame .goaway

theorem Op.frame_of_isFrame {op : Op} (h : op.isFrame = true) : op.Frame := by
  cases op <;> first | constructor | exact absurd h (by simp [Op.isFrame, Op.names])

namespace Framed

variable {Q : Session → Prop} {t : Session} {op : Op} {headers : List Header}
  {W : List Answer → Prop} (F : Framed W Q)

include F

theorem trailersOfClosed (h : Q t) : Q (Session.onTrailersOfClosed id headers t) := by
  induction headers generalizing t with
  | nil => exact h
  | cons x l ih =>
    cases x with
    | finalOffset value =>
      cases value with
      | none => exact F.closeConnection h
      | some offset => exact ih (F.final h)
    | plain => exact ih h
    | malformed => exact ih h

omit F in
/-- A frame that names a stream, static or not. -/
theorem getOrCreateStream (hstay : isStaticId id = true → Q s)
    (hget : Q (s.getOrCreateDynamicStream id).2) :
    Q (s.getOrCreateStream id).2 ∧
      ∀ p, (s.getOrCreateStream id).1 = some p → (s.getOrCreateStream id).2.isOpen p = true := by
  unfold Session.getOrCreateStream
  split_ifs with h₁ h₃
  · refine ⟨hstay (by simp [isStaticId, h₁]), fun p hp => ?_⟩
    obtain rfl := Option.some.inj hp
    rfl
  · refine ⟨hstay (by simp [isStaticId, h₃]), fun p hp => ?_⟩
    obtain rfl := Option.some.inj hp
    rfl
  · exact ⟨hget, fun p => isOpen_of_getOrCreateDynamicStream⟩

/-- **A frame of the peer keeps an invariant** that is kept when a stream is looked up. -/
theorem step (hgo : op = .goaway → Q s)
    (hstay : ∀ id, op.names = some id →
      isStaticId id = true ∨ s.tables.isIncomingStream id = false ∨ id = 0 → Q s)
    (hget : ∀ id, op.names = some id → Q (s.getOrCreateDynamicStream id).2)
    (hW : ∀ id offset as, op = .windowUpdate id offset as → W as)
    (hop : op.isFrame = true) (ht : s.apply op = some t) : Q t := by
  have hstream : ∀ id, op.names = some id → Q (s.getOrCreateStream id).2 ∧
      ∀ p, (s.getOrCreateStream id).1 = some p → (s.getOrCreateStream id).2.isOpen p = true :=
    fun id hid => Framed.getOrCreateStream (fun hs => hstay id hid (.inl hs)) (hget id hid)
  cases Op.frame_of_isFrame hop with
  | streamFrame m r =>
    obtain rfl := Option.some.inj ht
    obtain ⟨hQ, -⟩ := hstream m.streamId rfl
    unfold Session.onStreamFrame
    by_cases hf : (s.isServer && !s.tables.isIncomingStream m.streamId) = true
    · rw [if_pos hf]
      simp only [Bool.and_eq_true, Bool.not_eq_true'] at hf
      exact F.closeConnection (hstay m.streamId rfl (.inr (.inl hf.2)))
    · rw [if_neg hf]
      generalize s.getOrCreateStream m.streamId = x at hQ ⊢
      obtain ⟨_ | p, u⟩ := x
      · dsimp only
        split_ifs
        · exact F.final hQ
        · exact hQ
      · exact F.streamOnStreamFrame hQ
  | rstStream m =>
    obtain rfl := Option.some.inj ht
    unfold Session.onRstStream
    by_cases hs : isStaticId m.streamId = true
    · rw [if_pos hs]
      exact F.closeConnection (hstay m.streamId rfl (.inl hs))
    · rw [if_neg hs]
      have hQ := hget m.streamId rfl
      generalize s.getOrCreateDynamicStream m.streamId = x at hQ ⊢
      obtain ⟨_ | p, u⟩ := x
      · dsimp only
        split_ifs
        · exact F.final hQ
        · exact hQ
      · exact F.onStreamReset hQ m
  | windowUpdate id offset as =>
    obtain rfl := Option.some.inj ht
    obtain ⟨hQ, hopen⟩ := hstream id rfl
    unfold Session.onWindowUpdateFrame
    split_ifs with h0
    · exact F.sessionWindow (hstay id rfl (.inr (.inr h0)))
    · generalize s.getOrCreateStream id = x at hQ hopen ⊢
      obtain ⟨_ | p, u⟩ := x
      · exact hQ
      · exact F.windowUpdate hQ (hopen p rfl) (hW id offset as rfl)
  | headerList id fin headers r =>
    obtain rfl := Option.some.inj ht
    have hQ := hget id rfl
    unfold Session.onStreamHeaderList
    generalize s.getOrCreateDynamicStream id = x at hQ ⊢
    obtain ⟨_ | p, u⟩ := x
    · exact F.trailersOfClosed hQ
    · exact F.streamOnStreamHeaderList hQ
  | goaway => exact Option.some.inj ht ▸ F.goaway (hgo rfl)

end Framed

/-! ## The operations that are not frames -/

/-- The stream that an operation of the application resets. -/
def Op.cancels (s : Session) (p : ℕ) : Op → Prop
  | .reset q => q = p
  | .markConsumed q bytes => q = p ∧ (s.streams p).sequencer.buffer.readableBytes < bytes
  | _ => False

namespace Unwritten

variable {op : Op} {t : Session}

/-- **The operations of the application and of the connection keep an invariant** that is
kept when a stream is made, if each stream they reset may be reset. -/
theorem local_step (U : Unwritten A P) (C : ∀ {s}, P s → Formed s)
    (hcreate : ∀ {s}, P s → P s.createOutgoingDynamicStream) (hop : op.isFrame = false)
    (hA : ∀ p, op.cancels s p → (s.streams p).hasFinalReceivedByteOffset = true → A (s.streams p))
    (h : P s) (ht : s.apply op = some t) : P t := by
  have hdyn : ∀ p, s.isDynamic p = true → (s.streams p).isStatic = false := by
    intro p hp
    obtain ⟨e, he, rfl⟩ := List.mem_map.1 (of_decide_eq_true hp)
    exact (C h).isStatic e he
  cases op with
  | streamFrame f r => exact absurd hop (by simp [Op.isFrame, Op.names])
  | rstStream f => exact absurd hop (by simp [Op.isFrame, Op.names])
  | windowUpdate id offset as => exact absurd hop (by simp [Op.isFrame, Op.names])
  | headerList id fin headers r => exact absurd hop (by simp [Op.isFrame, Op.names])
  | goaway => exact absurd hop (by simp [Op.isFrame])
  | closeConnection => exact Option.some.inj ht ▸ U.closeConnection h
  | createOutgoing =>
    obtain ⟨-, ⟨⟩⟩ := Option.ite_none_right_eq_some.1 ht
    exact hcreate h
  | canWrite p as =>
    obtain ⟨-, ⟨⟩⟩ := Option.ite_none_right_eq_some.1 ht
    exact U.onCanWrite C h
  | write p data fin a =>
    obtain ⟨hp, ⟨⟩⟩ := Option.ite_none_right_eq_some.1 ht
    refine U.writeOrBufferData h fun hf => ?_
    rcases Bool.or_eq_true _ _ ▸ hp with hp | hp
    · exact hdyn p hp
    · simp [hf] at hp
  | writeHeaders p frame fin a =>
    obtain ⟨hp, ⟨⟩⟩ := Option.ite_none_right_eq_some.1 ht
    exact U.writeHeaders h (hdyn p hp)
  | writeTrailers p frame a =>
    obtain ⟨hp, ⟨⟩⟩ := Option.ite_none_right_eq_some.1 ht
    exact U.writeTrailers h (hdyn p hp)
  | consumeHeaderList p r =>
    obtain ⟨-, ⟨⟩⟩ := Option.ite_none_right_eq_some.1 ht
    exact U.consumeHeaderList h
  | markTrailersConsumed p =>
    obtain ⟨-, ⟨⟩⟩ := Option.ite_none_right_eq_some.1 ht
    exact U.mark h ⟨rfl, rfl, rfl, rfl, rfl, rfl, rfl, rfl, rfl, rfl, fun h => h⟩
  | markConsumed p bytes =>
    obtain ⟨-, ⟨⟩⟩ := Option.ite_none_right_eq_some.1 ht
    by_cases hb : (s.streams p).sequencer.buffer.readableBytes < bytes
    · unfold Session.markConsumed
      dsimp only
      rw [if_pos hb]
      exact U.resetStream h (hA p ⟨rfl, hb⟩)
    · exact U.readBytes h (Nat.not_lt.1 hb)
  | finRead p =>
    obtain ⟨hp, ⟨⟩⟩ := Option.ite_none_right_eq_some.1 ht
    exact U.onFinRead h (.inl (Bool.and_eq_true _ _ ▸ hp).2)
  | stopReading p r =>
    obtain ⟨-, ⟨⟩⟩ := Option.ite_none_right_eq_some.1 ht
    exact U.stopReading h
  | reset p =>
    obtain ⟨-, ⟨⟩⟩ := Option.ite_none_right_eq_some.1 ht
    exact U.resetStream h (hA p rfl)

end Unwritten

/-- **The same for an invariant that does not look at what is received**, if it is kept by
writing. -/
theorem Indifferent.local_step {op : Op} {t : Session} (I : Indifferent P)
    (hcan : ∀ p as, op = .canWrite p as → s.isOpen p = true → P (s.onCanWrite p as))
    (hwrite : ∀ {p data fin a}, s.isOpen p = true → (fin = true → s.isDynamic p = true) →
      P (s.writeOrBufferData p data fin a))
    (hfin : ∀ {u p}, P u → P (u.modify p fun st => { st with finSent := true }))
    (hcreate : P s.createOutgoingDynamicStream) (hop : op.isFrame = false) (h : P s)
    (ht : s.apply op = some t) : P t := by
  have hdyn : ∀ p, s.isDynamic p = true → s.isOpen p = true := fun p hp => by
    simp [Session.isOpen, hp]
  have hheaders : ∀ data a, P (s.writeOrBufferData Session.headersStream data false a) :=
    fun data a => hwrite rfl fun hf => absurd hf (by decide)
  have R : Rules (fun _ => True) P := I.rules
  cases op with
  | streamFrame f r => exact absurd hop (by simp [Op.isFrame, Op.names])
  | rstStream f => exact absurd hop (by simp [Op.isFrame, Op.names])
  | windowUpdate id offset as => exact absurd hop (by simp [Op.isFrame, Op.names])
  | headerList id fin headers r => exact absurd hop (by simp [Op.isFrame, Op.names])
  | goaway => exact absurd hop (by simp [Op.isFrame])
  | closeConnection => exact Option.some.inj ht ▸ I.closeConnection h
  | createOutgoing =>
    obtain ⟨-, ⟨⟩⟩ := Option.ite_none_right_eq_some.1 ht
    exact hcreate
  | canWrite p as =>
    obtain ⟨hp, ⟨⟩⟩ := Option.ite_none_right_eq_some.1 ht
    exact hcan p as rfl hp
  | write p data fin a =>
    obtain ⟨hp, ⟨⟩⟩ := Option.ite_none_right_eq_some.1 ht
    rcases Bool.or_eq_true _ _ ▸ hp with hp | hp
    · exact hwrite (hdyn p hp) fun _ => hp
    · simp only [Bool.and_eq_true, Bool.not_eq_true'] at hp
      exact hwrite hp.1 fun hf => absurd (hp.2.symm.trans hf) (by decide)
  | writeHeaders p frame fin a =>
    obtain ⟨hp, ⟨⟩⟩ := Option.ite_none_right_eq_some.1 ht
    unfold Session.writeHeaders
    dsimp only
    split_ifs
    · exact I.closeWriteSide (hfin (hheaders _ _))
    · exact hheaders _ _
  | writeTrailers p frame a =>
    obtain ⟨hp, ⟨⟩⟩ := Option.ite_none_right_eq_some.1 ht
    unfold Session.writeTrailers
    dsimp only
    split_ifs
    · exact h
    · exact I.closeWriteSide (hfin (hheaders _ _))
    · exact hfin (hheaders _ _)
  | consumeHeaderList p r =>
    obtain ⟨-, ⟨⟩⟩ := Option.ite_none_right_eq_some.1 ht
    exact R.consumeHeaderList h
  | markTrailersConsumed p =>
    obtain ⟨-, ⟨⟩⟩ := Option.ite_none_right_eq_some.1 ht
    exact I.modify h ⟨rfl, rfl, rfl, fun h => h, fun h => h, rfl⟩
  | markConsumed p bytes =>
    obtain ⟨-, ⟨⟩⟩ := Option.ite_none_right_eq_some.1 ht
    exact I.markConsumed h
  | finRead p =>
    obtain ⟨hp, ⟨⟩⟩ := Option.ite_none_right_eq_some.1 ht
    exact R.onFinRead h (.inl (Bool.and_eq_true _ _ ▸ hp).2)
  | stopReading p r =>
    obtain ⟨-, ⟨⟩⟩ := Option.ite_none_right_eq_some.1 ht
    exact R.stopReading h
  | reset p =>
    obtain ⟨-, ⟨⟩⟩ := Option.ite_none_right_eq_some.1 ht
    exact I.reset h

theorem Formed.isStatic_of_isDynamic (h : Formed s) (hp : s.isDynamic p = true) :
    (s.streams p).isStatic = false := by
  obtain ⟨e, he, rfl⟩ := List.mem_map.1 (of_decide_eq_true hp)
  exact h.isStatic e he

theorem Formed.lt_of_isOpen (h : Formed s) (hp : s.isOpen p = true) : p < s.numStreams := by
  rcases Bool.or_eq_true _ _ ▸ hp with hp | hp
  · exact (of_decide_eq_true hp).trans_le h.two_le
  · obtain ⟨e, he, rfl⟩ := List.mem_map.1 (of_decide_eq_true hp)
    exact h.lt e he

/-! ## One step -/

theorem Session.step_eq_some {op : Op} {e : Environment} {t : Session}
    (ht : s.step (op, e) = some t) :
    (op.isFrame = true → s.connected = true) ∧ (s.arrive op e).apply op = some t := by
  obtain ⟨hgo, ht⟩ := Option.ite_none_left_eq_some.1 ht
  exact ⟨fun hop => by simpa [hop] using hgo, (Option.filter_eq_some_iff.1 ht).1⟩

theorem Op.names_of_not_isFrame {op : Op} (h : op.isFrame = false) : op.names = none := by
  simp only [Op.isFrame, Bool.or_eq_false_iff, Option.isSome_eq_false_iff] at h
  exact Option.isNone_iff_eq_none.1 h.1

theorem Formed.new (c : Config) (e : Environment) : Formed (Session.new c e) where
  noFin := fun _ _ => rfl
  nodup := List.nodup_nil
  id_eq := fun _ he => absurd he List.not_mem_nil
  isStatic := fun _ he => absurd he List.not_mem_nil
  lt := fun _ he => absurd he List.not_mem_nil
  two_le := le_rfl

theorem Formed.goaway (h : Formed s) : Formed { s with goawayReceived := true } :=
  ⟨h.noFin, h.nodup, h.id_eq, h.isStatic, h.lt, h.two_le⟩

theorem Formed.arrive {op : Op} {e : Environment} (h : Formed s) : Formed (s.arrive op e) :=
  ⟨h.noFin, h.nodup, h.id_eq, h.isStatic, h.lt, h.two_le⟩

end Streams
end QuicNs3
