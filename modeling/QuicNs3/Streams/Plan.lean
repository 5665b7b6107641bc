/-
# Frames of a fair peer

A `Plan` is what the peer sends: the streams it uses, and the final offset of each.  A frame
`follows` it if its data does not reach beyond the final offset, and ends the stream there if
it ends it.  An operation `spares` the credit if no stream is refused for it, and a stream is
reset locally only while its final offset is not known or when all of its data is there.

Each frame that meets both keeps the books, and what it says about a final offset is known
afterwards.
-/

import QuicNs3.Streams.Books

namespace QuicNs3
namespace Streams

open Lib

variable {F : ℕ → ℕ} {G G' : ℕ → Prop} {c : Config} {N M : Finset ℕ} {s t u : Session}
  {p id n : ℕ} {m : StreamFrame} {r : Reaction} {fin : Bool} {headers : List Header}

/-! ## What the peer sends -/

/-- **What the peer sends**: the streams it uses that count for the connection, and the
final offset of each. -/
structure Plan where
  streams : Finset ℕ
  final : ℕ → ℕ
  dynamic : ∀ id ∈ streams, isStaticId id = false ∧ id ≠ 0
  unused : ∀ id ∉ streams, final id = 0

/-- A peer that uses one stream. -/
def Plan.single (id n : ℕ) (hid : isStaticId id = false ∧ id ≠ 0) : Plan where
  streams := {id}
  final := fun x => if x = id then n else 0
  dynamic := fun _ hx => Finset.mem_singleton.1 hx ▸ hid
  unused := fun _ hx => if_neg fun heq => hx (Finset.mem_singleton.2 heq)

/-- A header does not name another final offset. -/
def Header.EndsAt (n : ℕ) (x : Header) : Prop := ∀ offset ∈ x.offset, offset.toNat = n

instance {x : Header} : Decidable (x.EndsAt n) := Option.decidableForallMem x.offset

namespace Session

/-- Whether a header block for the stream can be its trailers. -/
def takesTrailers (s : Session) (id : ℕ) : Bool :=
  match s.findDynamic id with
  | some p => (s.streams p).headersDecompressed
  | none => s.tables.isClosedStream id

/-- **A frame follows the plan**: data does not reach beyond the final offset, and a FIN, a
reset and trailers end the stream there.  A header block with a FIN that does not name the
final offset ends the stream at zero. -/
def follows (P : Plan) (s : Session) : Op → Prop
  | .streamFrame m _ => isStaticId m.streamId = true ∨ m.streamId ∈ P.streams ∧
    m.stop ≤ P.final m.streamId ∧ (m.fin = true → m.stop = P.final m.streamId)
  | .rstStream m => m.streamId ∈ P.streams ∧ m.byteOffset.toNat = P.final m.streamId
  | .headerList id fin headers _ => id ∈ P.streams ∧ (∀ x ∈ headers, x.EndsAt (P.final id)) ∧
    (fin = true → P.final id = 0 ∨
      s.takesTrailers id = true ∧ ∃ x ∈ headers, x.offset.isSome = true)
  | _ => True

instance {P : Plan} : (op : Op) → Decidable (s.follows P op)
  | .streamFrame _ _ => inferInstanceAs (Decidable (_ ∨ _))
  | .rstStream _ => inferInstanceAs (Decidable (_ ∧ _))
  | .headerList _ _ _ _ => inferInstanceAs (Decidable (_ ∧ _))
  | .windowUpdate _ _ _ | .goaway | .closeConnection | .canWrite _ _ | .createOutgoing
  | .write _ _ _ _ | .writeHeaders _ _ _ _ | .writeTrailers _ _ _ | .consumeHeaderList _ _
  | .markTrailersConsumed _ | .markConsumed _ _ | .finRead _ | .stopReading _ _ | .reset _ =>
    .isTrue trivial

/-- The stream may be reset: its final offset is not known, or all has been received. -/
def mayReset (P : Plan) (s : Session) (p : ℕ) : Prop :=
  (s.streams p).hasFinalReceivedByteOffset = true → Complete P.final (s.streams p)

/-- **An operation loses no credit**: no stream is refused, and a stream is reset locally
only if it may be.  A header block that is too large resets its stream. -/
def spares (P : Plan) (s : Session) : Op → Prop
  | .streamFrame m _ => Admitted s m.streamId
  | .rstStream m => Admitted s m.streamId
  | .windowUpdate id _ _ => Admitted s id
  | .headerList id _ headers _ =>
    Admitted s id ∧ (headers = [] → ∀ p ∈ s.findDynamic id, s.mayReset P p)
  | .markConsumed p bytes =>
    (s.streams p).sequencer.buffer.readableBytes < bytes → s.mayReset P p
  | .reset p => s.mayReset P p
  | _ => True

instance {P : Plan} : Decidable (s.mayReset P p) :=
  inferInstanceAs (Decidable (_ → _))

instance {P : Plan} : (op : Op) → Decidable (s.spares P op)
  | .streamFrame m _ => inferInstanceAs (Decidable (Admitted s m.streamId))
  | .rstStream m => inferInstanceAs (Decidable (Admitted s m.streamId))
  | .windowUpdate id _ _ => inferInstanceAs (Decidable (Admitted s id))
  | .headerList _ _ _ _ => inferInstanceAs (Decidable (_ ∧ _))
  | .markConsumed _ _ => inferInstanceAs (Decidable (_ → _))
  | .reset p => inferInstanceAs (Decidable (s.mayReset P p))
  | .goaway | .closeConnection | .canWrite _ _ | .createOutgoing | .write _ _ _ _
  | .writeHeaders _ _ _ _ | .writeTrailers _ _ _ | .consumeHeaderList _ _
  | .markTrailersConsumed _ | .finRead _ | .stopReading _ _ => .isTrue trivial

end Session

/-- The final offset of the stream is received with the operation. -/
def Op.finishes (id : ℕ) : Op → Bool
  | .streamFrame m _ => m.fin && decide (m.streamId = id)
  | .rstStream m => decide (m.streamId = id)
  | .headerList x fin _ _ => fin && decide (x = id)
  | _ => false

/-! ## Frames -/

section Frames

variable {P : Plan}

namespace WhileOpen

/-- A FIN is marked, and the final offset is known. -/
theorem noteFin (h : WhileOpen (Books c F G N M) s) (hmem : (id, p) ∈ s.tables.dynamicStreams)
    (hG : ∀ x, G' x → G x ∨ x = id ∧ fin = true) :
    WhileOpen (Books c F G' N M) (s.noteFin p fin) := by
  have hnote : WhileOpen (Books c F G N M) (s.noteFin p fin) := taking_books.noteFin h
  refine ⟨hnote.1, fun hc => (hnote.2 hc).learn fun x hx => (hG x hx).imp_right ?_⟩
  rintro ⟨rfl, rfl⟩
  have hdyn : (s.noteFin p true).tables.dynamicStreams = s.tables.dynamicStreams := by
    unfold Session.noteFin Session.receiveFin Session.streamDraining Tables.streamDraining
    dsimp only
    split_ifs <;> rfl
  have hfin : ((s.noteFin p true).streams p).finReceived = true := by
    have hmark : ((s.modify p fun st => { st with finReceived := true }).streams p).finReceived =
        true := by rw [Session.streams_modify_self]
    unfold Session.noteFin Session.receiveFin Session.streamDraining
    dsimp only
    split_ifs
    · exact hmark
    · exact hmark
    · exact hmark
    · contradiction
  refine Known.of_dynamic (hnote.2 hc).2 hnote.1 (hdyn ▸ hmem) ?_
  unfold Stream.hasFinalReceivedByteOffset
  rw [hfin, Bool.true_or]

/-- **The final offset of a closed stream.** -/
theorem credit (h : WhileOpen (Books c F G N M) s) (hn : F id < 2 ^ 64)
    (hS : s.connected = true → Settled s id ∨ Settles s id (F id)) :
    WhileOpen (Books c F G N M) (s.onFinalByteOffsetReceived id (F id)) := by
  refine onFinalByteOffsetReceived h.1 hn hS (fun _ => h.2) fun recorded hval _ hroom hc hin => ?_
  have hB := h.2 hc
  exact hB.settle h.1 hval (hin hB.2.received.session.highest_le) hroom

end WhileOpen

/-- What a final offset does not touch. -/
theorem Session.same_of_onFinalByteOffsetReceived
    (hc : (s.onFinalByteOffsetReceived id n).connected = true) :
    s.connected = true ∧ (s.onFinalByteOffsetReceived id n).streams = s.streams ∧
      (s.onFinalByteOffsetReceived id n).tables.dynamicStreams = s.tables.dynamicStreams := by
  unfold onFinalByteOffsetReceived at hc ⊢
  cases hval : valueAt id s.tables.locallyClosedStreams with
  | none =>
    rw [hval] at hc
    exact ⟨hc, rfl, rfl⟩
  | some recorded =>
    rw [hval] at hc
    dsimp only at hc ⊢
    split_ifs at hc ⊢
    · exact absurd (connected_closeConnection.symm.trans hc) (by decide)
    · exact ⟨hc, rfl, rfl⟩

/-- A final offset of a closed stream is known when it has been received. -/
theorem WhileOpen.creditKnown (h : WhileOpen (Books c F G N M) s) (hn : F id < 2 ^ 64)
    (hS : s.connected = true → Settled s id ∨ Settles s id (F id))
    (hclosed : s.connected = true → HasStream s id ∧ id ∉ s.tables.dynamicIds)
    (hG : ∀ x, G' x → G x ∨ x = id) :
    WhileOpen (Books c F G' N M) (s.onFinalByteOffsetReceived id (F id)) := by
  have hcredit := h.credit hn hS
  refine ⟨hcredit.1, fun hc => (hcredit.2 hc).learn fun x hx => (hG x hx).imp_right ?_⟩
  rintro rfl
  obtain ⟨hcs, hstreams, hdyn⟩ := Session.same_of_onFinalByteOffsetReceived hc
  obtain ⟨hhas, hid⟩ := hclosed hcs
  refine Known.of_settled ?_ ?_ (settled_onFinalByteOffsetReceived hc)
  · exact hhas.congr (fun q => by rw [hstreams]) fun q => by rw [hstreams]
  · unfold Tables.dynamicIds at hid ⊢
    rwa [hdyn]

theorem Session.getOrCreateStream_of_static (hs : isStaticId id = true) :
    ∃ p < 2, s.getOrCreateStream id = (some p, s) ∧ s.lookup id = some p := by
  unfold getOrCreateStream lookup
  simp only [isStaticId, Bool.or_eq_true, decide_eq_true_eq] at hs
  rcases hs with rfl | rfl
  · exact ⟨0, by decide, rfl, rfl⟩
  · exact ⟨1, by decide, rfl, rfl⟩

theorem Session.getOrCreateStream_of_dynamic (hs : isStaticId id = false) :
    s.getOrCreateStream id = s.getOrCreateDynamicStream id ∧ s.lookup id = s.findDynamic id := by
  simp only [isStaticId, Bool.or_eq_false_iff, decide_eq_false_iff_not] at hs
  unfold getOrCreateStream lookup
  rw [if_neg hs.1, if_neg hs.2, if_neg hs.1, if_neg hs.2]
  exact ⟨rfl, rfl⟩

/-- **A data frame** that follows the plan. -/
theorem WhileOpen.followFrame (h : WhileOpen (Books c P.final G N M) s) (hc : s.connected = true)
    (hroom : s.Roomy) (hx : s.keepsTo (.streamFrame m r)) (hP : s.follows P (.streamFrame m r))
    (hadmitted : Admitted s m.streamId)
    (hG : ∀ x, G' x → G x ∨ x ∈ P.streams ∧ (Op.streamFrame m r).finishes x = true) :
    WhileOpen (Books c P.final G' (insert m.streamId N) M) (s.onStreamFrame m r) := by
  obtain ⟨hsum, hoff, hfinal⟩ := hx
  have hG' : ∀ x, G' x → G x ∨ x = m.streamId ∧ m.fin = true := by
    refine fun x hx => (hG x hx).imp_right fun h => ?_
    have hfin := Bool.and_eq_true_iff.1 h.2
    exact ⟨(of_decide_eq_true hfin.2).symm, hfin.1⟩
  have T := @taking_books P.final G' c (insert m.streamId N) M
  unfold Session.onStreamFrame
  by_cases hforeign : (s.isServer && !s.tables.isIncomingStream m.streamId) = true
  · rw [if_pos hforeign]
    exact .closeConnection h.1
  rw [if_neg hforeign]
  cases hs : isStaticId m.streamId with
  | true =>
    obtain ⟨p, hp, hget, hlook⟩ := Session.getOrCreateStream_of_static (s := s) hs
    have hstay : WhileOpen (Books c P.final G' (insert m.streamId N) M) s := by
      refine ⟨h.1, fun hc => ((h.2 hc).stay (.inl hs)).learn fun x hx => ?_⟩
      refine (hG x hx).imp_right fun hfin => ?_
      obtain rfl := of_decide_eq_true (Bool.and_eq_true_iff.1 hfin.2).2
      exact absurd (hs.symm.trans (P.dynamic _ hfin.1).1) (by decide)
    have hstatic := (h.2 hc).1.static p hp
    have hp' := hp.trans_le h.1.two_le
    rw [hget]
    exact T.frame (T.noteFin hstay) hc hp' (fun _ => ⟨hsum, hroom.2 p hp', hroom.1⟩)
      (fun hfin h0 => hoff hfin h0 p hlook)
      (fun _ _ _ st hst => .inl ((congrArg Prod.fst hst).trans hstatic)) (.inl hstatic)
  | false =>
    obtain ⟨hmem, hle, hend⟩ := hP.resolve_left (by rw [hs]; decide)
    obtain ⟨hget, hlook⟩ := Session.getOrCreateStream_of_dynamic (s := s) hs
    have h0 := (P.dynamic _ hmem).2
    have hQ := h.look hc hs h0 hadmitted
    rw [hget]
    rw [hlook] at hoff
    cases hget : s.getOrCreateDynamicStream m.streamId with
    | mk o u =>
      rw [hget] at hQ
      cases o with
      | none =>
        dsimp only
        split_ifs with hfin
        · rw [hend hfin] at hfinal ⊢
          refine hQ.creditKnown ((hend hfin).symm.trans_lt wrapAdd_lt)
            (fun hu => .inr ((hfinal hfin).of_none hget hu)) (fun hu => ?_)
            fun x hx => (hG' x hx).imp_right And.left
          obtain ⟨rfl, hf, hcl⟩ := Session.closed_of_none hget hc hs h0 hadmitted hu
          exact ⟨(h.2 hc).1.of_closed hcl h0, valueAt_eq_none_iff.1 hf⟩
        · exact ⟨hQ.1, fun hu => (hQ.2 hu).learn fun x hx =>
            (hG' x hx).imp_right fun h => absurd h.2 hfin⟩
      | some p =>
        have hdyn := mem_of_getOrCreateDynamicStream (congrArg Prod.fst hget)
        rw [hget] at hdyn
        obtain ⟨hcu, hflow, hwindow, hoff⟩ := Session.found_of_some
          (B := fun st => Below st.flowController.receiveWindowOffset ∧
            (m.fin = true → m.dataLength ≠ 0 → st.sequencer.closeOffset = kMaxOffset ∨
              m.stop = st.sequencer.closeOffset)) hget
          (fun p hp => ⟨hroom.2 p (h.1.lt _ (mem_of_findDynamic hp)),
            fun hfin h0 => hoff hfin h0 p hp⟩)
          fun _ w => ⟨s.config.below_initial, fun _ _ => .inl rfl⟩
        have hcu' := hcu.trans hc
        have hid : (u.streams p).id = m.streamId := hQ.1.id_eq _ hdyn
        have hagrees := (hQ.2 hcu').2.stream p (hQ.1.isStatic _ hdyn)
        refine T.frame (hQ.noteFin hdyn hG') hcu' (hQ.1.lt _ hdyn)
          (fun _ => ⟨hsum, hwindow, hflow ▸ hroom.1⟩) hoff (fun hfin hne hstop => ?_) (.inr ?_)
        · refine absurd ((hend hfin).trans ?_) hstop
          rw [hagrees.closeOffset hne, hid]
        · show m.stop ≤ P.final (u.streams p).id ∧ (_ → m.stop = P.final (u.streams p).id)
          rw [hid]
          exact ⟨hle, hend⟩

/-- **A reset of the peer** that follows the plan. -/
theorem WhileOpen.followReset {f : RstStreamFrame} (h : WhileOpen (Books c P.final G N M) s)
    (hc : s.connected = true) (hroom : s.Roomy) (hx : s.keepsTo (.rstStream f))
    (hP : s.follows P (.rstStream f)) (hadmitted : Admitted s f.streamId)
    (hG : ∀ x, G' x → G x ∨ x ∈ P.streams ∧ (Op.rstStream f).finishes x = true) :
    WhileOpen (Books c P.final G' (insert f.streamId N) M) (s.onRstStream f) := by
  obtain ⟨hfits, hfinal⟩ := hx
  obtain ⟨hmem, hend⟩ := hP
  obtain ⟨hs, h0⟩ := P.dynamic _ hmem
  have hG' : ∀ x, G' x → G x ∨ x = f.streamId :=
    fun x hx => (hG x hx).imp_right fun h => (of_decide_eq_true h.2).symm
  have T := @taking_books P.final G' c (insert f.streamId N) M
  have hQ := h.look hc hs h0 hadmitted
  unfold Session.onRstStream
  rw [if_neg (by rw [hs]; decide)]
  cases hget : s.getOrCreateDynamicStream f.streamId with
  | mk o u =>
    rw [hget] at hQ
    cases o with
    | none =>
      have hclosed := Session.closed_of_none hget hc hs h0 hadmitted
      dsimp only
      split_ifs with hcl
      · have hlt := f.byteOffset.toNat_lt
        rw [hend] at hfinal hlt ⊢
        refine hQ.creditKnown hlt (fun hu => .inr (hfinal.of_none hget hu)) (fun hu => ?_) hG'
        obtain ⟨rfl, hf, hcl⟩ := hclosed hu
        exact ⟨(h.2 hc).1.of_closed hcl h0, valueAt_eq_none_iff.1 hf⟩
      · refine ⟨hQ.1, fun hu => absurd ?_ hcl⟩
        obtain ⟨rfl, -, hcl⟩ := hclosed hu
        exact hcl
    | some p =>
      have hdyn := mem_of_getOrCreateDynamicStream (congrArg Prod.fst hget)
      rw [hget] at hdyn
      obtain ⟨hcu, hin, hwindow, hroomU⟩ := hfits.of_some h.1 hroom hget
      have hid : (u.streams p).id = f.streamId := hQ.1.id_eq _ hdyn
      have hB := hQ.2 (hcu.trans hc)
      have hd : u.isDynamic p = true := decide_eq_true (List.mem_map.2 ⟨_, hdyn, rfl⟩)
      have hend' : f.byteOffset.toNat = P.final (u.streams p).id := by rw [hid, hend]
      refine T.onStreamReset ⟨hQ.1.peerReset, fun _ => ?_⟩
      have hledger := hB.2.peerReset hB.1 hQ.1 hd (hend' ▸ hin) hwindow hroomU
      rw [← hend'] at hledger
      obtain ⟨hrst, htables⟩ := u.peerReset_marks p f.byteOffset.toNat
      have hhandles : Handles c (insert f.streamId N) M ((u.modify p fun st =>
          { st with rstReceived := true }).maybeIncreaseHighestReceivedOffset p
            f.byteOffset.toNat) := by
        unfold Session.maybeIncreaseHighestReceivedOffset
        split_ifs
        · exact hB.1.modify rfl rfl
        · exact indifferent_handles.increaseHighestReceivedOffset (hB.1.modify rfl rfl)
      refine Books.learn ⟨hhandles, hledger⟩ fun x hx => (hG' x hx).imp_right ?_
      rintro rfl
      refine Known.of_dynamic hledger hQ.1.peerReset (htables ▸ hdyn) ?_
      unfold Stream.hasFinalReceivedByteOffset
      rw [hrst, Bool.or_true]

/-! ## Header blocks -/

/-- Trailers that are accepted name the final offset. -/
theorem mem_of_copyAndValidateTrailers {found : Option UInt64} {offset : UInt64}
    (h : copyAndValidateTrailers found headers = some offset) :
    found = some offset ∨ ∃ x ∈ headers, offset ∈ x.offset := by
  induction headers generalizing found with
  | nil => exact .inl h
  | cons x l ih =>
    have hrest : (∃ y ∈ l, offset ∈ y.offset) → ∃ y ∈ x :: l, offset ∈ y.offset :=
      fun ⟨y, hy, ho⟩ => ⟨y, List.mem_cons_of_mem _ hy, ho⟩
    cases x with
    | plain => exact (ih h).imp_right hrest
    | malformed => exact absurd h (by cases found <;> simp [copyAndValidateTrailers])
    | finalOffset value =>
      cases found with
      | some n => exact absurd h (by simp [copyAndValidateTrailers])
      | none =>
        cases value with
        | none => exact absurd h (by simp [copyAndValidateTrailers])
        | some v =>
          rcases ih h with hv | hl
          · exact .inr ⟨_, List.mem_cons_self .., hv⟩
          · exact .inr (hrest hl)

/-- **What the loop over trailers leaves**: streams stay, and a final offset that is named
has been received. -/
theorem Session.same_of_onTrailersOfClosed
    (hc : (onTrailersOfClosed id headers s).connected = true) :
    s.connected = true ∧ (onTrailersOfClosed id headers s).streams = s.streams ∧
      (onTrailersOfClosed id headers s).tables.dynamicStreams = s.tables.dynamicStreams ∧
      (Settled s id ∨ (∃ x ∈ headers, x.offset.isSome = true) →
        Settled (onTrailersOfClosed id headers s) id) := by
  induction headers generalizing s with
  | nil => exact ⟨hc, rfl, rfl, fun h => h.elim (fun h => h) fun ⟨_, hx, _⟩ => by simp at hx⟩
  | cons x l ih =>
    cases x with
    | plain =>
      obtain ⟨h₁, h₂, h₃, h₄⟩ := ih hc
      exact ⟨h₁, h₂, h₃, fun h => h₄ (h.imp_right fun h => by simpa [Header.offset] using h)⟩
    | malformed =>
      obtain ⟨h₁, h₂, h₃, h₄⟩ := ih hc
      exact ⟨h₁, h₂, h₃, fun h => h₄ (h.imp_right fun h => by simpa [Header.offset] using h)⟩
    | finalOffset value =>
      cases value with
      | none => exact absurd (connected_closeConnection.symm.trans hc) (by decide)
      | some offset =>
        obtain ⟨h₁, h₂, h₃, h₄⟩ := ih hc
        obtain ⟨hc', hstreams, hdyn⟩ := same_of_onFinalByteOffsetReceived h₁
        exact ⟨hc', h₂.trans hstreams, h₃.trans hdyn,
          fun _ => h₄ (.inl (settled_onFinalByteOffsetReceived h₁))⟩

namespace WhileOpen

/-- **A header block for a stream that is closed.** -/
theorem closedHeaders (h : WhileOpen (Books c F G N M) s)
    (hends : ∀ x ∈ headers, x.EndsAt (F id))
    (hS : s.connected = true → ∀ x ∈ headers, ∀ offset ∈ x.offset, Settles s id offset.toNat)
    (hclosed : s.connected = true → HasStream s id ∧ id ∉ s.tables.dynamicIds)
    (hfin : fin = true → F id = 0 ∨ ∃ x ∈ headers, x.offset.isSome = true)
    (hG : ∀ x, G' x → G x ∨ x = id ∧ fin = true) :
    WhileOpen (Books c F G' N M) (Session.onTrailersOfClosed id headers s) := by
  have hloop : WhileOpen (Books c F G N M) (Session.onTrailersOfClosed id headers s) := by
    refine h.onTrailersOfClosed (O := fun offset => offset.toNat = F id)
      (fun {t offset} ht hO hS => ?_) hends fun hc => .inr (hS hc)
    rw [hO] at hS ⊢
    exact ht.credit (hO.symm.trans_lt offset.toNat_lt) hS
  refine ⟨hloop.1, fun hc => (hloop.2 hc).learn fun x hx => (hG x hx).imp_right ?_⟩
  rintro ⟨rfl, hf⟩
  obtain ⟨hcs, hstreams, hdyn, hsettled⟩ := Session.same_of_onTrailersOfClosed hc
  obtain ⟨hhas, hid⟩ := hclosed hcs
  have hhas' : HasStream (Session.onTrailersOfClosed x headers s) x :=
    hhas.congr (fun q => by rw [hstreams]) fun q => by rw [hstreams]
  have hid' : x ∉ (Session.onTrailersOfClosed x headers s).tables.dynamicIds := by
    unfold Tables.dynamicIds at hid ⊢
    rwa [hdyn]
  rcases hfin hf with hzero | hnamed
  · exact .of_eq_zero (hloop.2 hc).2 hhas' hid' hzero
  · exact .of_settled hhas' hid' (hsettled (.inr hnamed))

/-- **A header block for an open stream.** -/
theorem openHeaders (h : WhileOpen (Books c F G N M) s) (hc : s.connected = true)
    (hmem : (id, p) ∈ s.tables.dynamicStreams) (hs : isStaticId id = false)
    (hreset : headers = [] → (s.streams p).hasFinalReceivedByteOffset = true →
      Complete F (s.streams p))
    (hends : ∀ x ∈ headers, x.EndsAt (F id))
    (hfin : fin = true → F id = 0 ∨ (s.streams p).headersDecompressed = true ∧ headers ≠ [])
    (hG : ∀ x, G' x → G x ∨ x = id ∧ fin = true) :
    WhileOpen (Books c F G' N M) (s.streamOnStreamHeaderList p fin headers r) := by
  have T := @taking_books F G' c N M
  have K := (@keeps_books F G c N M).unwritten
  have hp := h.1.lt _ hmem
  have hid : (s.streams p).id = id := h.1.id_eq _ hmem
  have hstatic := h.1.isStatic _ hmem
  unfold Session.streamOnStreamHeaderList
  dsimp only
  cases headers with
  | cons x l =>
    have hagrees := (h.2 hc).2.stream p hstatic
    simp only [List.isEmpty_cons, Bool.false_and, Bool.false_eq_true, if_false]
    split_ifs with hdec
    · have hzero : fin = true → F id = 0 := fun hf => (hfin hf).resolve_right fun hd => by
        rw [hd.1] at hdec
        exact absurd hdec (by decide)
      refine T.onInitialHeadersComplete
        ((K.mark h ⟨rfl, rfl, rfl, rfl, rfl, rfl, rfl, rfl, rfl, rfl, fun h => h⟩).noteFin hmem hG)
        hc hp (fun hf _ hne h0 => ?_)
        fun hf _ => .of_eq ((hzero hf).symm.trans (by rw [← hid]; rfl))
      rw [hagrees.closeOffset hne, hid, hzero hf] at h0
      exact absurd rfl h0
    · refine T.onTrailingHeadersComplete h.1 hc hp fun offset hcopy hf => ?_
      have hoffset : offset.toNat = F id := by
        rcases mem_of_copyAndValidateTrailers hcopy with h | ⟨y, hy, ho⟩
        · exact absurd h (by simp)
        · exact hends y hy offset ho
      refine ⟨(K.mark h ⟨rfl, rfl, rfl, rfl, rfl, rfl, rfl, rfl, rfl, rfl, fun h => h⟩).noteFin hmem
        fun x hx => (hG x hx).imp_right fun h => ⟨h.1, rfl⟩, fun hne hstop => ?_,
        .of_eq (hoffset.trans (by rw [← hid]; rfl))⟩
      rw [hagrees.closeOffset hne, hid, hoffset] at hstop
      exact absurd rfl hstop
  | nil =>
    -- The block was too large: the stream is reset before its FIN is looked at.
    have hzero : fin = true → F id = 0 := fun hf => (hfin hf).resolve_right fun hd => hd.2 rfl
    have hquit : WhileOpen (Books c F G N M) (s.reset p) := K.resetStream h (hreset rfl)
    have hcr : (s.reset p).connected = true := Session.connected_reset.trans hc
    have hunsent := (indifferent_unsent s).reset (p := p) (Unsent.refl s)
    have hgone : id ∉ (s.reset p).tables.dynamicIds := by
      have L := leaves_closeStreamInner (b := true) (h.2 hc).2.received h.1
        ((valueAt_eq_some_iff h.1.nodup).2 hmem)
      unfold Session.reset Session.sendRstStream
      rw [hid, if_neg (by rw [hs]; decide), Session.tables_modify, L.tables]
      exact fun hx => (Tables.mem_dynamicIds_closeStream.1 hx).2 rfl
    have hhas : HasStream (s.reset p) id := (Handles.of_dynamic h.1 hmem).congr
      (fun q => (hunsent.similar q).id) fun q => (hunsent.similar q).isStatic
    have hlearn : WhileOpen (Books c F G' N M) (s.reset p) := by
      refine ⟨hquit.1, fun hc => (hquit.2 hc).learn fun x hx => (hG x hx).imp_right ?_⟩
      rintro ⟨rfl, hf⟩
      exact .of_eq_zero (hquit.2 hc).2 hhas hgone (hzero hf)
    have hagrees := (hlearn.2 hcr).2.stream p ((hunsent.similar p).isStatic.trans hstatic)
    have hid' : ((s.reset p).streams p).id = id := (hunsent.similar p).id.trans hid
    have hpr : p < (s.reset p).numStreams := hunsent.numStreams ▸ hp
    rw [List.isEmpty_nil, if_pos rfl]
    split_ifs
    · exact hlearn
    · refine T.onInitialHeadersComplete (T.noteFin (T.toKeeps.unwritten.mark hlearn
        ⟨rfl, rfl, rfl, rfl, rfl, rfl, rfl, rfl, rfl, rfl, fun h => h⟩)) hcr hpr
        (fun hf _ hne h0 => ?_) fun hf _ => .of_eq ((hzero hf).symm.trans (by rw [← hid']; rfl))
      rw [hagrees.closeOffset hne, hid', hzero hf] at h0
      exact absurd rfl h0
    · exact T.onTrailingHeadersComplete hlearn.1 hcr hpr fun offset hcopy => absurd hcopy (by
        simp [copyAndValidateTrailers])

/-- **A header block** that follows the plan. -/
theorem followHeaders (h : WhileOpen (Books c P.final G N M) s) (hc : s.connected = true)
    (hx : s.keepsTo (.headerList id fin headers r))
    (hP : s.follows P (.headerList id fin headers r))
    (hspares : s.spares P (.headerList id fin headers r))
    (hG : ∀ x, G' x → G x ∨ x ∈ P.streams ∧ (Op.headerList id fin headers r).finishes x = true) :
    WhileOpen (Books c P.final G' (insert id N) M) (s.onStreamHeaderList id fin headers r) := by
  obtain ⟨hmem, hends, hfin⟩ := hP
  obtain ⟨hadmitted, hreset⟩ := hspares
  obtain ⟨hs, h0⟩ := P.dynamic _ hmem
  have hG' : ∀ x, G' x → G x ∨ x = id ∧ fin = true := by
    refine fun x hx => (hG x hx).imp_right fun h => ?_
    have hf := Bool.and_eq_true_iff.1 h.2
    exact ⟨(of_decide_eq_true hf.2).symm, hf.1⟩
  have hQ := h.look hc hs h0 hadmitted
  unfold Session.onStreamHeaderList
  cases hget : s.getOrCreateDynamicStream id with
  | mk o u =>
    rw [hget] at hQ
    cases o with
    | none =>
      refine hQ.closedHeaders hends (fun hu y hy offset ho => (hx y hy offset ho).of_none hget hu)
        (fun hu => ?_) (fun hf => (hfin hf).imp_right And.right) hG'
      obtain ⟨rfl, hf, hcl⟩ := Session.closed_of_none hget hc hs h0 hadmitted hu
      exact ⟨(h.2 hc).1.of_closed hcl h0, valueAt_eq_none_iff.1 hf⟩
    | some p =>
      have hdyn := mem_of_getOrCreateDynamicStream (congrArg Prod.fst hget)
      rw [hget] at hdyn
      obtain ⟨hcu, -, hres, hdec⟩ := Session.found_of_some
        (B := fun st => (headers = [] → st.hasFinalReceivedByteOffset = true →
            Complete P.final st) ∧
          (s.takesTrailers id = true → st.headersDecompressed = true)) hget
        (fun p hp => ⟨fun h₀ => hreset h₀ p hp, fun ht => by
          unfold Session.takesTrailers at ht
          rwa [hp] at ht⟩)
        fun hn w => ⟨fun _ hf => absurd hf (by simp [Stream.hasFinalReceivedByteOffset,
            Config.newStream]), fun ht => by
          unfold Session.takesTrailers at ht
          rw [hn.find] at ht
          exact absurd (hn.not_closed.symm.trans ht) (by decide)⟩
      refine hQ.openHeaders (hcu.trans hc) hdyn hs hres hends (fun hf => ?_) hG'
      refine (hfin hf).imp_right ?_
      rintro ⟨ht, y, hy, -⟩
      exact ⟨hdec ht, List.ne_nil_of_mem hy⟩

/-- **A window update** receives nothing. -/
theorem followWindow {offset : UInt64} {as : List Answer} (h : WhileOpen (Books c F G N M) s)
    (hc : s.connected = true) (hadmitted : Admitted s id) :
    WhileOpen (Books c F G (insert id N) M) (s.onWindowUpdateFrame id offset as) := by
  have U := (@keeps_books F G c (insert id N) M).unwritten
  unfold Session.onWindowUpdateFrame
  split_ifs with h0
  · exact U.sending (b := s.sentTooMuch) ⟨h.1, fun hc => (h.2 hc).stay (.inr (.inr h0))⟩
  cases hs : isStaticId id with
  | true =>
    obtain ⟨p, -, hget, -⟩ := Session.getOrCreateStream_of_static (s := s) hs
    rw [hget]
    exact U.streamOnWindowUpdateFrame (fun h => h.1) ⟨h.1, fun hc => (h.2 hc).stay (.inl hs)⟩
  | false =>
    have hQ := h.look hc hs h0 hadmitted
    rw [(Session.getOrCreateStream_of_dynamic hs).1]
    generalize s.getOrCreateDynamicStream id = x at hQ ⊢
    obtain ⟨_ | p, u⟩ := x
    · exact hQ
    · exact U.streamOnWindowUpdateFrame (fun h => h.1) hQ

end WhileOpen

end Frames

end Streams
end QuicNs3
