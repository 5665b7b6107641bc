/-
# Receive credit is conserved

What the peer sends on its streams is counted for the connection too.  When every stream
has ended, the count should be the sum of the final offsets, whatever became of the streams
meanwhile: if it is less, the peer has a smaller window for good.

It can be less (`not_credit_conserved`).  A FIN without data tells the final offset and does
not raise the highest one.  If the stream is reset locally before the data is there, its
final offset is known and nothing is recorded for it, but only the highest offset received
has been counted.  And nothing is counted for a stream that is refused
(`exists_refused_credit`).

`credit_conserved` is what is left: if no stream is refused, and none is reset between its
FIN and the last of its data, the count is the sum.
-/

import QuicNs3.Streams.Plan

namespace QuicNs3
namespace Streams

open Lib

variable {G G' : ℕ → Prop} {c : Config} {N M : Finset ℕ} {s t : Session}

/-! ## Steps -/

/-- The ids that frames have named, with that of this one. -/
def Op.note (N : Finset ℕ) (op : Op) : Finset ℕ :=
  match op.names with
  | none => N
  | some id => insert id N

section Steps

variable {P : Plan} {op : Op} {e : Environment} {xs : List (Op × Environment)}

/-- **One frame** that follows the plan. -/
theorem WhileOpen.followStep (h : WhileOpen (Books c P.final G N M) s) (hc : s.connected = true)
    (hroom : s.Roomy) (hx : s.keepsTo op) (hP : s.follows P op) (hspares : s.spares P op)
    (hG : ∀ x, G' x → G x ∨ x ∈ P.streams ∧ op.finishes x = true) (hop : op.isFrame = true)
    (ht : s.apply op = some t) : WhileOpen (Books c P.final G' (op.note N) M) t := by
  cases Op.frame_of_isFrame hop with
  | streamFrame m r => exact Option.some.inj ht ▸ h.followFrame hc hroom hx hP hspares hG
  | rstStream f => exact Option.some.inj ht ▸ h.followReset hc hroom hx hP hspares hG
  | headerList id fin headers r => exact Option.some.inj ht ▸ h.followHeaders hc hx hP hspares hG
  | windowUpdate id offset as =>
    obtain rfl := Option.some.inj ht
    have hQ : WhileOpen (Books c P.final G (insert id N) M) (s.onWindowUpdateFrame id offset as) :=
      h.followWindow hc hspares
    exact ⟨hQ.1, fun hc => (hQ.2 hc).learn fun x hx =>
      (hG x hx).imp_right fun h => absurd h.2 Bool.false_ne_true⟩
  | goaway =>
    obtain rfl := Option.some.inj ht
    refine ⟨h.1.goaway, fun hc => ?_⟩
    have hL := (h.2 hc).1.lived
    have hB : Books c P.final G N M { s with goawayReceived := true } :=
      (h.2 hc).congr ⟨hL.lived, hL.named, hL.config⟩ rfl rfl rfl rfl rfl rfl rfl
    exact hB.learn fun x hx => (hG x hx).imp_right fun h => absurd h.2 Bool.false_ne_true

/-- **The peer is fair**: its frames keep to the windows and follow the plan. -/
def Session.fair (P : Plan) (s : Session) (op : Op) : Prop :=
  s.Roomy ∧ s.keepsTo op ∧ s.follows P op

instance : Decidable (s.fair P op) := instDecidableAnd

theorem Session.follows_arrive {op' : Op} : (s.arrive op e).follows P op' = s.follows P op' := by
  cases op' <;> rfl

theorem Session.spares_arrive {op' : Op} : (s.arrive op e).spares P op' = s.spares P op' := by
  cases op' <;> rfl

/-- The state of a session between two steps, where `G` are the streams whose final offset
has been received. -/
def Accounted (c : Config) (P : Plan) (G : ℕ → Prop) : Session → Prop :=
  WhileOpen fun s => Books c P.final G s.tables.named s.tables.named s

theorem Accounted.learn (h : Accounted c P G s) (hG : ∀ x, G' x → G x) : Accounted c P G' s :=
  ⟨h.1, fun hc => (h.2 hc).learn fun x hx => .inl (hG x hx)⟩

/-- **One step.** -/
theorem Accounted.step (h : Accounted c P G s) (hfair : s.fair P op) (hspares : s.spares P op)
    (ht : s.step (op, e) = some t) :
    Accounted c P (fun id => G id ∨ id ∈ P.streams ∧ op.finishes id = true) t := by
  obtain ⟨hroom, hx, hP⟩ := hfair
  obtain ⟨hconn, ht⟩ := Session.step_eq_some ht
  have harrive : WhileOpen (Books c P.final G s.tables.named (op.note s.tables.named))
      (s.arrive op e) := by
    refine ⟨h.1.arrive, fun hc => (h.2 hc).congr ((h.2 hc).1.lived.arrive rfl) ?_ ?_ ?_ ?_ ?_ ?_ ?_⟩
    all_goals rfl
  have hfinish : ∀ {G' : ℕ → Prop} {M}, WhileOpen (Books c P.final G' M M) t →
      Accounted c P G' t := by
    refine fun h => ⟨h.1, fun hc => ?_⟩
    have hB := h.2 hc
    show Books c P.final _ t.tables.named t.tables.named t
    rw [hB.1.lived.named]
    exact hB
  by_cases hop : op.isFrame = true
  · refine hfinish (harrive.followStep (hconn hop) hroom ?_ ?_ ?_ (fun x hx => hx) hop ht)
    · rwa [Session.keepsTo_arrive]
    · rwa [Session.follows_arrive]
    · rwa [Session.spares_arrive]
  · have hop' := Bool.eq_false_iff.2 hop
    have hnote : op.note s.tables.named = s.tables.named := by
      unfold Op.note
      rw [Op.names_of_not_isFrame hop']
    rw [hnote] at harrive
    have hlocal : WhileOpen (Books c P.final G s.tables.named s.tables.named) t := by
      refine keeps_books.unwritten.local_step (fun h => h.1) (fun h => ?_) hop' (fun p hp => ?_)
        harrive ht
      · refine ⟨h.1.createOutgoingDynamicStream, fun hc =>
          (h.2 ?_).createOutgoingDynamicStream h.1⟩
        unfold Session.createOutgoingDynamicStream at hc
        split_ifs at hc
        · exact hc
        · exact hc
      · cases op <;> try exact hp.elim
        · obtain ⟨rfl, hlt⟩ := hp
          exact hspares hlt
        · obtain rfl := hp
          exact hspares
    refine (hfinish hlocal).learn fun x hx => hx.resolve_right fun hf => hop ?_
    cases op <;> first | exact absurd hf.2 Bool.false_ne_true | rfl

/-- **A run**, by induction on its steps: every final offset it has brought is known. -/
theorem Accounted.run (h : Accounted c P G s)
    (hxs : EachStep Session.step (fun s x => s.fair P x.1 ∧ s.spares P x.1) s xs)
    (ht : run Session.step s xs = some t) :
    Accounted c P (fun id => G id ∨ id ∈ P.streams ∧ ∃ x ∈ xs, x.1.finishes id = true) t := by
  induction xs generalizing s G with
  | nil =>
    obtain rfl := Option.some.inj ht
    exact h.learn fun id hid => hid.resolve_right fun ⟨_, x, hx, _⟩ => List.not_mem_nil hx
  | cons x xs ih =>
    obtain ⟨hx, hrest⟩ := eachStep_cons.1 hxs
    obtain ⟨u, hu, ht⟩ := Option.bind_eq_some_iff.1 ht
    refine (ih (h.step hx.1 hx.2 hu) (hrest u hu) ht).learn fun id hid => ?_
    rcases hid with hid | ⟨hmem, y, hy, hf⟩
    · exact .inl (.inl hid)
    · rcases List.mem_cons.1 hy with rfl | hy
      · exact .inl (.inr ⟨hmem, hf⟩)
      · exact .inr ⟨hmem, y, hy, hf⟩

end Steps

/-! ## The end -/

section End

variable {P : Plan}

theorem Handles.new (c : Config) (e : Environment) : Handles c ∅ ∅ (Session.new c e) where
  lived := (Alive.new c e).2
  lt := fun _ hp => absurd hp (by simp [Session.new, Config.newStream])
  static := fun _ _ => rfl
  staticId := by
    intro p
    show isStaticId (if p = 0 then 1 else 3) = true
    split_ifs <;> rfl
  unique := fun _ _ hp => absurd hp (by simp [Session.new, Config.newStream])
  created := fun _ hp => absurd hp (by simp [Session.new, Config.newStream])
  lt_next := fun _ hp => absurd hp (by simp [Session.new, Config.newStream])
  next := by
    unfold Session.new
    cases c.perspective <;> rfl
  peer := fun x hx => absurd hx (Finset.notMem_empty x)
  own := by
    intro x hs h0 hp hlt
    simp only [isStaticId, Bool.or_eq_false_iff, decide_eq_false_iff_not] at hs
    revert hp hlt
    unfold Session.new
    cases c.perspective
    · dsimp only
      omega
    · dsimp only
      omega

theorem Accounted.new (P : Plan) (c : Config) (e : Environment) :
    Accounted c P (fun _ => False) (Session.new c e) := by
  refine ⟨Formed.new c e, fun _ => ⟨Handles.new c e, ⟨Received.new c e, fun p hp => ?_,
    fun id offset hval => ?_, fun id hid => hid.elim, ?_⟩⟩⟩
  · exact absurd hp (by simp [Session.new, Config.newStream])
  · exact absurd hval (by simp [Session.new, valueAt])
  · rfl

/-- **The run is over for the peer**: every final offset has been received, and no stream it
uses is open. -/
def Over (P : Plan) (xs : List (Op × Environment)) (s : Session) : Prop :=
  ∀ id ∈ P.streams, (∃ x ∈ xs, x.1.finishes id = true) ∧ id ∉ s.tables.dynamicIds

instance {xs : List (Op × Environment)} : Decidable (Over P xs s) :=
  inferInstanceAs (Decidable (∀ id ∈ P.streams, _))

/-- **The credit is conserved**: the sum of the final offsets has been received, and all of
it consumed. -/
def Conserved (P : Plan) (s : Session) : Prop :=
  s.flowController.highestReceivedByteOffset = ∑ id ∈ P.streams, P.final id ∧
    s.flowController.bytesConsumed = ∑ id ∈ P.streams, P.final id

/-- At the end a stream counts for its final offset. -/
theorem Ledger.credit_eq (h : Ledger P.final G s) (hF : Formed s)
    (hG : ∀ id ∈ P.streams, G id) (hclosed : ∀ id ∈ P.streams, id ∉ s.tables.dynamicIds) (p : ℕ) :
    s.credit P.final p = if (s.streams p).isStatic then 0 else P.final (s.streams p).id := by
  unfold Session.credit
  by_cases hs : (s.streams p).isStatic = true
  · rw [if_pos hs, if_pos hs]
  rw [if_neg hs, if_neg hs]
  by_cases hmem : (s.streams p).id ∈ P.streams
  · have hd : s.isDynamic p = false := Bool.eq_false_iff.2 fun hd =>
      hclosed _ hmem (hF.mem_dynamicIds hd).1
    rw [hd, if_neg (by decide)]
    cases hval : valueAt (s.streams p).id s.tables.locallyClosedStreams with
    | none => rfl
    | some offset => exact (h.known _ (hG _ hmem)).settled offset hval
  · have hzero := P.unused _ hmem
    rw [hzero]
    split_ifs with hd
    · have := (h.stream p (Bool.eq_false_iff.2 hs)).le
      omega
    · cases hval : valueAt (s.streams p).id s.tables.locallyClosedStreams with
      | none => rfl
      | some offset =>
        have := (h.recorded _ offset hval).2.1
        show offset = 0
        omega

/-- **The streams that the peer uses** are those that count for something. -/
theorem Books.sum_final (h : Books c P.final G N M s) (hG : ∀ id ∈ P.streams, G id) :
    ∑ p ∈ Finset.range s.numStreams,
        (if (s.streams p).isStatic then 0 else P.final (s.streams p).id) =
      ∑ id ∈ P.streams, P.final id := by
  rw [← Finset.sum_filter_of_ne
    (p := fun p => (s.streams p).isStatic = false ∧ (s.streams p).id ∈ P.streams)]
  · refine Finset.sum_nbij (fun p => (s.streams p).id) (fun p hp => ?_) (fun p hp q hq heq => ?_)
      (fun id hid => ?_) fun p hp => ?_
    · exact (Finset.mem_filter.1 hp).2.2
    · exact h.1.unique p q (Finset.mem_filter.1 hp).2.1 (Finset.mem_filter.1 hq).2.1 heq
    · obtain ⟨p, hs, rfl⟩ := (h.2.known id (hG id hid)).hasStream
      exact ⟨p, Finset.mem_filter.2 ⟨Finset.mem_range.2 (h.1.lt p hs), hs, hid⟩, rfl⟩
    · rw [(Finset.mem_filter.1 hp).2.1]
      rfl
  · intro p _ hne
    split_ifs at hne with hs
    · exact absurd rfl hne
    · exact ⟨Bool.eq_false_iff.2 hs, by_contra fun hmem => hne (P.unused _ hmem)⟩

/-- Nothing waits to be consumed. -/
theorem Ledger.pending_eq_zero (h : Ledger P.final G s) (hF : Formed s)
    (hclosed : ∀ id ∈ P.streams, id ∉ s.tables.dynamicIds) (p : ℕ) : s.pending p = 0 := by
  unfold Session.pending
  split_ifs with hd
  · have hs := hF.isStatic_of_isDynamic hd
    have hzero := P.unused _ fun hmem => hclosed _ hmem (hF.mem_dynamicIds hd).1
    have := (h.stream p hs).le
    unfold Stream.unconsumed
    omega
  · rfl

/-- **Receive credit is conserved.**  In every run with a fair peer in which no stream is
refused, and none is reset between its FIN and the last of its data: once every final offset
has been received and all streams are closed, the session has received and consumed the sum
of the final offsets. -/
theorem credit_conserved (P : Plan) (c : Config) (e : Environment) (xs : List (Op × Environment))
    (hxs : EachStep Session.step (fun s x => s.fair P x.1 ∧ s.spares P x.1) (Session.new c e) xs)
    (s : Session) (hs : run Session.step (Session.new c e) xs = some s)
    (hc : s.connected = true) (hover : Over P xs s) : Conserved P s := by
  have hend := (Accounted.new P c e).run hxs hs
  have hB := hend.2 hc
  have hG : ∀ id ∈ P.streams,
      False ∨ id ∈ P.streams ∧ ∃ x ∈ xs, x.1.finishes id = true :=
    fun id hid => .inr ⟨hid, (hover id hid).1⟩
  have hclosed : ∀ id ∈ P.streams, id ∉ s.tables.dynamicIds := fun id hid => (hover id hid).2
  have hreceived : s.flowController.highestReceivedByteOffset = ∑ id ∈ P.streams, P.final id := by
    rw [← hB.2.total, ← hB.sum_final hG]
    exact Finset.sum_congr rfl fun p _ => hB.2.credit_eq hend.1 hG hclosed p
  refine ⟨hreceived, ?_⟩
  have htotal := hB.2.received.total
  rw [Finset.sum_eq_zero fun p _ => hB.2.pending_eq_zero hend.1 hclosed p] at htotal
  exact htotal.trans hreceived

/-- A stream is reset locally after some of its data, and then the rest comes with the FIN. -/
theorem credit_conserved_of_reset :
    let P := Plan.single 5 150 (by decide)
    let xs := [(Op.streamFrame ⟨5, false, 0, 100⟩ ⟨0, false⟩, (⟨1, 1⟩ : Environment)),
      (.reset 2, ⟨2, 1⟩), (.streamFrame ⟨5, true, 100, 50⟩ ⟨0, false⟩, ⟨3, 1⟩)]
    ∃ s, run Session.step (Session.new (.tool .server) ⟨0, 1⟩) xs = some s ∧ Conserved P s := by
  intro P xs
  exact ⟨_, rfl, credit_conserved P (.tool .server) ⟨0, 1⟩ xs (by decide +zetaReduce) _ rfl rfl
    (by decide +zetaReduce)⟩

/-- **Credit is lost** where a stream is reset locally after a FIN without data. -/
theorem not_credit_conserved : ¬ ∀ (P : Plan) (c : Config) (e : Environment)
    (xs : List (Op × Environment)),
    EachStep Session.step (fun s x => s.fair P x.1) (Session.new c e) xs →
      ∀ s, run Session.step (Session.new c e) xs = some s → s.connected = true → Over P xs s →
        Conserved P s := by
  intro h
  have hreset := h (.single 5 100 (by decide)) (.tool .server) ⟨0, 1⟩
    [(.streamFrame ⟨5, true, 100, 0⟩ ⟨0, false⟩, ⟨1, 1⟩), (.reset 2, ⟨2, 1⟩),
     (.streamFrame ⟨5, false, 0, 100⟩ ⟨0, false⟩, ⟨3, 1⟩)] (by decide) _ rfl rfl (by decide)
  exact absurd hreset.1 (by decide)

/-- **Credit is lost** where a stream is refused. -/
theorem exists_refused_credit : ∃ s,
    run Session.step (Session.new { Config.tool .server with maxOpenIncomingStreams := 0 } ⟨0, 1⟩)
      [(.streamFrame ⟨5, true, 0, 100⟩ ⟨0, false⟩, ⟨1, 1⟩)] = some s ∧ s.connected = true ∧
      s.tables.isClosedStream 5 = true ∧ s.flowController.highestReceivedByteOffset = 0 :=
  ⟨_, rfl, rfl, rfl, rfl⟩

end End

end Streams
end QuicNs3
