/-
# How `HandleRead` comes out

`Handled` lists what one `HandleRead` can do, by the state the client is in, and
`handled` says that there is nothing else.  Read by how the datagram leaves the
connection, it has three outcomes, `Handled.connected`, `Handled.closed` and
`Handled.rejected`: each says where the callback, the connection and the requests
made are afterwards.  `Inv` is what they need of the state before, and `always_inv`
says that it holds in every state of a run.
-/

import QuicNs3.Client.Connect
import QuicNs3.Lib.Run

namespace QuicNs3
namespace Client

open Lib

/-- What holds between two datagrams. -/
structure Inv (c : QuicClient) : Prop where
  session : c.client.session.isSome
  attempting : c.client.connectedOrAttemptingConnect = true
  pending : c.client.recvCallback = c.client.readPending
  started : c.client.recvCallback = true → c.client.packetReaderStarted = true
  connected : c.client.recvCallback = true → c.client.connected = true
  unsent : c.curState = .connectLoop → c.requests = []
  idle : c.curState = .connectLoop → c.client.Idle
  once : c.requests.length ≤ 1

namespace QuicClient

variable {c t : QuicClient} {d : Datagram} {b : ClientBase}

theorem afterRead_session (hI : Inv c) (rd : Read) : (c.afterRead rd).session.isSome := by
  have hl : (c.afterRead rd).link.isSome := by
    cases hc : c.client.connected with
    | true =>
      obtain ⟨e, he⟩ := ClientBase.onReadComplete_link
        (c := { c.client with recvCallback := false }) rd hc
      exact Option.isSome_iff_exists.2 ⟨_, he⟩
    | false =>
      have he := ClientBase.onReadComplete_link_of_closed
        (c := { c.client with recvCallback := false }) rd hc
      have hs : c.client.link.isSome := by simpa [ClientBase.link] using hI.session
      exact (congrArg Option.isSome he).trans hs
  simpa [ClientBase.link] using hl

theorem afterRead_flags (c : QuicClient) (rd : Read) :
    (c.afterRead rd).flags =
      { recvCallback := (c.afterRead rd).connected
        readPending := (c.afterRead rd).connected
        packetReaderStarted := c.client.packetReaderStarted && decide (rd ≠ .error)
        connectedOrAttemptingConnect := c.client.connectedOrAttemptingConnect } :=
  ClientBase.onReadComplete_flags (c := { c.client with recvCallback := false }) rd rfl

/-- Reading does not end the program before the request. -/
theorem afterRead_idle (hI : Inv c) (hst : c.curState = .connectLoop) (rd : Read) :
    (c.afterRead rd).Idle ∧ (c.afterRead rd).aborted = c.client.aborted :=
  have hidle : ({ c.client with recvCallback := false } : ClientBase).Idle :=
    (hI.idle hst).of_session rfl rfl
  hidle.onReadComplete rd

/-- `SendRequest`: one call of the base client, and the event loop or, where the
connection is closed, the end of the program. -/
theorem sendRequest_spec (os : List Created)
    (hs : c.client.connected = true → c.client.packetReaderStarted = true) :
    ∃ (st : CurState) (b : ClientBase), st ≠ .connectLoop ∧ b.flags = c.client.flags ∧
      b.link = c.client.link ∧ c.sendRequest os = some
        { c with client := b, curState := st, requests := c.requests ++ [c.moment] } := by
  set b := c.client.sendRequest ⟨c.maxBytes⟩ with hb
  have hbf : b.flags = c.client.flags := ClientBase.sendRequest_flags
  have hbl : b.link = c.client.link := ClientBase.sendRequest_link
  have hbc : b.connected = c.client.connected := by
    rw [ClientBase.connected_eq, hbl, ← ClientBase.connected_eq]
  cases hc : c.client.connected with
  | true =>
    have hbs : b.packetReaderStarted = true :=
      (congrArg Flags.packetReaderStarted hbf).trans (hs hc)
    refine ⟨if decide (b.numActiveRequests ≠ 0) then .sendRequest else .after, b,
      by split_ifs <;> decide, hbf, hbl, ?_⟩
    rw [sendRequest, ← hb, ClientBase.waitForEvents_of_connected (hbc.trans hc),
      ClientBase.runEventLoop_of_started hbs]
    rfl
  | false =>
    refine ⟨.after, { b with aborted := true }, by decide, hbf, hbl, ?_⟩
    rw [sendRequest, ← hb, ClientBase.waitForEvents_of_closed (hbc.trans hc)]
    rfl

/-- What one `HandleRead` does. -/
inductive Handled (c : QuicClient) (d : Datagram) (t : QuicClient) : Prop
  /-- In `CONNECT_LOOP`, the handshake goes on. -/
  | wait (hst : c.curState = .connectLoop)
      (he : (c.afterRead d.read).encryptionBeingEstablished = true)
      (ht : t = { c with client := c.afterRead d.read, hasRead := true })
  /-- In `CONNECT_LOOP`, after a stateless reject: the client connects again. -/
  | reconnect (hst : c.curState = .connectLoop) (hr : (c.afterRead d.read).rejected = true)
      (r : Bool × ClientBase) (hcon : (c.afterRead d.read).connect d.created = some r)
      (ht : t = { c with client := r.2, hasRead := true })
  /-- In `CONNECT_LOOP`, where no attempt is left: the request is made. -/
  | request (hst : c.curState = .connectLoop)
      (he : (c.afterRead d.read).encryptionBeingEstablished = false)
      (hr : (c.afterRead d.read).rejected = false) (st : CurState) (b : ClientBase)
      (hst' : st ≠ .connectLoop) (hf : b.flags = (c.afterRead d.read).flags)
      (hl : b.link = (c.afterRead d.read).link)
      (ht : t =
        { c with
          client := b
          curState := st
          hasRead := true
          requests := c.requests ++ [⟨(c.afterRead d.read).connected,
            (c.afterRead d.read).link.any Prod.snd⟩] })
  /-- In the other states there is at most an event loop to run, or a program to end. -/
  | later (hst : c.curState ≠ .connectLoop) (st : CurState) (b : ClientBase)
      (hst' : st ≠ .connectLoop) (hf : b.flags = (c.afterRead d.read).flags)
      (hl : b.link = (c.afterRead d.read).link)
      (ht : t = { c with client := b, curState := st, hasRead := true })

theorem closed_of_rejected (hr : b.rejected = true) : b.connected = false := by
  by_contra hb
  have h := ClientBase.not_rejected_of_connected (Bool.not_eq_false _ ▸ hb)
  exact Bool.false_ne_true (h.symm.trans hr)

/-- `HandleRead` once the request has been made. -/
theorem handled_later (hst : c.curState ≠ .connectLoop)
    (hs : (c.afterRead d.read).connected = true → (c.afterRead d.read).packetReaderStarted = true)
    (h : c.handleRead d = some t) : Handled c d t := by
  unfold handleRead at h
  dsimp only at h
  by_cases hab : (c.afterRead d.read).aborted = true
  · rw [if_pos hab] at h
    exact .later hst _ _ hst rfl rfl (Option.some.inj h).symm
  rw [if_neg hab] at h
  cases hcur : c.curState with
  | connectLoop => exact absurd hcur hst
  | sendRequest =>
    simp only [hcur] at h
    cases hb : (c.afterRead d.read).connected with
    | true =>
      rw [ClientBase.waitForEvents_of_connected hb, ClientBase.runEventLoop_of_started (hs hb)] at h
      exact .later hst (if decide ((c.afterRead d.read).numActiveRequests ≠ 0) then .sendRequest
        else .after) _ (by split_ifs <;> decide) rfl rfl (Option.some.inj h).symm
    | false =>
      rw [ClientBase.waitForEvents_of_closed hb] at h
      exact .later hst .after { c.afterRead d.read with aborted := true } (by decide) rfl rfl
        (Option.some.inj h).symm
  | after =>
    simp only [hcur] at h
    exact .later hst .after _ (by decide) rfl rfl (by rw [← Option.some.inj h, ← hcur])

/-- **What one `HandleRead` does**, if the program has not ended. -/
theorem handled (hI : Inv c) (ha : c.client.aborted = false)
    (hs : (c.afterRead d.read).connected = true → (c.afterRead d.read).packetReaderStarted = true)
    (h : c.handleRead d = some t) : Handled c d t := by
  by_cases hst : c.curState = .connectLoop
  swap
  · exact handled_later hst hs h
  have hab := (afterRead_idle hI hst d.read).2.trans ha
  have hl := ClientBase.connectLogic_fst (afterRead_session hI d.read)
  unfold handleRead at h
  simp only [hab, hst, Bool.false_eq_true, if_false] at h
  cases he : (c.afterRead d.read).encryptionBeingEstablished with
  | true =>
    have hb : (c.afterRead d.read).connected = true := by
      by_contra hb
      have h' := ClientBase.encryptionBeingEstablished_of_closed (Bool.eq_false_iff.2 hb)
      exact Bool.false_ne_true (h'.symm.trans he)
    rw [if_pos he, ClientBase.waitForEvents_of_connected hb,
      ClientBase.runEventLoop_of_started (hs hb)] at h
    exact .wait hst he (by rw [← Option.some.inj h, ← hst])
  | false =>
    rw [if_neg (Bool.eq_false_iff.1 he)] at h
    cases hr : (c.afterRead d.read).rejected with
    | true =>
      have hl' : (c.afterRead d.read).connectLogic = (true, c.afterRead d.read) :=
        Prod.ext (hl.trans hr) (by simp [ClientBase.connectLogic, closed_of_rejected hr])
      rw [hl', if_pos rfl] at h
      obtain ⟨r, hr', rfl⟩ := Option.map_eq_some_iff.1 h
      exact .reconnect hst hr r hr' (by rw [← hst])
    | false =>
      rw [if_neg (by simp [hl, hr])] at h
      set b := (c.afterRead d.read).connectLogic.2.finishConnect.2 with hb
      have hbf : b.flags = (c.afterRead d.read).flags := by simp [hb]
      have hbl : b.link = (c.afterRead d.read).link := by simp [hb]
      have hbc : b.connected = (c.afterRead d.read).connected := by
        rw [ClientBase.connected_eq, hbl, ← ClientBase.connected_eq]
      obtain ⟨st, b', hst', hf', hl', h'⟩ := sendRequest_spec
        (c := { c with client := b, curState := .connectLoop, hasRead := true }) d.created
        fun hc => (congrArg Flags.packetReaderStarted hbf).trans (hs (hbc.symm.trans hc))
      refine .request hst he hr st b' hst' (hf'.trans hbf) (hl'.trans hbl) ?_
      rw [← Option.some.inj (h'.symm.trans h)]
      have hm : ({ c with client := b, curState := .connectLoop, hasRead := true } :
          QuicClient).moment =
            ⟨(c.afterRead d.read).connected, (c.afterRead d.read).link.any Prod.snd⟩ := by
        rw [← hbc, ← hbl]
        simp only [moment, ClientBase.link, Option.any_map]
      rw [hm]

theorem Handled.hasRead (h : Handled c d t) : t.hasRead = true := by
  cases h <;> subst t <;> rfl

/-- **The datagram leaves the connection open.**  The callback is where the read
put it, and the request is made if encryption is established and it was not made
before. -/
theorem Handled.connected (h : Handled c d t) (hb : (c.afterRead d.read).connected = true) :
    t.client.flags = (c.afterRead d.read).flags ∧ t.client.link = (c.afterRead d.read).link ∧
      (t.requests = c.requests ∨
        c.curState = .connectLoop ∧ t.requests = c.requests ++ [⟨true, true⟩]) := by
  cases h with
  | wait hst he ht => subst t; exact ⟨rfl, rfl, .inl rfl⟩
  | reconnect hst hr r hcon ht =>
    exact absurd ((closed_of_rejected hr).symm.trans hb) Bool.false_ne_true
  | request hst he hr st b hst' hf hl ht =>
    subst t
    refine ⟨hf, hl, .inr ⟨hst, ?_⟩⟩
    have henc : (c.afterRead d.read).link.any Prod.snd = true := by
      rw [ClientBase.encryptionBeingEstablished_eq] at he
      rw [ClientBase.connected_eq] at hb
      cases hl : (c.afterRead d.read).link <;> simp_all
    rw [hb, henc]
  | later hst st b hst' hf hl ht => subst t; exact ⟨hf, hl, .inl rfl⟩

/-- **The datagram leaves the connection closed, and not by a stateless reject.**
The connection stays closed; if the client was still in `CONNECT_LOOP`, the
request is made all the same. -/
theorem Handled.closed (h : Handled c d t) (hb : (c.afterRead d.read).connected = false)
    (hr : (c.afterRead d.read).rejected = false) :
    t.client.flags = (c.afterRead d.read).flags ∧ t.client.link = (c.afterRead d.read).link ∧
      ∃ e, t.requests = c.requests ++ if c.curState = .connectLoop then [⟨false, e⟩] else [] := by
  cases h with
  | wait hst he ht =>
    exact absurd ((ClientBase.encryptionBeingEstablished_of_closed hb).symm.trans he)
      Bool.false_ne_true
  | reconnect hst hr' r hcon ht => exact absurd (hr.symm.trans hr') Bool.false_ne_true
  | request hst he hr st b hst' hf hl ht =>
    subst t
    exact ⟨hf, hl, _, by rw [if_pos hst, hb]⟩
  | later hst st b hst' hf hl ht =>
    subst t
    exact ⟨hf, hl, true, by rw [if_neg hst, List.append_nil]⟩

/-- **The datagram is a stateless reject.**  No request is made and the callback
stays off; the client reconnects if it is in `CONNECT_LOOP` and has a hello left. -/
theorem Handled.rejected (h : Handled c d t) (hI : Inv c)
    (hr : (c.afterRead d.read).rejected = true)
    (hs : (c.afterRead d.read).packetReaderStarted = true) :
    t.client.flags = (c.afterRead d.read).flags ∧ t.requests = c.requests ∧
      if c.curState = .connectLoop ∧
          (c.afterRead d.read).getNumSentClientHellos ≤ kMaxClientHellos then
        ∃ o ∈ d.created.head?, t.client.link = some o.link
      else t.client.link = (c.afterRead d.read).link := by
  have hb := closed_of_rejected hr
  have ha : (c.afterRead d.read).connectedOrAttemptingConnect = true :=
    (congrArg Flags.connectedOrAttemptingConnect (afterRead_flags c d.read)).trans hI.attempting
  cases h with
  | wait hst he ht =>
    exact absurd ((ClientBase.encryptionBeingEstablished_of_closed hb).symm.trans he)
      Bool.false_ne_true
  | reconnect hst hr' r hcon ht =>
    subst t
    obtain ⟨hf, hl⟩ := ClientBase.connect_spec hb hs ha hcon
    exact ⟨hf, rfl, by simpa [hst] using hl⟩
  | request hst he hr' st b hst' hf hl ht => exact absurd (hr'.symm.trans hr) Bool.false_ne_true
  | later hst st b hst' hf hl ht =>
    subst t
    exact ⟨hf, rfl, by rw [if_neg fun h => hst h.1]; exact hl⟩

/-- A client that is still in `CONNECT_LOOP` has made no request and has no stream. -/
theorem Handled.looping (h : Handled c d t) (hI : Inv c) (hst : t.curState = .connectLoop) :
    c.curState = .connectLoop ∧ t.requests = c.requests ∧ t.client.Idle := by
  cases h with
  | wait hst' he ht => subst t; exact ⟨hst', rfl, (afterRead_idle hI hst' d.read).1⟩
  | reconnect hst' hr r hcon ht =>
    subst t
    exact ⟨hst', rfl, (afterRead_idle hI hst' d.read).1.connect (closed_of_rejected hr) hcon⟩
  | request hst' he hr st b hst'' hf hl ht => subst t; exact absurd hst hst''
  | later hst' st b hst'' hf hl ht => subst t; exact absurd hst hst''

/-! ## The invariant -/

/-- How one read can leave the connection of a client that has a callback. -/
theorem afterRead_cases (hI : Inv c) (hcb : c.client.recvCallback = true) (rd : Read) :
    (rd.connection = .connected ∧ (c.afterRead rd).connected = true ∧
        (c.afterRead rd).packetReaderStarted = true) ∨
      (rd.connection = .closed .other ∧ (c.afterRead rd).connected = false ∧
        (c.afterRead rd).rejected = false) ∨
      (rd.connection = .closed .statelessReject ∧ (c.afterRead rd).connected = false ∧
        (c.afterRead rd).rejected = true ∧ (c.afterRead rd).packetReaderStarted = true) := by
  have hs : rd ≠ .error → (c.afterRead rd).packetReaderStarted = true := fun hne =>
    (congrArg Flags.packetReaderStarted (afterRead_flags c rd)).trans (by
      simp [hI.started hcb, hne])
  obtain ⟨e, hl⟩ : ∃ e, (c.afterRead rd).link = some (rd.connection, e) :=
    ClientBase.onReadComplete_link (c := { c.client with recvCallback := false }) rd
      (hI.connected hcb)
  rw [ClientBase.connected_eq, ClientBase.rejected_eq, hl]
  cases hrc : rd.connection with
  | connected => exact .inl ⟨rfl, rfl, hs fun h => by simp [h, Read.connection] at hrc⟩
  | closed err =>
    cases err with
    | other => exact .inr (.inl ⟨rfl, rfl, rfl⟩)
    | statelessReject =>
      exact .inr (.inr ⟨rfl, rfl, rfl, hs fun h => by simp [h, Read.connection] at hrc⟩)

/-- What a client that has a callback does with a datagram. -/
theorem handled_of_callback (hI : Inv c) (ha : c.client.aborted = false)
    (hcb : c.client.recvCallback = true) (h : c.handleRead d = some t) : Handled c d t := by
  refine handled hI ha (fun hb => ?_) h
  rcases afterRead_cases hI hcb d.read with ⟨-, -, hs⟩ | ⟨-, hb', -⟩ | ⟨-, hb', -⟩
  · exact hs
  · exact absurd (hb'.symm.trans hb) Bool.false_ne_true
  · exact absurd (hb'.symm.trans hb) Bool.false_ne_true

/-- The invariant, from where the flags are. -/
theorem inv_of_flags (cb st : Bool) (hf : t.client.flags = ⟨cb, cb, st, true⟩)
    (hl : t.client.link.isSome)
    (hcb : cb = true → st = true ∧ t.client.connected = true)
    (hst : t.curState = .connectLoop → t.requests = [] ∧ t.client.Idle)
    (honce : t.requests.length ≤ 1) : Inv t := by
  obtain ⟨h₁, h₂, h₃, h₄⟩ := Flags.mk.inj hf
  rw [h₁.symm] at hcb
  exact
    { session := by simpa [ClientBase.link] using hl
      attempting := h₄
      pending := h₁.trans h₂.symm
      started := fun h => h₃.trans (hcb h).1
      connected := fun h => (hcb h).2
      unsent := fun h => (hst h).1
      idle := fun h => (hst h).2
      once := honce }

theorem inv_handleRead (hI : Inv c) (ha : c.client.aborted = false)
    (hcb : c.client.recvCallback = true) (h : c.handleRead d = some t) : Inv t := by
  have hH := handled_of_callback hI ha hcb h
  have hf := afterRead_flags c d.read
  rw [hI.attempting] at hf
  have hsl : (c.afterRead d.read).link.isSome := by
    simpa [ClientBase.link] using afterRead_session hI d.read
  have honce : ∀ m, c.curState = .connectLoop → (c.requests ++ [m]).length ≤ 1 := fun m hst => by
    simp [hI.unsent hst]
  have hloop : t.curState = .connectLoop → t.requests = [] ∧ t.client.Idle := fun hst =>
    have hl := hH.looping hI hst
    ⟨hl.2.1.trans (hI.unsent hl.1), hl.2.2⟩
  rcases afterRead_cases hI hcb d.read with ⟨-, hb, hs⟩ | ⟨-, hb, hr⟩ | ⟨-, hb, hr, hs⟩
  · obtain ⟨htf, htl, hreq⟩ := hH.connected hb
    have htc : t.client.connected = true := by
      rw [ClientBase.connected_eq, htl, ← ClientBase.connected_eq, hb]
    rw [hb] at hf
    refine inv_of_flags _ _ (htf.trans hf) (htl ▸ hsl)
      (fun _ => ⟨(congrArg Flags.packetReaderStarted hf).symm.trans hs, htc⟩) hloop ?_
    rcases hreq with hreq | ⟨hst', hreq⟩
    · exact hreq ▸ hI.once
    · exact hreq ▸ honce _ hst'
  · obtain ⟨htf, htl, e, hreq⟩ := hH.closed hb hr
    rw [hb] at hf
    refine inv_of_flags _ _ (htf.trans hf) (htl ▸ hsl) (fun h => absurd h (by decide)) hloop ?_
    rw [hreq]
    split_ifs with hst
    · exact honce _ hst
    · simpa using hI.once
  · obtain ⟨htf, hreq, htl⟩ := hH.rejected hI hr hs
    rw [hb] at hf
    refine inv_of_flags _ _ (htf.trans hf) ?_ (fun h => absurd h (by decide)) hloop
      (hreq ▸ hI.once)
    split_ifs at htl
    · obtain ⟨o, -, htl⟩ := htl
      exact htl ▸ rfl
    · exact htl ▸ hsl

theorem inv_receive (hI : Inv c) (h : c.receive d = some t) : Inv t := by
  unfold receive at h
  split_ifs at h with ha hcb
  · exact inv_handleRead hI (Bool.eq_false_iff.2 ha) hcb h
  · exact Option.some.inj h ▸ hI

theorem inv_startApplication {m : ℕ} {os : List Created} (h : startApplication m os = some c) :
    Inv c := by
  obtain ⟨r, hr, rfl⟩ := Option.map_eq_some_iff.1 h
  rw [ClientBase.connect_of_not_connected rfl] at hr
  obtain ⟨o, -, rfl⟩ := Option.map_eq_some_iff.1 hr
  have hl : (ClientBase.initial.attempt o).link.isSome := by simp
  have hidle : (ClientBase.initial.attempt o).Idle :=
    ClientBase.Idle.attempt ⟨fun _ h => absurd h (by simp [ClientBase.initial]), rfl⟩ o
  cases hoc : o.connected with
  | false =>
    exact inv_of_flags false false
      (by simp [ClientBase.attempt, hoc]; rfl) hl (fun h => absurd h (by decide))
      (fun _ => ⟨rfl, hidle⟩) (Nat.zero_le 1)
  | true =>
    have hc : (ClientBase.initial.attempt o).connected = true := by
      simp [ClientBase.connected_eq, Created.link, hoc]
    cases hoe : o.encryptionEstablished with
    | true =>
      exact inv_of_flags false false
        (by simp [ClientBase.attempt, hoc, hoe]; rfl) hl (fun h => absurd h (by decide))
        (fun _ => ⟨rfl, hidle⟩) (Nat.zero_le 1)
    | false =>
      exact inv_of_flags true true
        (by simp [ClientBase.attempt, hoc, hoe]; rfl) hl (fun _ => ⟨rfl, hc⟩)
        (fun _ => ⟨rfl, hidle⟩) (Nat.zero_le 1)

/-- **The invariant holds in every state of a run of datagrams.** -/
theorem always_inv {m : ℕ} {os : List Created} (h : startApplication m os = some c)
    (ds : List Datagram) : Always receive Inv c ds :=
  always_of_step (fun _ _ _ hI h => inv_receive hI h) (inv_startApplication h)

end QuicClient
end Client
end QuicNs3
