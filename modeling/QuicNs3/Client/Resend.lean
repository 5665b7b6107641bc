/-
# What becomes of a saved request

A request sent before the handshake is confirmed is saved, to be sent again if
the server answers with a stateless reject.  The loop that the event-driven
client was made from starts a session, waits until its encryption is established,
and then sends the saved requests again: `blockingConnect`.  In the client at
hand the wait is cut off by an early `return`, before `ConnectLogic` and its
resending; `HandleRead` calls `ConnectLogic` later only in `CONNECT_LOOP`, and a
client that has sent its request is no longer there.

What comes first is that `WaitForEvents`, written to find the reject in its event
loop, is called after it, on the closed connection, and ends the program; and before
it `OnClose` does, for the request has no response yet.

`never_resent` compares the two over all packets: where the blocking loop ends with
an open, encrypted session it has sent the saved request on it exactly once, and the
event-driven client makes no session after the rejected one.
-/

import QuicNs3.Client.Handle

namespace QuicNs3
namespace Client

open Lib

/-- The blocking wait: packets are processed until encryption is established or
the connection is closed; `none` if they run out before. -/
def awaitEncryption : Session → List Outcome → Option (Session × List Outcome)
  | s, [] => if !s.encryptionEstablished && s.connected then none else some (s, [])
  | s, p :: ps =>
    if !s.encryptionEstablished && s.connected then awaitEncryption (s.processUdpPacket p) ps
    else some (s, p :: ps)

/-- The blocking loop: start a session, wait until it is encrypted, send the saved
requests again, and start over after a stateless reject. -/
def blockingConnect (c : ClientBase) : List Created → List Outcome → Option ClientBase
  | [], _ =>
    if !c.connected && decide (c.getNumSentClientHellos ≤ kMaxClientHellos) then none else some c
  | o :: os, ps =>
    if !c.connected && decide (c.getNumSentClientHellos ≤ kMaxClientHellos) then
      (awaitEncryption (.new o) ps).bind fun w =>
        let l := { c.startConnect o with session := some w.1 }.connectLogic
        if l.1 then blockingConnect l.2 os w.2 else some l.2
    else some c

theorem sent_of_awaitEncryption {s : Session} {ps : List Outcome} {w : Session × List Outcome}
    (h : awaitEncryption s ps = some w) : w.1.sent = s.sent := by
  induction ps generalizing s with
  | nil =>
    unfold awaitEncryption at h
    split_ifs at h
    exact congrArg (fun w => w.1.sent) (Option.some.inj h).symm
  | cons p ps ih =>
    unfold awaitEncryption at h
    split_ifs at h
    · refine (ih h).trans ?_
      unfold Session.processUdpPacket
      split_ifs <;> rfl
    · exact congrArg (fun w => w.1.sent) (Option.some.inj h).symm

namespace ClientBase

variable {c b : ClientBase} {o : Created} {os : List Created} {r : Request} {s s' : Session}

/-- One saved request is one call of `SendRequest`. -/
theorem resendSavedData_single (h : c.dataToResendOnConnect = [r]) :
    c.resendSavedData = { c with dataToResendOnConnect := [] }.sendRequest r := by
  simp [resendSavedData, h]

theorem sendRequest_session (hs : c.session = some s) (hst : s.canCreateStream = true) :
    (c.sendRequest r).session = some (s.sendOnStream r) := by
  simp [sendRequest, hs, hst]

theorem sendRequest_of_not_canCreateStream (hs : c.session = some s)
    (hst : s.canCreateStream = false) : c.sendRequest r = c := by
  simp [sendRequest, hs, hst]

/-- A session with a stateless reject takes no request. -/
theorem not_canCreateStream_of_rejected (hr : c.rejected = true) (hs : c.session = some s) :
    s.canCreateStream = false := by
  have h : s.connection = .closed .statelessReject := by
    simpa [rejected, hs, Session.rejected] using hr
  simp [Session.canCreateStream, Session.connected, h]

/-- On an open session `ConnectLogic` sends the saved request. -/
theorem sent_of_connectLogic (hs' : c.session = some s') (hcon : s'.connected = true)
    (hd : c.dataToResendOnConnect = [r]) (hs : c.connectLogic.2.session = some s)
    (hst : s.canCreateStream = true) : s.sent = s'.sent ++ [r] := by
  have hopen : c.connected = true := by simp [connected, hs', hcon]
  have hl : c.connectLogic.2 = { c with dataToResendOnConnect := [] }.sendRequest r := by
    simp only [connectLogic, hopen, if_true]
    exact resendSavedData_single hd
  have hclear : { c with dataToResendOnConnect := [] }.session = some s' := hs'
  rw [hl] at hs
  cases htakes : s'.canCreateStream with
  | true =>
    obtain rfl := Option.some.inj (hs.symm.trans (sendRequest_session hclear htakes))
    rfl
  | false =>
    rw [sendRequest_of_not_canCreateStream hclear htakes] at hs
    obtain rfl : s' = s := Option.some.inj (hclear.symm.trans hs)
    exact absurd (htakes.symm.trans hst) Bool.false_ne_true

/-- **The blocking loop sends the saved request exactly once** on the session it
ends with, if that session takes it. -/
theorem sent_of_blockingConnect {ps : List Outcome} (hr : c.rejected = true)
    (hd : c.dataToResendOnConnect = [r])
    (h : blockingConnect c os ps = some b) (hs : b.session = some s)
    (hst : s.canCreateStream = true) : s.sent = [r] := by
  have hstop : b ≠ c := by
    rintro rfl
    exact Bool.false_ne_true ((not_canCreateStream_of_rejected hr hs).symm.trans hst)
  induction os generalizing c ps with
  | nil =>
    unfold blockingConnect at h
    split_ifs at h
    exact absurd (Option.some.inj h).symm hstop
  | cons o os ih =>
    unfold blockingConnect at h
    split_ifs at h
    · obtain ⟨w, hw, h⟩ := Option.bind_eq_some_iff.1 h
      have hsent := sent_of_awaitEncryption hw
      set c' : ClientBase := { c.startConnect o with session := some w.1 } with hc'
      have hd' : c'.dataToResendOnConnect = [r] := by simp [hc', startConnect, hr, hd]
      have hl : c'.connectLogic.1 = c'.rejected := connectLogic_fst rfl
      cases hwc : w.1.connected with
      | true =>
        have hcon : c'.connected = true := hwc
        rw [if_neg (by simp [hl, not_rejected_of_connected hcon])] at h
        obtain rfl := Option.some.inj h
        rw [sent_of_connectLogic rfl hwc hd' hs hst, hsent]
        rfl
      | false =>
        have hcon : c'.connected = false := hwc
        have hl₂ : c'.connectLogic.2 = c' := by simp [connectLogic, hcon]
        have hne : b ≠ c' := by
          rintro rfl
          obtain rfl : w.1 = s := Option.some.inj hs
          simp [Session.canCreateStream, hwc] at hst
        dsimp only at h
        rw [hl, hl₂] at h
        split_ifs at h with hrej
        · exact ih hrej hd' h hne
        · exact absurd (Option.some.inj h).symm hne
    · exact absurd (Option.some.inj h).symm hstop

end ClientBase

namespace QuicClient

variable {c t u : QuicClient} {d : Datagram}

/-- A deaf client stays as it is. -/
theorem eq_of_run_of_deaf {ds : List Datagram} (h : c.client.recvCallback = false)
    (hu : run receive c ds = some u) : u = c := by
  refine run_invariant (P := fun v => v = c) ?_ rfl hu
  rintro v d w rfl hw
  unfold receive at hw
  split_ifs at hw with ha hcb
  · exact absurd (h.symm.trans hcb) Bool.false_ne_true
  · exact (Option.some.inj hw).symm

/-- A client that has made its request and reads that the connection is closed keeps
its session, and the program ends if it was waiting for the response. -/
theorem handleRead_of_closed (hst : c.curState ≠ .connectLoop)
    (hb : (c.afterRead d.read).connected = false) :
    ∃ (st : CurState) (ab : Bool), (c.curState = .sendRequest → ab = true) ∧
      c.handleRead d = some
        { c with
          client := { c.afterRead d.read with aborted := ab }
          curState := st
          hasRead := true } := by
  unfold handleRead
  dsimp only
  by_cases hab : (c.afterRead d.read).aborted = true
  · refine ⟨c.curState, true, fun _ => rfl, ?_⟩
    rw [if_pos hab, ← hab]
  rw [if_neg hab]
  cases hcur : c.curState with
  | connectLoop => exact absurd hcur hst
  | sendRequest =>
    exact ⟨.after, true, fun _ => rfl, by rw [ClientBase.waitForEvents_of_closed hb]; rfl⟩
  | after => exact ⟨.after, _, fun h => absurd h (by decide), rfl⟩

theorem afterRead_sent (c : QuicClient) (rd : Read) :
    (c.afterRead rd).session.map Session.sent = c.client.session.map Session.sent := by
  have hclose : Session.sent ∘ Session.closeConnection = Session.sent := by
    funext s
    simp only [Function.comp, Session.closeConnection]
    split_ifs <;> rfl
  have hproc : ∀ o, Session.sent ∘ (Session.processUdpPacket · o) = Session.sent := by
    intro o
    funext s
    simp only [Function.comp, Session.processUdpPacket]
    split_ifs <;> rfl
  cases rd with
  | error => simp [afterRead, ClientBase.onReadComplete, ClientBase.disconnect, hclose]
  | packet o =>
    unfold afterRead ClientBase.onReadComplete
    dsimp only
    split_ifs <;> simp [hproc]

/-- The saved requests are kept by a packet. -/
theorem afterRead_dataToResend (c : QuicClient) (o : Outcome) :
    (c.afterRead (.packet o)).dataToResendOnConnect = c.client.dataToResendOnConnect := by
  unfold afterRead ClientBase.onReadComplete ClientBase.startReading
  dsimp only
  split_ifs <;> rfl

/-- **A saved request is never sent again.**  Take any run to a state in which the
request has been made and saved, a packet that closes the connection with a stateless
reject, and sessions and packets with which the blocking loop ends with an open and
encrypted session.  The blocking loop sends the saved request on it exactly once.  The
session of the event-driven client stays the rejected one whatever arrives later,
nothing more is sent, and the request is still saved; if the client was waiting for
the response, the program has ended. -/
theorem never_resent {c₀ : QuicClient} {r : Request} {b : ClientBase} {s : Session} (m : ℕ)
    (os ns : List Created) (ds : List Datagram) (o : Outcome) (ps : List Outcome)
    (hstart : startApplication m os = some c₀) (hrun : run receive c₀ ds = some c)
    (ha : c.client.aborted = false) (hcb : c.client.recvCallback = true)
    (hreq : c.requests ≠ []) (hsaved : c.client.dataToResendOnConnect = [r])
    (hrej : o.connection = .closed .statelessReject)
    (hblock : blockingConnect (c.afterRead (.packet o)) ns ps = some b)
    (hs : b.session = some s) (hready : s.canCreateStream = true) :
    s.sent = [r] ∧ ∃ t, c.receive ⟨.packet o, ns⟩ = some t ∧
      (c.curState = .sendRequest → t.client.aborted = true) ∧
      ∀ later u, run receive t later = some u →
        u.client.rejected = true ∧ u.client.dataToResendOnConnect = [r] ∧
          u.client.session.map Session.sent = c.client.session.map Session.sent := by
  have hI := (always_inv hstart ds).last hrun
  have hst : c.curState ≠ .connectLoop := fun h => hreq (hI.unsent h)
  rcases afterRead_cases hI hcb (.packet o) with ⟨hrd, -⟩ | ⟨hrd, -⟩ | ⟨-, hb, hr, -⟩
  · exact absurd (hrd.symm.trans hrej) (by decide)
  · exact absurd (hrd.symm.trans hrej) (by decide)
  have hd := (afterRead_dataToResend c o).trans hsaved
  have hdeaf : (c.afterRead (.packet o)).recvCallback = false :=
    (congrArg Flags.recvCallback (afterRead_flags c (.packet o))).trans hb
  obtain ⟨st, ab, hab, hw⟩ := handleRead_of_closed (d := ⟨.packet o, ns⟩) hst hb
  have hread : c.receive ⟨.packet o, ns⟩ = c.handleRead ⟨.packet o, ns⟩ := by
    rw [receive, if_neg (Bool.eq_false_iff.1 ha), if_pos hcb]
  refine ⟨ClientBase.sent_of_blockingConnect hr hd hblock hs hready, _, hread.trans hw, hab,
    fun later u hu => ?_⟩
  obtain rfl := eq_of_run_of_deaf hdeaf hu
  exact ⟨hr, hd, afterRead_sent c (.packet o)⟩

/-- A packet that establishes encryption, after which the request is sent. -/
def establishes : Outcome := ⟨.connected, true, false, 2, [], 0, true⟩

/-- A packet that answers it with a stateless reject. -/
def rejectsRequest : Outcome := ⟨.closed .statelessReject, true, false, 2, [], 0, true⟩

/-- Even if the new session would be encrypted from the start, there is none. -/
theorem never_resent_immediate :
    ∃ c t, startApplication 100 [⟨true, false, 1⟩] = some c ∧
      run receive c [⟨.packet establishes, []⟩,
        ⟨.packet rejectsRequest, [⟨true, true, 1⟩]⟩] = some t ∧
      t.client.aborted = true ∧ t.client.rejected = true := by
  obtain ⟨-, t, ht, hab, hlater⟩ := never_resent 100 [⟨true, false, 1⟩] [⟨true, true, 1⟩]
    [⟨.packet establishes, []⟩] rejectsRequest [] rfl rfl rfl rfl (by simp) rfl rfl rfl rfl rfl
  refine ⟨_, t, rfl, ?_, hab rfl, (hlater [] t rfl).1⟩
  rw [run_cons]
  exact congrArg (Option.bind · _) ht

/-- The request is sent and saved, and the server rejects the connection.  The blocking
loop makes a new session, waits until it is encrypted and sends the request on it.  The
client at hand ends while it reads the reject: its session is the rejected one, the
request is still saved, and the next packet finds no program. -/
theorem exists_request_not_resent :
    ∃ c t u b, startApplication 100 [⟨true, false, 1⟩] = some c ∧
      run receive c [⟨.packet establishes, []⟩] = some t ∧
      t.client.dataToResendOnConnect = [⟨100⟩] ∧
      blockingConnect (t.afterRead (.packet rejectsRequest)) [⟨true, false, 1⟩] [establishes] =
        some b ∧
      b.session.map Session.sent = some [⟨100⟩] ∧
      t.receive ⟨.packet rejectsRequest, [⟨true, false, 1⟩]⟩ = some u ∧
      u.client.aborted = true ∧ u.client.rejected = true ∧
      u.client.dataToResendOnConnect = [⟨100⟩] ∧ u.receive ⟨.packet establishes, []⟩ = none :=
  ⟨_, _, _, _, rfl, rfl, rfl, rfl, rfl, rfl, rfl, rfl, rfl, rfl⟩

end QuicClient
end Client
end QuicNs3
