/-
# When the client goes deaf

A client whose connection is open listens if the socket's receive callback is
registered.  `HandleRead` takes the callback off; a read puts it back only while
the connection it was read for is still open, and the event loop puts it back
only if the packet reader was never started.  A stateless reject closes the
connection and makes the client connect again, inside the same `HandleRead`: the
new connection is open, the callback is off, and `packet_reader_started_` is
still set, so that nothing registers it again.

`always_listens_iff` says that this is the only way: in a run of the client the
callback is registered after every `HandleRead` that leaves the connection open,
exactly if no datagram read in `CONNECT_LOOP` is a stateless reject that is answered
by a connected session.  In `SEND_REQUEST` a stateless reject ends the program, and
in `AFTER` the connection stays closed.
-/

import QuicNs3.Client.Handle

namespace QuicNs3
namespace Client

open Lib

/-- The datagram is a stateless reject, a client hello is left after the given
number of hellos of earlier sessions, and the session made in answer to it is
connected. -/
def Datagram.reconnects (d : Datagram) (hellos : ℕ) : Bool :=
  match d.read with
  | .error => false
  | .packet o =>
    decide (o.connection = .closed .statelessReject) &&
      decide (hellos + o.numSentClientHellos ≤ kMaxClientHellos) &&
      d.created.head?.any Created.connected

theorem Datagram.connection_of_reconnects {d : Datagram} {n : ℕ} (h : d.reconnects n = true) :
    d.read.connection = .closed .statelessReject := by
  unfold reconnects at h
  cases hrd : d.read with
  | error => simp [hrd] at h
  | packet o =>
    simp only [hrd, Bool.and_eq_true, decide_eq_true_eq] at h
    exact h.1.1

namespace QuicClient

variable {c t : QuicClient} {d : Datagram}

/-- Once `HandleRead` has returned, an open connection is listened to. -/
def Listens (c : QuicClient) : Prop :=
  c.hasRead = true → c.client.connected = true → c.client.recvCallback = true

/-- The datagram is read in `CONNECT_LOOP`, and makes the client reconnect. -/
def Deafens (c : QuicClient) (d : Datagram) : Prop :=
  c.client.recvCallback = true ∧ c.client.connected = true ∧ c.curState = .connectLoop ∧
    d.reconnects c.client.numSentClientHellos = true

instance (c : QuicClient) (d : Datagram) : Decidable (Deafens c d) :=
  inferInstanceAs (Decidable (_ ∧ _ ∧ _ ∧ _))

/-- The hellos counted once a packet has been processed. -/
theorem afterRead_hellos (hI : Inv c) (hc : c.client.connected = true) (o : Outcome) :
    (c.afterRead (.packet o)).getNumSentClientHellos =
      c.client.numSentClientHellos + o.numSentClientHellos := by
  obtain ⟨s, hs, hsc⟩ := ClientBase.exists_session_of_connected hc
  have ha := hI.attempting
  unfold afterRead ClientBase.onReadComplete
  dsimp only
  split_ifs <;>
    simp [ClientBase.getNumSentClientHellos, ClientBase.sessionHellos, ClientBase.startReading,
      hs, ha, Session.processUdpPacket, hsc]

/-- After a stateless reject the connection is open again exactly if the datagram
makes the client reconnect. -/
theorem connected_of_rejected (hI : Inv c) (ha : c.client.aborted = false)
    (hcb : c.client.recvCallback = true) (hrd : d.read.connection = .closed .statelessReject)
    (h : c.handleRead d = some t) :
    t.client.connected = true ↔ Deafens c d := by
  have hc := hI.connected hcb
  rcases afterRead_cases hI hcb d.read with ⟨hrd', -⟩ | ⟨hrd', -⟩ | ⟨-, hb, hr, hs⟩
  · exact absurd (hrd'.symm.trans hrd) (by decide)
  · exact absurd (hrd'.symm.trans hrd) (by decide)
  obtain ⟨o, ho⟩ : ∃ o, d.read = .packet o := by
    cases hd : d.read with
    | error => simp [hd, Read.connection] at hrd
    | packet o => exact ⟨o, rfl⟩
  have hoc : o.connection = .closed .statelessReject := by simpa [ho, Read.connection] using hrd
  obtain ⟨-, -, htl⟩ := (handled_of_callback hI ha hcb h).rejected hI hr hs
  rw [ho, afterRead_hellos hI hc, ← ho] at htl
  have hD : Deafens c d ↔ (c.curState = .connectLoop ∧
      c.client.numSentClientHellos + o.numSentClientHellos ≤ kMaxClientHellos) ∧
        d.created.head?.any Created.connected = true := by
    simp [Deafens, Datagram.reconnects, hcb, hc, ho, hoc, and_assoc]
  rw [hD, ClientBase.connected_eq]
  split_ifs at htl with hn
  · obtain ⟨n, hn', htl⟩ := htl
    rw [htl, Option.mem_def.1 hn']
    cases hnc : n.connected <;> simp [Created.link, hn, hnc]
  · rw [htl, ← ClientBase.connected_eq, hb]
    exact iff_of_false (by decide) fun h => hn h.1

/-- **What one datagram does.**  The client listens after it unless it was
deafened by it. -/
theorem listens_receive_iff (hI : Inv c) (hL : Listens c) (h : c.receive d = some t) :
    Listens t ↔ ¬ Deafens c d := by
  unfold receive at h
  split_ifs at h with ha hcb
  · have ha' : c.client.aborted = false := Bool.eq_false_iff.2 ha
    have hH := handled_of_callback hI ha' hcb h
    have hf := afterRead_flags c d.read
    rcases afterRead_cases hI hcb d.read with ⟨hrd, hb, hs⟩ | ⟨hrd, hb, hr⟩ | ⟨hrd, hb, hr, hs⟩
    · obtain ⟨htf, -⟩ := hH.connected hb
      have htcb : t.client.recvCallback = true :=
        (congrArg Flags.recvCallback (htf.trans hf)).trans hb
      refine iff_of_true (fun _ _ => htcb) fun hD => ?_
      exact absurd (hrd.symm.trans (Datagram.connection_of_reconnects hD.2.2.2)) (by decide)
    · obtain ⟨-, htl, -⟩ := hH.closed hb hr
      have htc : t.client.connected = false := by
        rw [ClientBase.connected_eq, htl, ← ClientBase.connected_eq, hb]
      refine iff_of_true (fun _ htc' => absurd (htc.symm.trans htc') (by decide)) fun hD => ?_
      exact absurd (hrd.symm.trans (Datagram.connection_of_reconnects hD.2.2.2)) (by decide)
    · obtain ⟨htf, -⟩ := hH.rejected hI hr hs
      have htcb : t.client.recvCallback = false :=
        (congrArg Flags.recvCallback (htf.trans hf)).trans hb
      rw [← connected_of_rejected hI ha' hcb hrd h]
      constructor
      · intro hLt htc
        exact Bool.false_ne_true (htcb.symm.trans (hLt hH.hasRead htc))
      · intro htc _ htc'
        exact absurd htc' htc
  · obtain rfl := Option.some.inj h
    exact iff_of_true hL fun hD => hcb hD.1

/-- **The client goes deaf in one way only.**  In a run of datagrams from
`StartApplication`, the receive callback is registered after every `HandleRead`
that leaves the connection open exactly if no datagram read in `CONNECT_LOOP` is a
stateless reject that is answered by a connected session; and the callback is
registered exactly while `read_pending_` is set. -/
theorem always_listens_iff (m : ℕ) (os : List Created) {ds : List Datagram}
    (hstart : startApplication m os = some c) (hrun : run receive c ds = some t) :
    (Always receive Listens c ds ↔ EachStep receive (fun c d => ¬ Deafens c d) c ds) ∧
      Always receive (fun c => c.client.recvCallback = c.client.readPending) c ds := by
  have hI := inv_startApplication hstart
  have hL : Listens c := by
    obtain ⟨r, -, rfl⟩ := Option.map_eq_some_iff.1 hstart
    exact fun h => absurd h Bool.false_ne_true
  refine ⟨always_iff_eachStep (fun _ _ _ hI h => inv_receive hI h)
    (fun _ _ _ hI hL h => listens_receive_iff hI hL h) hI hL hrun, ?_⟩
  exact (always_inv hstart ds).mono fun _ hI => hI.pending

/-- A session whose handshake has been started. -/
def handshaking : Created := ⟨true, false, 1⟩

/-- A packet that establishes encryption. -/
def encrypts : Outcome := ⟨.connected, true, false, 2, [], 0, true⟩

/-- A packet that closes the connection with a stateless reject. -/
def rejects : Outcome := ⟨.closed .statelessReject, false, false, 1, [], 0, true⟩

/-- A handshake that succeeds is listened to throughout. -/
theorem always_listens_handshake :
    ∃ c t, startApplication 100 [handshaking] = some c ∧
      run receive c [⟨.packet encrypts, []⟩] = some t ∧
      Always receive Listens c [⟨.packet encrypts, []⟩] :=
  ⟨_, _, rfl, rfl, (always_listens_iff 100 [handshaking] rfl rfl).1.2 (by decide)⟩

/-- One stateless reject, answered by a new session, leaves the client connected
and deaf: the packet reader counts as started and the callback is off. -/
theorem exists_connected_and_deaf :
    ∃ c t, startApplication 100 [handshaking] = some c ∧
      run receive c [⟨.packet rejects, [handshaking]⟩] = some t ∧ ¬ Listens t ∧
      t.hasRead = true ∧ t.client.connected = true ∧ t.client.recvCallback = false ∧
      t.client.packetReaderStarted = true :=
  ⟨_, _, rfl, rfl, fun h => Bool.false_ne_true (h rfl rfl), rfl, rfl, rfl, rfl⟩

end QuicClient
end Client
end QuicNs3
