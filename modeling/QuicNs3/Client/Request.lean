/-
# When the request is made

`QuicClient` calls its `SendRequest` in `HandleRead`, in the state
`CONNECT_LOOP`, where encryption is not being established and `ConnectLogic`
says that there is no further attempt to make.  That call leaves `CONNECT_LOOP`,
so there is at most one.  But `ConnectLogic` says the same of a connection that
was closed with an error other than a stateless reject as of one that is ready,
and the answer of `FinishConnect`, which tells the two apart, is dropped.  The
program then ends at the `DCHECK` of `WaitForEvents`, after the request was made.

`always_safe_iff` says that this is the only unsafe call: in a run of the client
the request is made at most once, on a connected session with encryption
established, exactly if no datagram read in `CONNECT_LOOP` closes the connection
with an error other than a stateless reject.
-/

import QuicNs3.Client.Handle

namespace QuicNs3
namespace Client

open Lib

namespace QuicClient

variable {c t : QuicClient} {d : Datagram}

/-- At most one request was made, and at a moment at which the connection was
open and encrypted. -/
def Safe (c : QuicClient) : Prop :=
  c.requests.length ≤ 1 ∧ ∀ m ∈ c.requests, m = ⟨true, true⟩

/-- The datagram is read in `CONNECT_LOOP` and closes the connection with an
error other than a stateless reject; a failed read does. -/
def Fails (c : QuicClient) (d : Datagram) : Prop :=
  c.client.recvCallback = true ∧ c.curState = .connectLoop ∧
    d.read.connection = .closed .other

instance (c : QuicClient) (d : Datagram) : Decidable (Fails c d) :=
  inferInstanceAs (Decidable (_ ∧ _ ∧ _))

/-- **What one datagram does.**  The requests made stay safe unless the handshake
fails. -/
theorem safe_receive_iff (hI : Inv c) (hS : Safe c) (h : c.receive d = some t) :
    Safe t ↔ ¬ Fails c d := by
  have hlen : t.requests.length ≤ 1 := (inv_receive hI h).once
  unfold receive at h
  split_ifs at h with ha hcb
  · have hH := handled_of_callback hI (Bool.eq_false_iff.2 ha) hcb h
    rcases afterRead_cases hI hcb d.read with ⟨hrd, hb, hs⟩ | ⟨hrd, hb, hr⟩ | ⟨hrd, -, hr, hs⟩
    · obtain ⟨-, -, hreq⟩ := hH.connected hb
      refine iff_of_true ⟨hlen, ?_⟩ fun hF => absurd (hrd.symm.trans hF.2.2) (by decide)
      rcases hreq with hreq | ⟨hst, hreq⟩
      · exact hreq ▸ hS.2
      · rw [hreq, hI.unsent hst]
        simp
    · obtain ⟨-, -, e, hreq⟩ := hH.closed hb hr
      cases hst : c.curState with
      | connectLoop =>
        refine iff_of_false (fun hSt => ?_) (not_not.2 ⟨hcb, hst, hrd⟩)
        have hm := hSt.2 ⟨false, e⟩ (by simp [hreq, hst])
        exact Bool.false_ne_true (congrArg Moment.connected hm)
      | sendRequest | after =>
        have ht : t.requests = c.requests := by simpa [hst] using hreq
        exact iff_of_true ⟨hlen, ht ▸ hS.2⟩ fun hF => absurd (hst.symm.trans hF.2.1) (by decide)
    · obtain ⟨-, hreq, -⟩ := hH.rejected hI hr hs
      exact iff_of_true ⟨hlen, hreq ▸ hS.2⟩ fun hF => absurd (hrd.symm.trans hF.2.2) (by decide)
  · obtain rfl := Option.some.inj h
    exact iff_of_true hS fun hF => hcb hF.1

/-- **The request is unsafe in one way only.**  In a run of datagrams from
`StartApplication` there is never a second call of `SendRequest`, and every call
finds a connected session with encryption established exactly if no datagram read
in `CONNECT_LOOP` closes the connection with an error other than a stateless
reject. -/
theorem always_safe_iff (m : ℕ) (os : List Created) {ds : List Datagram}
    (hstart : startApplication m os = some c) (hrun : run receive c ds = some t) :
    (Always receive Safe c ds ↔ EachStep receive (fun c d => ¬ Fails c d) c ds) ∧
      Always receive (fun c => c.requests.length ≤ 1) c ds := by
  have hI := inv_startApplication hstart
  have hS : Safe c := by
    obtain ⟨r, -, rfl⟩ := Option.map_eq_some_iff.1 hstart
    exact ⟨Nat.zero_le 1, by simp⟩
  refine ⟨always_iff_eachStep (fun _ _ _ hI h => inv_receive hI h)
    (fun _ _ _ hI hS h => safe_receive_iff hI hS h) hI hS hrun, ?_⟩
  exact (always_inv hstart ds).mono fun _ hI => hI.once

/-- A handshake of two packets, after which the request is made. -/
theorem always_safe_handshake :
    ∃ c t, startApplication 100 [⟨true, false, 1⟩] = some c ∧
      run receive c [⟨.packet ⟨.connected, false, false, 1, [], 0, true⟩, []⟩,
        ⟨.packet ⟨.connected, true, false, 2, [], 0, true⟩, []⟩] = some t ∧
      t.requests = [⟨true, true⟩] ∧
      Always receive Safe c [⟨.packet ⟨.connected, false, false, 1, [], 0, true⟩, []⟩,
        ⟨.packet ⟨.connected, true, false, 2, [], 0, true⟩, []⟩] :=
  ⟨_, _, rfl, rfl, rfl, (always_safe_iff 100 [⟨true, false, 1⟩] rfl rfl).1.2 (by decide)⟩

/-- A packet that closes the connection during the handshake, with an error other
than a stateless reject, makes the client send its request on the closed
connection. -/
theorem exists_request_on_closed :
    ∃ c t, startApplication 100 [⟨true, false, 1⟩] = some c ∧
      run receive c [⟨.packet ⟨.closed .other, false, false, 1, [], 0, true⟩, []⟩] = some t ∧
      t.requests = [⟨false, false⟩] ∧ ¬ Safe t :=
  ⟨_, _, rfl, rfl, rfl, fun h => absurd (h.2 ⟨false, false⟩ (List.mem_singleton.2 rfl)) (by decide)⟩

end QuicClient
end Client
end QuicNs3
