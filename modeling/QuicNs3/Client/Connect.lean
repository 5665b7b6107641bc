/-
# One read and one `Connect`

Two projections of the client carry every later argument: its `flags` (the
socket's callback, `read_pending_`, `packet_reader_started_`, and whether an
attempt has been made) and its `link` (the state of the current connection and of
its encryption).  Sending and resending change neither, the event loop does not
change the link, and `connect_of_not_connected` says what one call of `Connect`
does: its loop runs its body at most once, for a session just created has met no
stateless reject.  `onReadComplete_flags` says when one read puts the callback
back.

A client is `Idle` before its request: it has no stream for `OnClose` to be run on
and nothing saved to be sent again, and neither reading nor connecting changes that.
-/

import QuicNs3.Client.Basic

namespace QuicNs3
namespace Client

/-- Where the socket's callback and the sequence of attempts stand. -/
structure Flags where
  recvCallback : Bool
  readPending : Bool
  packetReaderStarted : Bool
  connectedOrAttemptingConnect : Bool
  deriving Repr, DecidableEq

/-- The connection of a new session, and whether its encryption is established. -/
def Created.link (o : Created) : Connection × Bool :=
  (if o.connected then .connected else .closed .other, o.encryptionEstablished)

/-- How a read leaves a connection that was open. -/
def Read.connection : Read → Connection
  | .error => .closed .other
  | .packet o => o.connection

namespace Session

variable {s : Session}

theorem processUdpPacket_of_idle (o : Outcome) (h : s.active = []) :
    (s.processUdpPacket o).active = [] := by
  cases hc : s.connected <;> simp [processUdpPacket, hc, h, closing]

theorem closedByPacket_of_idle (o : Outcome) (h : s.active = []) : s.closedByPacket o = [] := by
  simp [closedByPacket, h, closing]

theorem closeConnection_of_idle (h : s.active = []) : s.closeConnection.active = [] := by
  unfold closeConnection
  split_ifs
  · rfl
  · exact h

theorem closedByClose_of_idle (h : s.active = []) : s.closedByClose = [] := by
  simp [closedByClose, h]

end Session

namespace ClientBase

variable {c c' : ClientBase} {o : Created} {os : List Created} {r : Request}

def flags (c : ClientBase) : Flags :=
  ⟨c.recvCallback, c.readPending, c.packetReaderStarted, c.connectedOrAttemptingConnect⟩

/-- The current connection and whether its encryption is established. -/
def link (c : ClientBase) : Option (Connection × Bool) :=
  c.session.map fun s => (s.connection, s.encryptionEstablished)

theorem connected_eq : c.connected = c.link.any fun l => decide (l.1 = .connected) := by
  unfold connected link
  cases c.session <;> rfl

theorem rejected_eq :
    c.rejected = c.link.any fun l => decide (l.1 = .closed .statelessReject) := by
  unfold rejected link
  cases c.session <;> rfl

theorem encryptionBeingEstablished_eq :
    c.encryptionBeingEstablished = c.link.any fun l => !l.2 && decide (l.1 = .connected) := by
  unfold encryptionBeingEstablished link
  cases c.session <;> rfl

theorem not_rejected_of_connected (h : c.connected = true) : c.rejected = false := by
  rw [connected_eq] at h
  rw [rejected_eq]
  cases hl : c.link with
  | none => rfl
  | some l => simp_all

theorem encryptionBeingEstablished_of_closed (h : c.connected = false) :
    c.encryptionBeingEstablished = false := by
  rw [connected_eq] at h
  rw [encryptionBeingEstablished_eq]
  cases hl : c.link with
  | none => rfl
  | some l => simp_all

/-! ## What sending leaves alone -/

@[simp] theorem sendRequest_flags : (c.sendRequest r).flags = c.flags := by
  unfold sendRequest
  split
  · rfl
  · split <;> rfl

@[simp] theorem sendRequest_link : (c.sendRequest r).link = c.link := by
  unfold sendRequest
  split
  · rfl
  · rename_i s hs
    split
    · simp [link, hs, Session.sendOnStream]
    · rfl

theorem foldl_sendRequest (rs : List Request) :
    (rs.foldl sendRequest c).flags = c.flags ∧ (rs.foldl sendRequest c).link = c.link := by
  induction rs generalizing c with
  | nil => exact ⟨rfl, rfl⟩
  | cons r rs ih => simpa using ih (c := c.sendRequest r)

@[simp] theorem resendSavedData_flags : c.resendSavedData.flags = c.flags :=
  (foldl_sendRequest _).1

@[simp] theorem resendSavedData_link : c.resendSavedData.link = c.link :=
  (foldl_sendRequest _).2

@[simp] theorem finishConnect_flags : c.finishConnect.2.flags = c.flags := by
  unfold finishConnect
  split <;> rfl

@[simp] theorem finishConnect_session : c.finishConnect.2.session = c.session := by
  unfold finishConnect
  split <;> rfl

@[simp] theorem finishConnect_link : c.finishConnect.2.link = c.link := by
  simp [link]

@[simp] theorem connectLogic_flags : c.connectLogic.2.flags = c.flags := by
  unfold connectLogic
  dsimp only
  split <;> simp

@[simp] theorem connectLogic_link : c.connectLogic.2.link = c.link := by
  unfold connectLogic
  dsimp only
  split <;> simp

/-- There is another attempt to make only after a stateless reject. -/
theorem connectLogic_fst (hs : c.session.isSome) : c.connectLogic.1 = c.rejected := by
  have hl : c.connectLogic.2.session.isSome := by
    have h := congrArg Option.isSome (connectLogic_link (c := c))
    simpa [link, hs] using h
  have hr : c.connectLogic.2.rejected = c.rejected := by
    rw [rejected_eq, rejected_eq, connectLogic_link]
  show (c.connectLogic.2.session.isNone || c.connectLogic.2.rejected) = c.rejected
  rw [hr]
  cases h : c.connectLogic.2.session with
  | none => simp [h] at hl
  | some s => simp

/-! ## The event loop and `Connect` -/

@[simp] theorem startReading_session : c.startReading.session = c.session := by
  unfold startReading
  split <;> rfl

@[simp] theorem runEventLoop_session : c.runEventLoop.session = c.session := by
  unfold runEventLoop
  split <;> simp

@[simp] theorem runEventLoop_link : c.runEventLoop.link = c.link := by
  simp [link]

theorem runEventLoop_of_started (h : c.packetReaderStarted = true) : c.runEventLoop = c := by
  simp [runEventLoop, h]

/-- On a connected session `WaitForEvents` is the event loop, and never comes
back to `Connect`. -/
theorem waitForEvents_of_connected (h : c.connected = true) :
    c.waitForEvents os = some (decide (c.runEventLoop.numActiveRequests ≠ 0), c.runEventLoop) := by
  have hc : c.runEventLoop.connected = true := by
    rw [connected_eq, runEventLoop_link, ← connected_eq, h]
  simp [waitForEvents, h, hc]

/-- On a closed one it ends the program: its own call of `Connect` is never made. -/
theorem waitForEvents_of_closed (h : c.connected = false) :
    c.waitForEvents os = some (false, { c with aborted := true }) := by
  simp [waitForEvents, h]

@[simp] theorem startConnect_session : (c.startConnect o).session = some (.new o) := rfl

/-- One attempt: a new session that is still being encrypted is waited for, one
whose encryption is established is sent the saved requests, and one that is
closed ends the sequence. -/
def attempt (c : ClientBase) (o : Created) : ClientBase :=
  if o.connected then
    if o.encryptionEstablished then (c.startConnect o).resendSavedData
    else (c.startConnect o).runEventLoop
  else c.startConnect o

theorem startConnect_link : (c.startConnect o).link = some o.link := rfl

@[simp] theorem attempt_link : (c.attempt o).link = some o.link := by
  unfold attempt
  split_ifs <;> simp [startConnect_link]

/-- The packet reader is started once: an attempt made later does not start it. -/
theorem attempt_flags (h : c.packetReaderStarted = true)
    (ha : c.connectedOrAttemptingConnect = true) : (c.attempt o).flags = c.flags := by
  have hs : (c.startConnect o).flags = c.flags := by simp [startConnect, flags, ha]
  unfold attempt
  split_ifs
  · rw [resendSavedData_flags, hs]
  · rw [runEventLoop_of_started (show (c.startConnect o).packetReaderStarted = true from h), hs]
  · exact hs

theorem finishConnect_of_not_rejected (h : c.rejected = false) :
    c.finishConnect = (c.connected, c) := by
  simp [finishConnect, h]

theorem startConnect_not_rejected : (c.startConnect o).rejected = false := by
  rw [rejected_eq, startConnect_link]
  cases h : o.connected <;> simp [Created.link, h]

/-- The loop of `Connect`, whose body runs at most once. -/
theorem connect_of_not_connected (h : c.connected = false) :
    c.connect os =
      if c.getNumSentClientHellos ≤ kMaxClientHellos then
        os.head?.map fun o => (o.connected && o.encryptionEstablished, c.attempt o)
      else some c.finishConnect := by
  by_cases hn : c.getNumSentClientHellos ≤ kMaxClientHellos
  · cases os with
    | nil => simp [connect, h, hn]
    | cons o os =>
      have hl : (c.startConnect o).connectLogic.1 = false := by
        rw [connectLogic_fst rfl, startConnect_not_rejected]
      have hr : (c.startConnect o).connectLogic.2.rejected = false := by
        rw [rejected_eq, connectLogic_link, ← rejected_eq, startConnect_not_rejected]
      have hcon : (c.startConnect o).connected = o.connected := by
        rw [connected_eq, startConnect_link]
        cases h : o.connected <;> simp [Created.link, h]
      have hcl : (c.startConnect o).connectLogic.2.connected = o.connected := by
        rw [connected_eq, connectLogic_link, ← connected_eq, hcon]
      have he : (c.startConnect o).encryptionBeingEstablished =
          (!o.encryptionEstablished && o.connected) := by
        rw [encryptionBeingEstablished_eq, startConnect_link]
        cases h : o.connected <;> simp [Created.link, h]
      have hstep : c.connect (o :: os) =
          if !o.encryptionEstablished && o.connected then
            some (false, (c.startConnect o).runEventLoop)
          else some (o.connected, (c.startConnect o).connectLogic.2) := by
        simp [connect, h, hn, he, hl, finishConnect_of_not_rejected hr, hcl]
      rw [hstep]
      cases hoc : o.connected <;> cases hoe : o.encryptionEstablished <;>
        simp [hn, attempt, connectLogic, hcon, hoc, hoe]
  · cases os <;> simp [connect, hn]

/-- What a call of `Connect` does to a closed connection once the packet reader is
started: it may put a new one in its place, and leaves the callback as it is. -/
theorem connect_spec {r : Bool × ClientBase} (h : c.connected = false)
    (hs : c.packetReaderStarted = true) (ha : c.connectedOrAttemptingConnect = true)
    (hr : c.connect os = some r) :
    r.2.flags = c.flags ∧
      if c.getNumSentClientHellos ≤ kMaxClientHellos then
        ∃ o ∈ os.head?, r.2.link = some o.link
      else r.2.link = c.link := by
  rw [connect_of_not_connected h] at hr
  split_ifs at hr with hn
  · obtain ⟨o, ho, rfl⟩ := Option.map_eq_some_iff.1 hr
    rw [if_pos hn]
    exact ⟨attempt_flags hs ha, o, ho, attempt_link⟩
  · obtain rfl := Option.some.inj hr
    rw [if_neg hn]
    exact ⟨finishConnect_flags, finishConnect_link⟩

/-! ## One read -/

theorem exists_session_of_connected (h : c.connected = true) :
    ∃ s, c.session = some s ∧ s.connected = true := by
  cases hs : c.session with
  | none => simp [connected, hs] at h
  | some s => exact ⟨s, rfl, by simpa [connected, hs] using h⟩

/-- An open connection comes out of a read as the read says. -/
theorem onReadComplete_link (rd : Read) (h : c.connected = true) :
    ∃ e, (c.onReadComplete rd).link = some (rd.connection, e) := by
  obtain ⟨s, hs, hc⟩ := exists_session_of_connected h
  cases rd with
  | error =>
    exact ⟨s.encryptionEstablished, by
      simp [onReadComplete, disconnect, link, hs, Session.closeConnection, hc, Read.connection]⟩
  | packet o =>
    refine ⟨o.encryptionEstablished, ?_⟩
    unfold onReadComplete
    dsimp only
    split_ifs <;> simp [link, hs, Session.processUdpPacket, hc, Read.connection]

/-- A closed connection is not changed by a read. -/
theorem onReadComplete_link_of_closed (rd : Read) (h : c.connected = false) :
    (c.onReadComplete rd).link = c.link := by
  cases hs : c.session with
  | none => cases rd <;> simp [onReadComplete, disconnect, link, connected, hs]
  | some s =>
    have hc : s.connected = false := by simpa [connected, hs] using h
    cases rd with
    | error => simp [onReadComplete, disconnect, link, hs, Session.closeConnection, hc]
    | packet o => simp [onReadComplete, link, connected, hs, Session.processUdpPacket, hc]

theorem disconnect_not_connected : c.disconnect.connected = false := by
  cases hs : c.session with
  | none => simp [disconnect, connected, hs]
  | some s =>
    cases hc : s.connected <;>
      simp [disconnect, connected, hs, Session.closeConnection, hc]
    rfl

/-- The callback is put back exactly when the connection is still there. -/
theorem onReadComplete_flags (rd : Read) (hcb : c.recvCallback = false) :
    (c.onReadComplete rd).flags =
      { recvCallback := (c.onReadComplete rd).connected
        readPending := (c.onReadComplete rd).connected
        packetReaderStarted := c.packetReaderStarted && decide (rd ≠ .error)
        connectedOrAttemptingConnect := c.connectedOrAttemptingConnect } := by
  cases rd with
  | error =>
    have h := disconnect_not_connected (c := { c with readPending := false })
    simp only [onReadComplete, h]
    simp [flags, disconnect, hcb]
  | packet o =>
    unfold onReadComplete
    dsimp only
    split_ifs with hc
    · have h : ∀ c : ClientBase, c.startReading.connected = c.connected := fun c => by
        simp [connected]
      simp only [h, hc]
      simp [flags, startReading]
    · simp only [Bool.eq_false_iff.2 hc]
      simp [flags, hcb]

/-! ## Before the request -/

/-- There is no stream of a request, and no request to be sent again. -/
structure Idle (c : ClientBase) : Prop where
  active : ∀ s ∈ c.session, s.active = []
  saved : c.dataToResendOnConnect = []

theorem Idle.of_session (h : c.Idle) (hs : c'.session = c.session)
    (hd : c'.dataToResendOnConnect = c.dataToResendOnConnect) : c'.Idle :=
  ⟨hs ▸ h.active, hd.trans h.saved⟩

theorem Idle.runEventLoop (h : c.Idle) : c.runEventLoop.Idle := by
  refine h.of_session runEventLoop_session ?_
  unfold ClientBase.runEventLoop startReading
  split_ifs <;> rfl

theorem Idle.attempt (h : c.Idle) (o : Created) : (c.attempt o).Idle := by
  have hs : (c.startConnect o).Idle := by
    refine ⟨?_, by simp [startConnect, h.saved]⟩
    rintro s ⟨⟩
    rfl
  unfold ClientBase.attempt
  split_ifs
  · rw [resendSavedData, hs.saved]
    exact ⟨hs.active, rfl⟩
  · exact hs.runEventLoop
  · exact hs

theorem Idle.connect (h : c.Idle) {r : Bool × ClientBase} (hc : c.connected = false)
    (hr : c.connect os = some r) : r.2.Idle := by
  rw [connect_of_not_connected hc] at hr
  split_ifs at hr
  · obtain ⟨o, -, rfl⟩ := Option.map_eq_some_iff.1 hr
    exact h.attempt o
  · obtain rfl := Option.some.inj hr
    refine h.of_session finishConnect_session ?_
    unfold finishConnect
    split_ifs <;> rfl

/-- The streams that are closed in an idle client: none, where none is closed of none. -/
theorem Idle.closed (h : c.Idle) {f : Session → List Server.Response}
    (hf : ∀ s, s.active = [] → f s = []) : crashesOnClose (c.session.elim [] f) = false := by
  cases hs : c.session with
  | none => rfl
  | some s => rw [Option.elim_some, hf s (h.active s hs)]; rfl

/-- No stream is closed by a read, so that `OnClose` is not run. -/
theorem Idle.onReadComplete (h : c.Idle) (rd : Read) :
    (c.onReadComplete rd).Idle ∧ (c.onReadComplete rd).aborted = c.aborted := by
  cases rd with
  | error =>
    have hcrash := h.closed fun s => Session.closedByClose_of_idle (s := s)
    refine ⟨⟨fun s' hs' => ?_, rfl⟩, by simp [ClientBase.onReadComplete, disconnect, hcrash]⟩
    obtain ⟨s, hs, rfl⟩ := Option.map_eq_some_iff.1 hs'
    exact Session.closeConnection_of_idle (h.active s hs)
  | packet o =>
    have hcrash := h.closed fun s => Session.closedByPacket_of_idle (s := s) o
    have hact : ∀ s' ∈ c.session.map (Session.processUdpPacket · o), s'.active = [] := by
      intro s' hs'
      obtain ⟨s, hs, rfl⟩ := Option.map_eq_some_iff.1 hs'
      exact Session.processUdpPacket_of_idle o (h.active s hs)
    unfold ClientBase.onReadComplete startReading
    dsimp only
    split_ifs <;> exact ⟨⟨hact, h.saved⟩, by simp [hcrash]⟩

end ClientBase
end Client
end QuicNs3
