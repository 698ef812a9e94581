import BytecodeDebugger.Proofs.Connect.QueueConnection

/-!
# The life cycle of a connection

A connection over a queue, with calls on it in any order and whatever happens at the far end between
them: frames are queued, opening or sending starts to fail or works again, the stream is shut down.
What one event can make of a connection is said once, as a turn of its life cycle; what holds after
every event follows from it.

Main facts: `Event.turn` (what an event makes of a connection), `coupled_run` (a connection is
connected exactly while its transport is open), `lastCode_run` (the last frame received is known by
its code) and `lifeCycle_run`.
-/

namespace BytecodeDebugger.Connection

variable {c c' : Connection QueueTransport}

/-! ## Connections that are up or down -/

/-- Connected, over an open transport. -/
def IsUp (c : Connection QueueTransport) : Prop :=
  c.state = .connected ∧ c.transport.isOpen = true

/-- Disconnected, over a closed transport. -/
def IsDown (c : Connection QueueTransport) : Prop :=
  c.state = .disconnected ∧ c.transport.isOpen = false

/-- Either connected over an open transport, or disconnected over a closed one. -/
def Coupled (c : Connection QueueTransport) : Prop := c.IsUp ∨ c.IsDown

/-- A connection over a transport that was never opened. -/
def unopened : Connection QueueTransport := .new .new

theorem isDown_unopened : unopened.IsDown := ⟨rfl, rfl⟩

theorem IsUp.isConnected (h : c.IsUp) : c.isConnected = true := by
  simp [Connection.isConnected, h.1]

theorem IsDown.isConnected (h : c.IsDown) : c.isConnected = false := by
  simp [Connection.isConnected, h.1]

/-- The connection with a further frame that was sent. -/
def keep (c : Connection QueueTransport) (f : Frame) : Connection QueueTransport :=
  { c with transport := { c.transport with sent := c.transport.sent ++ [f] } }

/-- The connection after a frame was taken off the queue. -/
def hear (c : Connection QueueTransport) (f : Frame) (rest : List Frame) :
    Connection QueueTransport :=
  { c with
    transport := { c.transport with incoming := rest }
    lastCode := some f.code }

/-- The connection with its transport opened once more. -/
def openedOnce (c : Connection QueueTransport) : Connection QueueTransport :=
  { c with
    transport := { c.transport with isOpen := true, opens := c.transport.opens + 1 }
    state := .connected }

theorem isUp_openedOnce (c : Connection QueueTransport) : c.openedOnce.IsUp := ⟨rfl, rfl⟩

theorem IsUp.keep (h : c.IsUp) (f : Frame) : (c.keep f).IsUp := h

theorem IsUp.close (h : c.IsUp) : c.close.IsDown := by
  rw [Connection.close, if_pos h.isConnected]
  exact ⟨rfl, rfl⟩

@[simp] theorem sent_close : c.close.transport.sent = c.transport.sent := by
  unfold close
  split <;> rfl

@[simp] theorem opens_close : c.close.transport.opens = c.transport.opens := by
  unfold close
  split <;> rfl

/-! ## Calls on connections that are up or down -/

theorem IsUp.connect_eq (h : c.IsUp) : c.connect = (.ok (), c) := by
  rw [connect, if_pos h.isConnected]

/-- Opening what is down works unless the transport refuses. -/
theorem IsDown.connect_eq (h : c.IsDown) :
    c.connect =
      if c.transport.failOpen then
        (.error (.unavailable "memory" ⟨.connectionRefused, "refused"⟩), c)
      else (.ok (), c.openedOnce) := by
  have hestablish : Transport.establish c.transport = c.transport.establish := rfl
  rw [connect, if_neg (by simp [h.isConnected]), hestablish, QueueTransport.establish]
  by_cases hfail : c.transport.failOpen = true
  · rw [if_pos hfail, if_pos hfail]
  · rw [if_neg hfail, if_neg hfail]
    rfl

/-- A frame is kept, or the connection is closed because the transport refuses it. -/
theorem IsUp.send_eq (h : c.IsUp) (f : Frame) :
    c.send f =
      if c.transport.failSend then (.error (.io ⟨.brokenPipe, "broken"⟩), c.close)
      else (.ok (), c.keep f) := by
  have hsend : Transport.send f c.transport = c.transport.send f := rfl
  rw [send, onTransport, if_pos h.isConnected, hsend, QueueTransport.send, if_neg (by simp [h.2])]
  by_cases hfail : c.transport.failSend = true
  · rw [if_pos hfail, if_pos hfail]
  · rw [if_neg hfail, if_neg hfail]
    rfl

/-- The next frame is taken off the queue, or the connection is closed at its end. -/
theorem IsUp.receive_eq (h : c.IsUp) :
    c.receive =
      match c.transport.incoming with
      | [] => (.ok none, c.close)
      | f :: rest => (.ok (some f), c.hear f rest) := by
  have hreceive : Transport.receive c.transport = c.transport.receive := rfl
  rw [receive, onTransport, if_pos h.isConnected, hreceive, QueueTransport.receive,
    if_neg (by simp [h.2])]
  cases c.transport.incoming <;> rfl

theorem IsDown.close_eq (h : c.IsDown) : c.close = c := by
  rw [Connection.close, if_neg (by simp [h.isConnected])]

/-- A last frame is kept, unless the transport refuses it, and the connection is closed. -/
theorem IsUp.finalize_eq (h : c.IsUp) (r : Role) :
    c.finalize r =
      if c.transport.failSend then c.close else (c.keep (.ofRole r "\n")).close := by
  have hline : c.writeLine r "" = c.send (.ofRole r "\n") := rfl
  rw [finalize, if_pos h.isConnected, hline, h.send_eq]
  split
  · -- the failure has closed the connection, and closing again does nothing
    exact h.close.close_eq
  · rfl

theorem IsDown.finalize_eq (h : c.IsDown) (r : Role) : c.finalize r = c := by
  rw [finalize, if_neg (by simp [h.isConnected])]

/-! ## Calls on connections that take everything -/

/-- Connected, over an open transport that refuses no frame. -/
def IsSteady (c : Connection QueueTransport) : Prop := c.IsUp ∧ c.transport.failSend = false

theorem IsSteady.keep (h : c.IsSteady) (f : Frame) : (c.keep f).IsSteady := h

theorem IsSteady.hear (h : c.IsSteady) (f : Frame) (rest : List Frame) :
    (c.hear f rest).IsSteady := h

theorem IsSteady.send_eq (h : c.IsSteady) (f : Frame) : c.send f = (.ok (), c.keep f) := by
  rw [h.1.send_eq, if_neg (by simp [h.2])]

theorem IsSteady.finalize_eq (h : c.IsSteady) (r : Role) :
    c.finalize r = (c.keep (.ofRole r "\n")).close := by
  rw [h.1.finalize_eq, if_neg (by simp [h.2])]

theorem IsSteady.receive_of_cons (h : c.IsSteady) {f : Frame} {rest : List Frame}
    (hqueue : c.transport.incoming = f :: rest) : c.receive = (.ok (some f), c.hear f rest) := by
  rw [h.1.receive_eq, hqueue]

theorem IsSteady.receive_of_nil (h : c.IsSteady) (hqueue : c.transport.incoming = []) :
    c.receive = (.ok none, c.close) := by
  rw [h.1.receive_eq, hqueue]

/-! ## Events -/

/-- A call on a connection, or something that happens at the far end. -/
inductive Event where
  | connect
  | send (f : Frame)
  | write (r : Role) (text : String)
  | writeLine (r : Role) (text : String)
  | receive
  | close
  | finalize (r : Role)
  /-- A frame is queued. -/
  | push (f : Frame)
  /-- Opening fails from now on, or works again. -/
  | refuseOpens (refuse : Bool)
  /-- Sending fails from now on, or works again. -/
  | refuseSends (refuse : Bool)
  /-- The stream is shut down from outside. -/
  | shutdown
  deriving DecidableEq, Repr

namespace Event

/-- What an event makes of a connection. -/
def act : Event → Connection QueueTransport → Connection QueueTransport
  | .connect, c => c.connect.2
  | .send f, c => (c.send f).2
  | .write r text, c => (c.write r text).2
  | .writeLine r text, c => (c.writeLine r text).2
  | .receive, c => c.receive.2
  | .close, c => c.close
  | .finalize r, c => c.finalize r
  | .push f, c => c.push [f]
  | .refuseOpens refuse, c => { c with transport := { c.transport with failOpen := refuse } }
  | .refuseSends refuse, c => { c with transport := { c.transport with failSend := refuse } }
  | .shutdown, c => { c with transport := c.transport.shutdown }

/-- The frame that an event receives, if it receives one. -/
def received? : Event → Connection QueueTransport → Option Frame
  | .receive, c => c.receive.1.toOption.join
  | _, _ => none

/-- The frame that an event asks to send in the middle of a session. -/
def request? : Event → Option Frame
  | .send f => some f
  | .write r text => some (.ofRole r text)
  | .writeLine r text => some (.ofRole r (text ++ "\n"))
  | _ => none

end Event

/-- What events make of a connection, one after the other. -/
def run : List Event → Connection QueueTransport → Connection QueueTransport
  | [], c => c
  | e :: rest, c => run rest (e.act c)

/-- The frames that events receive, one after the other. -/
def receivedBy : List Event → Connection QueueTransport → List Frame
  | [], _ => []
  | e :: rest, c => (e.received? c).toList ++ receivedBy rest (e.act c)

/-! ## Turns of the life cycle -/

/-- What one event can make of a connection, as far as its life cycle and the frames sent are
concerned, when the event asks to send a frame or none. -/
inductive Turn (request : Option Frame) (c c' : Connection QueueTransport) : Prop
  /-- Nothing changes. -/
  | stays (hstate : c'.state = c.state) (hopen : c'.transport.isOpen = c.transport.isOpen)
    (hsent : c'.transport.sent = c.transport.sent) (hopens : c'.transport.opens = c.transport.opens)
  /-- It is opened. -/
  | opens (hdown : c.IsDown) (hup : c'.IsUp) (hsent : c'.transport.sent = c.transport.sent)
    (hopens : c'.transport.opens = c.transport.opens + 1)
  /-- A frame is sent, and it stays connected. -/
  | sends (f : Frame) (hrequest : request = some f) (hup : c.IsUp) (hup' : c'.IsUp)
    (hsent : c'.transport.sent = c.transport.sent ++ [f])
    (hopens : c'.transport.opens = c.transport.opens)
  /-- It is closed, maybe after a last frame. -/
  | closes (last : Option Frame) (hup : c.IsUp) (hdown : c'.IsDown)
    (hsent : c'.transport.sent = c.transport.sent ++ last.toList)
    (hopens : c'.transport.opens = c.transport.opens)

namespace Turn

variable {request : Option Frame}

/-- A turn leaves a connection connected exactly while its transport is open. -/
theorem coupled (h : Turn request c c') (hc : c.Coupled) : c'.Coupled := by
  cases h with
  | stays hstate hopen _ _ =>
    rcases hc with hup | hdown
    · exact .inl ⟨hstate.trans hup.1, hopen.trans hup.2⟩
    · exact .inr ⟨hstate.trans hdown.1, hopen.trans hdown.2⟩
  | opens _ hup _ _ => exact .inl hup
  | sends _ _ _ hup' _ _ => exact .inl hup'
  | closes _ _ hdown _ _ => exact .inr hdown

theorem connect (hc : c.Coupled) : Turn none c c.connect.2 := by
  rcases hc with hup | hdown
  · rw [hup.connect_eq]
    exact .stays rfl rfl rfl rfl
  · rw [hdown.connect_eq]
    split
    · exact .stays rfl rfl rfl rfl
    · exact .opens hdown c.isUp_openedOnce rfl rfl

theorem send (hc : c.Coupled) (f : Frame) : Turn (some f) c (c.send f).2 := by
  rcases hc with hup | hdown
  · rw [hup.send_eq]
    split
    · exact .closes none hup hup.close (by simp) (by simp)
    · exact .sends f rfl hup (hup.keep f) rfl rfl
  · rw [send_of_not_connected f hdown.isConnected]
    exact .stays rfl rfl rfl rfl

theorem receive (hc : c.Coupled) : Turn none c c.receive.2 := by
  rcases hc with hup | hdown
  · rw [hup.receive_eq]
    split
    · exact .closes none hup hup.close (by simp) (by simp)
    · exact .stays rfl rfl rfl rfl
  · rw [receive_of_not_connected hdown.isConnected]
    exact .stays rfl rfl rfl rfl

theorem close (hc : c.Coupled) : Turn none c c.close := by
  rcases hc with hup | hdown
  · exact .closes none hup hup.close (by simp) (by simp)
  · rw [hdown.close_eq]
    exact .stays rfl rfl rfl rfl

theorem finalize (hc : c.Coupled) (r : Role) : Turn none c (c.finalize r) := by
  rcases hc with hup | hdown
  · rw [hup.finalize_eq]
    split
    · exact .closes none hup hup.close (by simp) (by simp)
    · exact .closes (some (.ofRole r "\n")) hup (hup.keep _).close sent_close opens_close
  · rw [hdown.finalize_eq]
    exact .stays rfl rfl rfl rfl

end Turn

/-- Every event is a turn. -/
theorem Event.turn (e : Event) (hc : c.Coupled) : Turn e.request? c (e.act c) := by
  cases e with
  | connect => exact .connect hc
  | send f => exact .send hc f
  | write r text => exact .send hc _
  | writeLine r text => exact .send hc _
  | receive => exact .receive hc
  | close => exact .close hc
  | finalize r => exact .finalize hc r
  | push f => exact .stays rfl rfl rfl rfl
  | refuseOpens refuse => exact .stays rfl rfl rfl rfl
  | refuseSends refuse => exact .stays rfl rfl rfl rfl
  | shutdown => exact .stays rfl rfl rfl rfl

/-- After any events, a connection is connected exactly while its transport is open. -/
theorem coupled_run (events : List Event) (hc : c.Coupled) : (run events c).Coupled := by
  induction events generalizing c with
  | nil => exact hc
  | cons e rest ih => exact ih ((e.turn hc).coupled hc)

/-! ## The last frame received -/

/-- Only a frame that is received changes the code that is remembered. -/
theorem Event.lastCode_act (e : Event) (hc : c.Coupled) :
    (e.act c).lastCode = ((e.received? c).map Frame.code).or c.lastCode := by
  have hclose : ∀ d : Connection QueueTransport, d.close.lastCode = d.lastCode := by
    intro d
    unfold Connection.close
    split <;> rfl
  have hsend : ∀ f, (c.send f).2.lastCode = c.lastCode := by
    intro f
    rcases hc with hup | hdown
    · rw [hup.send_eq]
      split
      · exact hclose c
      · rfl
    · rw [send_of_not_connected f hdown.isConnected]
  cases e with
  | connect =>
    rcases hc with hup | hdown
    · exact congrArg (fun r => r.2.lastCode) hup.connect_eq
    · simp only [act, received?, hdown.connect_eq]
      split <;> rfl
  | send f => exact hsend f
  | write r text => exact hsend _
  | writeLine r text => exact hsend _
  | receive =>
    rcases hc with hup | hdown
    · simp only [act, received?, hup.receive_eq]
      split
      · exact hclose c
      · rfl
    · simp only [act, received?, receive_of_not_connected hdown.isConnected]
      rfl
  | close => exact hclose c
  | finalize r =>
    rcases hc with hup | hdown
    · simp only [act, received?, hup.finalize_eq]
      split
      · exact hclose c
      · exact hclose _
    · exact congrArg lastCode (hdown.finalize_eq r)
  | push f => rfl
  | refuseOpens refuse => rfl
  | refuseSends refuse => rfl
  | shutdown => rfl

/-- After any events, the code that is remembered is that of the last frame received. -/
theorem lastCode_run (events : List Event) (hc : c.Coupled) :
    (run events c).lastCode = ((receivedBy events c).getLast?.map Frame.code).or c.lastCode := by
  induction events generalizing c with
  | nil => rfl
  | cons e rest ih =>
    rw [run, ih ((e.turn hc).coupled hc), e.lastCode_act hc, receivedBy, List.getLast?_append,
      Option.map_or, Option.or_assoc]
    cases e.received? c <;> rfl

/-! ## Calls that fail -/

/-- A connection that could not be opened is down. -/
theorem Coupled.isDown_of_connect (hc : c.Coupled) {e : ConnectError}
    (h : c.connect = (.error e, c')) : c'.IsDown := by
  rcases hc with hup | hdown
  · rw [hup.connect_eq] at h
    cases h
  · rw [hdown.connect_eq] at h
    split at h <;> cases h
    exact hdown

/-- A connection that could not send a frame is down. -/
theorem Coupled.isDown_of_send (hc : c.Coupled) {f : Frame} {e : ConnectError}
    (h : c.send f = (.error e, c')) : c'.IsDown := by
  rcases hc with hup | hdown
  · rw [hup.send_eq] at h
    split at h <;> cases h
    exact hup.close
  · rw [send_of_not_connected f hdown.isConnected] at h
    cases h
    exact hdown

/-- A connection that received no frame is down, be it a failure or the end of the stream. -/
theorem Coupled.isDown_of_receive (hc : c.Coupled)
    {r : Except ConnectError (Option Frame)} (hr : ∀ f, r ≠ .ok (some f))
    (h : c.receive = (r, c')) : c'.IsDown := by
  rcases hc with hup | hdown
  · rw [hup.receive_eq] at h
    split at h <;> cases h
    · exact hup.close
    · exact absurd rfl (hr _)
  · rw [receive_of_not_connected hdown.isConnected] at h
    cases h
    exact hdown

/-- A connection that could be opened is up. -/
theorem Coupled.isUp_of_connect (hc : c.Coupled) (h : c.connect = (.ok (), c')) : c'.IsUp := by
  rcases hc with hup | hdown
  · rw [hup.connect_eq] at h
    cases h
    exact hup
  · rw [hdown.connect_eq] at h
    split at h <;> cases h
    exact c.isUp_openedOnce

theorem Coupled.isUp_of_connected (hc : c.Coupled) (h : c.state = .connected) : c.IsUp := by
  rcases hc with hup | hdown
  · exact hup
  · rw [hdown.1] at h
    cases h

theorem Coupled.isDown_of_not_connected (hc : c.Coupled) (h : c.state ≠ .connected) : c.IsDown := by
  rcases hc with hup | hdown
  · exact absurd hup.1 h
  · exact hdown

/-! ## At any time -/

/-- What holds of a connection at any time of its life, when so many frames were received. -/
structure LifeCycle (received : List Frame) (c : Connection QueueTransport) : Prop where
  /-- It is not on the way between the two states. -/
  state_eq : c.state = .connected ∨ c.state = .disconnected
  connected_iff : c.state = .connected ↔ c.transport.isOpen = true
  connect_of_connected : c.state = .connected → c.connect = (.ok (), c)
  /-- What is not connected is opened, unless the transport refuses. -/
  connect_of_not : c.state ≠ .connected → c.connect =
    if c.transport.failOpen then (.error (.unavailable "memory" ⟨.connectionRefused, "refused"⟩), c)
    else (.ok (), c.openedOnce)
  isUp_of_connect : ∀ c', c.connect = (.ok (), c') → c'.IsUp
  isDown_of_connect_fails : ∀ e c', c.connect = (.error e, c') → c'.IsDown
  /-- A frame is sent while it is connected, unless the transport refuses. -/
  send_of_connected : c.state = .connected → ∀ f, c.send f =
    if c.transport.failSend then (.error (.io ⟨.brokenPipe, "broken"⟩), c.close)
    else (.ok (), c.keep f)
  isDown_of_send_fails : ∀ f e c', c.send f = (.error e, c') → c'.IsDown
  isDown_of_write_fails : ∀ r text e c', c.write r text = (.error e, c') → c'.IsDown
  isDown_of_writeLine_fails : ∀ r text e c', c.writeLine r text = (.error e, c') → c'.IsDown
  /-- The first queued frame is received while it is connected, until there is none. -/
  receive_of_connected : c.state = .connected → c.receive =
    match c.transport.incoming with
    | [] => (.ok none, c.close)
    | f :: rest => (.ok (some f), c.hear f rest)
  isDown_of_receive_fails : ∀ e c', c.receive = (.error e, c') → c'.IsDown
  isDown_of_receive_ends : ∀ c', c.receive = (.ok none, c') → c'.IsDown
  /-- A frame cannot be sent while it is not connected, and nothing changes. -/
  send_of_not : c.state ≠ .connected → ∀ f, c.send f = (.error .notConnected, c)
  /-- A frame cannot be received while it is not connected, and nothing changes. -/
  receive_of_not : c.state ≠ .connected → c.receive = (.error .notConnected, c)
  lastCode_eq : c.lastCode = received.getLast?.map Frame.code

/-- Whatever is called on a connection, and whatever happens at its far end, it keeps to its life
cycle: it is connected exactly while its transport is open, an opening connects it, every failure
and the end of the stream disconnect it, frames go out and come in one after the other while it is
connected and nothing happens on it while it is not, and it remembers the code of the last frame
received. -/
theorem lifeCycle_run (events : List Event) :
    LifeCycle (receivedBy events unopened) (run events unopened) := by
  have hc : (run events unopened).Coupled := coupled_run events (.inr isDown_unopened)
  have hnot : (run events unopened).state ≠ .connected →
      (run events unopened).isConnected = false := by
    intro hne
    simpa [isConnected] using hne
  constructor
  case state_eq => exact hc.imp And.left And.left
  case connected_iff =>
    rcases hc with ⟨hstate, hopen⟩ | ⟨hstate, hopen⟩ <;> simp [hstate, hopen]
  case connect_of_connected => exact fun h => (hc.isUp_of_connected h).connect_eq
  case connect_of_not => exact fun hne => (hc.isDown_of_not_connected hne).connect_eq
  case isUp_of_connect => exact fun c' => hc.isUp_of_connect
  case send_of_connected => exact fun h => (hc.isUp_of_connected h).send_eq
  case receive_of_connected => exact fun h => (hc.isUp_of_connected h).receive_eq
  case isDown_of_connect_fails => exact fun e c' => hc.isDown_of_connect
  case isDown_of_send_fails => exact fun f e c' => hc.isDown_of_send
  case isDown_of_write_fails => exact fun r text e c' => hc.isDown_of_send
  case isDown_of_writeLine_fails => exact fun r text e c' => hc.isDown_of_send
  case isDown_of_receive_fails => exact fun e c' => hc.isDown_of_receive (by simp)
  case isDown_of_receive_ends => exact fun c' => hc.isDown_of_receive (by simp)
  case send_of_not => exact fun hne f => send_of_not_connected f (hnot hne)
  case receive_of_not => exact fun hne => receive_of_not_connected (hnot hne)
  case lastCode_eq =>
    rw [lastCode_run events (.inr isDown_unopened)]
    exact Option.or_none

/-- A connection is opened and receives, is closed by a frame that cannot be sent, and is opened
again: it still knows the frame it received, and nothing arrives before it is opened. -/
theorem lifeCycle_run_reopened :
    (run [.push (.reply "go"), .connect] unopened).receive.1 = .ok (some (.reply "go")) ∧
      (run [.push (.reply "go"), .connect, .receive, .refuseSends true] unopened).IsUp ∧
      (run [.push (.reply "go"), .connect, .receive, .refuseSends true, .write .print "hello"]
        unopened).IsDown ∧
      (run [.push (.reply "go"), .connect, .receive, .refuseSends true, .write .print "hello"]
        unopened).receive.1 = .error .notConnected ∧
      (run [.push (.reply "go"), .connect, .receive, .refuseSends true, .write .print "hello",
        .connect] unopened).IsUp ∧
      (run [.push (.reply "go"), .connect, .receive, .refuseSends true, .write .print "hello",
        .connect] unopened).lastCode = some replyCode := by
  have hopened := lifeCycle_run [.push (.reply "go"), .connect]
  have hbroken := lifeCycle_run
    [.push (.reply "go"), .connect, .receive, .refuseSends true, .write .print "hello"]
  have hreopened := lifeCycle_run
    [.push (.reply "go"), .connect, .receive, .refuseSends true, .write .print "hello", .connect]
  refine ⟨?_, ⟨by decide, by decide⟩, ?_, ?_, ?_, ?_⟩
  · rw [hopened.receive_of_connected (by decide)]
    decide
  · exact (lifeCycle_run [.push (.reply "go"), .connect, .receive, .refuseSends true])
      |>.isDown_of_write_fails .print "hello" (.io ⟨.brokenPipe, "broken"⟩) _ (by decide)
  · rw [hbroken.receive_of_not (by decide)]
  · exact hbroken.isUp_of_connect _ (by decide)
  · rw [hreopened.lastCode_eq]
    decide

end BytecodeDebugger.Connection
