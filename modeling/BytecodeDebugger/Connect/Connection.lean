import BytecodeDebugger.Connect.Transport

/-!
# Connections

A transport with the state of its life cycle. A connection is disconnected until it is opened; any
failure to send or to receive, and the end of the stream, disconnects it again. A connection that is
let go while connected tells its peer with a quit frame.

Main facts: `send_of_not_connected` and `receive_of_not_connected` (nothing happens on a connection
that is not connected) and `isConnected_close` (closing disconnects).
-/

namespace BytecodeDebugger

/-- Where a connection is in its life cycle. -/
inductive ConnectionState where
  | disconnected
  | connected
  | closing
  deriving DecidableEq, Repr

/-- The name of a state. -/
def ConnectionState.name : ConnectionState → String
  | .disconnected => "Disconnected"
  | .connected => "Connected"
  | .closing => "Closing"

/-- A transport in its life cycle. -/
structure Connection (τ : Type) where
  transport : τ
  state : ConnectionState
  /-- The control code of the last frame received. -/
  lastCode : Option UInt8
  deriving DecidableEq, Repr

namespace Connection

variable {τ α : Type}

/-- A connection over a transport, not opened yet. -/
def new (transport : τ) : Connection τ := ⟨transport, .disconnected, none⟩

/-- Whether frames can be sent and received. -/
def isConnected (c : Connection τ) : Bool := c.state == .connected

variable [Transport τ]

/-- Opens the connection, unless it is connected. -/
def connect (c : Connection τ) : Except ConnectError Unit × Connection τ :=
  if c.isConnected then (.ok (), c)
  else
    match Transport.establish c.transport with
    | (.error e, t) => (.error e, { c with transport := t })
    | (.ok (), t) => (.ok (), { c with transport := t, state := .connected })

/-- Closes the connection, if it is connected. -/
def close (c : Connection τ) : Connection τ :=
  if c.isConnected then
    let closing := { c with state := .closing }
    { closing with transport := Transport.release closing.transport, state := .disconnected }
  else c

/-- Does something on the transport of a connected connection, and closes it if that fails. -/
def onTransport (act : τ → Except ConnectError α × τ) (c : Connection τ) :
    Except ConnectError α × Connection τ :=
  if c.isConnected then
    match act c.transport with
    | (.ok a, t) => (.ok a, { c with transport := t })
    | (.error e, t) => (.error e, { c with transport := t }.close)
  else (.error .notConnected, c)

/-- Sends a frame. -/
def send (f : Frame) (c : Connection τ) : Except ConnectError Unit × Connection τ :=
  c.onTransport (Transport.send f)

/-- Sends a text in a role. -/
def write (r : Role) (text : String) (c : Connection τ) : Except ConnectError Unit × Connection τ :=
  c.send (.ofRole r text)

/-- Sends a text with a line end in a role. -/
def writeLine (r : Role) (text : String) (c : Connection τ) :
    Except ConnectError Unit × Connection τ :=
  c.write r (text ++ "\n")

/-- The next frame, or nothing once the peer has gone, which closes the connection. -/
def receive (c : Connection τ) : Except ConnectError (Option Frame) × Connection τ :=
  match c.onTransport Transport.receive with
  | (.error e, c) => (.error e, c)
  | (.ok none, c) => (.ok none, c.close)
  | (.ok (some f), c) => (.ok (some f), { c with lastCode := some f.code })

/-- Sends an empty line in a role, if connected, whether that works or not, and closes. -/
def finalize (r : Role) (c : Connection τ) : Connection τ :=
  if c.isConnected then (c.writeLine r "").2.close else c

/-- Lets the connection go: the peer is told if it is connected, and the transport is given up. -/
def drop (c : Connection τ) : Connection τ :=
  let c := c.finalize .quit
  { c with transport := Transport.release c.transport }

/-! ## Life cycle -/

@[simp] theorem isConnected_close (c : Connection τ) : c.close.isConnected = false := by
  unfold close
  split
  · rfl
  · simpa using ‹¬c.isConnected = true›

/-- Nothing is sent on a connection that is not connected. -/
theorem send_of_not_connected {c : Connection τ} (f : Frame) (h : c.isConnected = false) :
    c.send f = (.error .notConnected, c) := by
  simp [send, onTransport, h]

/-- Nothing is received on a connection that is not connected. -/
theorem receive_of_not_connected {c : Connection τ} (h : c.isConnected = false) :
    c.receive = (.error .notConnected, c) := by
  simp [receive, onTransport, h]

/-- A connection that could not send is not connected. -/
theorem isConnected_send_of_error {c : Connection τ} {f : Frame} {e : ConnectError}
    (h : (c.send f).1 = .error e) : (c.send f).2.isConnected = false := by
  unfold send onTransport at *
  split at h
  · next hc =>
    simp only [hc, if_true]
    split at h
    · simp at h
    · exact isConnected_close _
  · next hc => simp [hc]

end Connection

end BytecodeDebugger
