import BytecodeDebugger.Connect.Adopted
import BytecodeDebugger.Session.Client

/-!
# A debugger and a front end on one stream

The debugger's transport is the far end of a stream whose near end a front end holds. Whenever the
debugger writes or shuts the stream down, the front end handles what has arrived. So nobody ever
waits for the other one, and what either of them does is what it would do on its own in any order.

Main fact: `advance_of_ended` (a front end that has stopped does nothing any more).
-/

namespace BytecodeDebugger

/-- A front end with its stream, and the debugger's hold on it. -/
structure Rendezvous where
  client : Client AdoptedStream
  /-- What the front end came to, once it has stopped. -/
  exit : Option (Except ClientError ClientExit)
  /-- Whether the debugger has its end. -/
  isOpen : Bool

namespace Rendezvous

/-- The stream. -/
def stream (r : Rendezvous) : Duplex := r.client.connection.transport.stream

/-- Changes the stream. -/
def setStream (r : Rendezvous) (stream : Duplex) : Rendezvous :=
  let connection := r.client.connection
  let transport := { connection.transport with stream }
  { r with client := { r.client with connection := { connection with transport } } }

/-- A front end with the input of its user on a fresh stream. -/
def new (input : List UInt8) : Rendezvous where
  client := ⟨((Connection.new (.adopt .fresh)).connect).2, input, .blank none⟩
  exit := none
  isOpen := true

/-- The front end handles a frame, or the end of the stream, if one of them has arrived. -/
def advance (r : Rendezvous) : Rendezvous :=
  if r.exit.isSome ∨ (r.stream.atNear = [] ∧ r.stream.isDown = false) then r
  else
    match Client.advance.on r.client with
    | (.ok exit, client) => { r with client, exit := exit.map .ok }
    | (.error e, client) => { r with client, exit := some (.error e) }

/-- The front end handles up to `count` frames. -/
def settleWithin : (count : Nat) → Rendezvous → Rendezvous
  | 0, r => r
  | count + 1, r => settleWithin count r.advance

/-- The front end handles all that has arrived: at most a frame a byte, and the end of the stream.
-/
def settle (r : Rendezvous) : Rendezvous := settleWithin (r.stream.atNear.length + 1) r

/-- The debugger sends a frame. -/
def send (f : Frame) (r : Rendezvous) : Except ConnectError Unit × Rendezvous :=
  if r.isOpen then
    let (result, stream) := r.stream.send .far f
    (result, (r.setStream stream).settle)
  else (.error .notConnected, r)

/-- The debugger receives a frame. -/
def receive (r : Rendezvous) : Except ConnectError (Option Frame) × Rendezvous :=
  if r.isOpen then
    let (result, stream) := r.stream.receive .far
    (result, r.setStream stream)
  else (.error .notConnected, r)

/-- The debugger shuts the stream down. -/
def release (r : Rendezvous) : Rendezvous :=
  if r.isOpen then { (r.setStream r.stream.shutDown).settle with isOpen := false } else r

instance : Transport Rendezvous where
  establish r := (if r.isOpen then .ok () else .error .notConnected, r)
  send := send
  receive := receive
  release := release
  describe _ := "pipe <unnamed pipe>"
  backlog r := r.stream.atFar.length + r.client.input.length + 1

/-- A front end that has stopped does nothing any more. -/
theorem advance_of_ended {r : Rendezvous} (h : r.exit.isSome = true) : r.advance = r := by
  simp [advance, h]

end Rendezvous

end BytecodeDebugger
