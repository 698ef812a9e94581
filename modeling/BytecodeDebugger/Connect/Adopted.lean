import BytecodeDebugger.Connect.Duplex
import BytecodeDebugger.Connect.Transport

/-!
# Transports over an existing stream

A transport can adopt one end of a stream that is established already. It can be closed, but not
opened again.

Main fact: `establish_release` (a closed transport stays closed).
-/

namespace BytecodeDebugger

/-- The near end of a stream, and whether the transport still has it. -/
structure AdoptedStream where
  stream : Duplex
  isOpen : Bool
  deriving DecidableEq, Repr

namespace AdoptedStream

/-- Adopts a stream. -/
def adopt (stream : Duplex) : AdoptedStream := ⟨stream, true⟩

/-- There is nothing to establish, and nothing to go back to. -/
def establish (t : AdoptedStream) : Except ConnectError Unit × AdoptedStream :=
  (if t.isOpen then .ok () else .error .notConnected, t)

/-- Sends a frame. -/
def send (f : Frame) (t : AdoptedStream) : Except ConnectError Unit × AdoptedStream :=
  if t.isOpen then
    let (r, stream) := t.stream.send .near f
    (r, { t with stream })
  else (.error .notConnected, t)

/-- The next frame, or nothing once the peer has gone. -/
def receive (t : AdoptedStream) : Except ConnectError (Option Frame) × AdoptedStream :=
  if t.isOpen then
    let (r, stream) := t.stream.receive .near
    (r, { t with stream })
  else (.error .notConnected, t)

/-- Shuts the stream down and gives it up. -/
def release (t : AdoptedStream) : AdoptedStream :=
  if t.isOpen then ⟨t.stream.shutDown, false⟩ else t

instance : Transport AdoptedStream where
  establish := establish
  send := send
  receive := receive
  release := release
  describe _ := "pipe <unnamed pipe>"
  backlog t := t.stream.atNear.length

/-! ## The other end -/

/-- Bytes arrive from the other end, if the stream is not down. -/
def feed (t : AdoptedStream) (bytes : List UInt8) : Bool × AdoptedStream :=
  match t.stream.write .far bytes with
  | (.ok (), stream) => (true, { t with stream })
  | (.error _, stream) => (false, { t with stream })

/-- Takes all bytes that wait at the other end. -/
def drain (t : AdoptedStream) : List UInt8 × AdoptedStream :=
  (t.stream.atFar, { t with stream := { t.stream with atFar := [] } })

/-- Shuts the stream down from outside. -/
def shutDown (t : AdoptedStream) : AdoptedStream := { t with stream := t.stream.shutDown }

/-- The other end is given up. -/
def hangUp (t : AdoptedStream) : AdoptedStream := { t with stream := t.stream.hangUp .far }

/-- A closed transport stays closed. -/
theorem establish_release (t : AdoptedStream) :
    (establish t.release).1 = .error .notConnected := by
  unfold release establish
  split
  · rfl
  · simp

end AdoptedStream

end BytecodeDebugger
