import BytecodeDebugger.Connect.Transport

/-!
# Transports in memory

A transport without a stream below it: the frames that arrive are queued in advance, and the frames
sent are kept. It can be told to refuse to open or to send.

Main facts: `sent_release` and `incoming_release` (giving up loses no frame).
-/

namespace BytecodeDebugger

/-- A transport whose peer is a queue. -/
structure QueueTransport where
  /-- The frames that arrive, the next one first. -/
  incoming : List Frame
  /-- The frames sent so far, the first one first. -/
  sent : List Frame
  isOpen : Bool
  /-- How often it was opened. -/
  opens : Nat
  /-- Whether opening fails. -/
  failOpen : Bool
  /-- Whether sending fails. -/
  failSend : Bool
  deriving DecidableEq, Repr

namespace QueueTransport

/-- A transport that was never opened, without frames. -/
def new : QueueTransport := ⟨[], [], false, 0, false, false⟩

instance : Inhabited QueueTransport := ⟨new⟩

/-- Queues further frames. -/
def push (t : QueueTransport) (frames : List Frame) : QueueTransport :=
  { t with incoming := t.incoming ++ frames }

/-- Shuts the stream down from outside: no queued frame arrives any more. -/
def shutdown (t : QueueTransport) : QueueTransport := { t with incoming := [] }

/-- Opens the transport, unless it is told to refuse. -/
def establish (t : QueueTransport) : Except ConnectError Unit × QueueTransport :=
  if t.failOpen then
    (.error (.unavailable "memory" ⟨.connectionRefused, "refused"⟩), t)
  else (.ok (), { t with isOpen := true, opens := t.opens + 1 })

/-- Keeps a frame, unless the transport is closed or told to refuse. -/
def send (f : Frame) (t : QueueTransport) : Except ConnectError Unit × QueueTransport :=
  if !t.isOpen then (.error .notConnected, t)
  else if t.failSend then (.error (.io ⟨.brokenPipe, "broken"⟩), t)
  else (.ok (), { t with sent := t.sent ++ [f] })

/-- Takes the next frame off the queue; the stream ends with the queue. -/
def receive (t : QueueTransport) : Except ConnectError (Option Frame) × QueueTransport :=
  if !t.isOpen then (.error .notConnected, t)
  else
    match t.incoming with
    | [] => (.ok none, t)
    | f :: rest => (.ok (some f), { t with incoming := rest })

/-- Closes the transport. -/
def release (t : QueueTransport) : QueueTransport := { t with isOpen := false }

instance : Transport QueueTransport where
  establish := establish
  send := send
  receive := receive
  release := release
  describe _ := "memory"
  backlog t := t.incoming.length

@[simp] theorem sent_release (t : QueueTransport) : t.release.sent = t.sent := rfl

@[simp] theorem incoming_release (t : QueueTransport) : t.release.incoming = t.incoming := rfl

end QueueTransport

end BytecodeDebugger
