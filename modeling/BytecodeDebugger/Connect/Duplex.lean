import BytecodeDebugger.Connect.Error
import BytecodeDebugger.Wire.Reader

/-!
# Byte streams between two ends

A stream carries bytes in both directions. Either end can shut it down in both directions; what is
on its way then can still be read, but nothing can be written any more. If an end is given up with
bytes unread, the other one is told so once, behind the bytes that wait there.

Main facts: `waiting_write` (what is written at one end waits at the other one), `write_of_isDown`
(nothing is written to a stream that is down) and `waiting_hangUp` (giving an end up loses nothing
of what waits at the other one).
-/

namespace BytecodeDebugger

/-- One of the two ends of a stream. -/
inductive End where
  | near
  | far
  deriving DecidableEq, Repr

/-- The other end. -/
def End.opposite : End → End
  | .near => .far
  | .far => .near

/-- A stream between two ends. -/
structure Duplex where
  /-- The bytes that wait at the near end. -/
  atNear : List UInt8
  /-- The bytes that wait at the far end. -/
  atFar : List UInt8
  /-- Whether an end has shut the stream down. -/
  isDown : Bool
  /-- The end that has yet to be told that the other one was given up with bytes unread. -/
  reset : Option End
  deriving DecidableEq, Repr

namespace Duplex

/-- A stream without bytes on their way. -/
def fresh : Duplex := ⟨[], [], false, none⟩

/-- The bytes that wait at an end. -/
def waiting (d : Duplex) : End → List UInt8
  | .near => d.atNear
  | .far => d.atFar

/-- The stream with other bytes waiting at an end. -/
def setWaiting (d : Duplex) (bytes : List UInt8) : End → Duplex
  | .near => { d with atNear := bytes }
  | .far => { d with atFar := bytes }

/-- Shuts the stream down in both directions. -/
def shutDown (d : Duplex) : Duplex := { d with isDown := true }

/-- Gives an end up for good. What waits there is lost, and the other end will be told. -/
def hangUp (e : End) (d : Duplex) : Duplex :=
  let reset := if d.waiting e = [] then d.reset else some e.opposite
  { d.setWaiting [] e with isDown := true, reset }

/-- Writes bytes at an end. -/
def write (e : End) (bytes : List UInt8) (d : Duplex) : Except IoError Unit × Duplex :=
  if d.isDown ∧ bytes ≠ [] then (.error .brokenPipe, d)
  else (.ok (), d.setWaiting (d.waiting e.opposite ++ bytes) e.opposite)

/-- Sends a frame from an end. A frame that is too long is refused before anything is written. -/
def send (e : End) (f : Frame) (d : Duplex) : Except ConnectError Unit × Duplex :=
  match f.encode with
  | .error err => (.error (.frame err), d)
  | .ok bytes =>
    match d.write e bytes with
    | (.error err, d) => (.error (.frame (.io err)), d)
    | (.ok (), d) => (.ok (), d)

/-- What an end can read: the bytes that wait there, and that the other end was given up. -/
def incoming (e : End) (d : Duplex) : List Chunk :=
  (if d.waiting e = [] then [] else [.data (d.waiting e)]) ++
    if d.reset = some e then [.fail .connectionReset] else []

/-- The bytes of chunks. -/
def bytesOf : List Chunk → List UInt8
  | [] => []
  | .data bytes :: rest => bytes ++ bytesOf rest
  | .fail _ :: rest => bytesOf rest

/-- Leaves chunks at an end, of those that could be read there. -/
def leave (e : End) (chunks : List Chunk) (d : Duplex) : Duplex :=
  let told := d.reset = some e ∧ chunks.getLast? ≠ some (.fail .connectionReset)
  { d.setWaiting (bytesOf chunks) e with reset := if told then none else d.reset }

/-- What reading a frame comes to. The news that the other end was given up is the end of all
frames. -/
def received : Except FrameError (Option Frame) → Except ConnectError (Option Frame)
  | .ok f => .ok f
  | .error (.io err) => if err.isDisconnect then .ok none else .error (.frame (.io err))
  | .error err => .error (.frame err)

/-- Reads a frame at an end; nothing if no bytes wait there. -/
def receive (e : End) (d : Duplex) : Except ConnectError (Option Frame) × Duplex :=
  let (r, rest) := readFrame (d.incoming e)
  (received r, d.leave e rest)

@[simp] theorem waiting_setWaiting_self (d : Duplex) (bytes : List UInt8) (e : End) :
    (d.setWaiting bytes e).waiting e = bytes := by
  cases e <;> rfl

@[simp] theorem waiting_setWaiting_opposite (d : Duplex) (bytes : List UInt8) (e : End) :
    (d.setWaiting bytes e).waiting e.opposite = d.waiting e.opposite := by
  cases e <;> rfl

/-- Nothing is written to a stream that is down. -/
theorem write_of_isDown {d : Duplex} (e : End) {bytes : List UInt8} (h : d.isDown = true)
    (hb : bytes ≠ []) : d.write e bytes = (.error .brokenPipe, d) := by
  simp [write, h, hb]

/-- What is written at one end waits at the other one, behind what waits there already. -/
theorem waiting_write {d : Duplex} (e : End) (bytes : List UInt8) (h : d.isDown = false) :
    (d.write e bytes).2.waiting e.opposite = d.waiting e.opposite ++ bytes := by
  simp [write, h]

/-- Giving an end up loses nothing of what waits at the other one. -/
theorem waiting_hangUp (d : Duplex) (e : End) :
    (d.hangUp e).waiting e.opposite = d.waiting e.opposite := by
  cases e <;> rfl

end Duplex

end BytecodeDebugger
