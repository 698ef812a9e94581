import BytecodeDebugger.Connect.Error

/-!
# Transports

What carries frames between a debugger and its front end. Transports differ in how the stream
between the two is established; on an open one, frames are sent and received in order.
-/

namespace BytecodeDebugger

/-- A channel of frames in both directions, as the state it keeps. -/
class Transport (τ : Type) where
  /-- Establishes the stream. -/
  establish : τ → Except ConnectError Unit × τ
  send : Frame → τ → Except ConnectError Unit × τ
  /-- The next frame, or nothing once the peer has gone. -/
  receive : τ → Except ConnectError (Option Frame) × τ
  /-- Gives the stream up; a closed transport stays as it is. -/
  release : τ → τ
  /-- The endpoint, for messages. -/
  describe : τ → String
  /-- How many frames can still arrive at most, unless more are asked for. -/
  backlog : τ → Nat

end BytecodeDebugger
