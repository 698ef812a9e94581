import BytecodeDebugger.Wire.Frame

/-!
# Failures of a connection

Why a connection could not be opened or used. A failure may have causes below it; a report that
shows them names each in turn, from the outermost to the innermost.
-/

namespace BytecodeDebugger

/-- Why a connection could not be opened or used. -/
inductive ConnectError where
  /-- The endpoint could not be reached, or not be listened on. -/
  | unavailable (endpoint : String) (cause : IoError)
  /-- The connection is not open. -/
  | notConnected
  /-- The stream failed after it was opened. -/
  | io (cause : IoError)
  /-- The peer sent something that is no frame, or a frame could not be sent. -/
  | frame (e : FrameError)
  deriving DecidableEq, Repr

/-- The wordings of a failure and its causes, outermost first. -/
def FrameError.chain (e : FrameError) : List String :=
  match e with
  | .io cause => [e.message, cause.message]
  | _ => [e.message]

namespace ConnectError

/-- The wording of a failure. -/
def message : ConnectError → String
  | .unavailable endpoint cause => "cannot open " ++ endpoint ++ ": " ++ cause.message
  | .notConnected => "not connected"
  | .io cause => "connection I/O error: " ++ cause.message
  | .frame e => e.message

/-- The wordings of a failure and its causes, outermost first. -/
def chain (e : ConnectError) : List String :=
  match e with
  | .unavailable _ cause => [e.message, cause.message]
  | .notConnected => [e.message]
  | .io cause => [e.message, cause.message]
  | .frame f => f.chain

end ConnectError

end BytecodeDebugger
