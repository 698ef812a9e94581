import BytecodeDebugger.Command.Dialogue
import BytecodeDebugger.Debuggee
import BytecodeDebugger.Settings.Basic

/-!
# Command handlers

What a command does: it holds a dialogue, reads and changes the workspace, and may fail. A failure
of the connection is told apart from everything else that can go wrong, which is reported to the
user.

Main fact: `run_say` (telling a line is one call).
-/

namespace BytecodeDebugger

/-- What a command may touch. -/
structure Workspace where
  settings : Settings
  debuggee : Debuggee
  /-- Whether the debugger is to quit after the command. -/
  quit : Bool

/-- Why a command ended early. -/
inductive CommandFailure where
  /-- The connection failed. -/
  | connect (e : ConnectError)
  /-- Something to report, from the outermost cause to the innermost. -/
  | report (causes : List String)
  deriving DecidableEq, Repr

/-- What a command does. -/
abbrev Handler := ExceptT CommandFailure (StateT Workspace Dialogue)

namespace Handler

variable {α ρ : Type}

/-- A dialogue whose failure ends the command. -/
def speak (d : Dialogue (Except ConnectError α)) : Handler α :=
  ExceptT.mk fun w => do
    match ← d with
    | .ok a => return (.ok a, w)
    | .error e => return (.error (.connect e), w)

/-- Ends the command with something to report. -/
def fail (causes : List String) : Handler α := throw (.report causes)

/-- The value, or the end of the command with the reasons. -/
def orFail : Except (List String) α → Handler α
  | .ok a => pure a
  | .error causes => fail causes

/-- Makes a call. -/
def write (w : Write) : Handler Unit := speak (.write w .done)

/-- Tells the user a line. -/
def say (text : String) : Handler Unit := write (.line text)

/-- Tells the user lines. -/
def sayAll (lines : List String) : Handler Unit := speak (.writeAll (lines.map .line))

/-- Reports a fault. -/
def sayFault (text : String) : Handler Unit := write (.fault text)

/-- Asks a question. -/
def confirm (question : String) (default : Bool) : Handler Bool :=
  speak (.confirm question default .done)

/-- Writes a listing. A call that fails is part of what the listing comes to. -/
def list (l : Listing ρ) : Handler (Except ListingError ρ) :=
  ExceptT.mk fun w => do
    match ← Dialogue.writeAll l.writes with
    | .ok () => return (.ok l.outcome, w)
    | .error e => return (.ok (.error (.sink e)), w)

/-- Changes the settings. -/
def changeSettings (f : Settings → Settings) : Handler Unit :=
  modify fun w => { w with settings := f w.settings }

/-- The dialogue of a handler in a workspace. -/
def run (h : Handler α) (w : Workspace) : Dialogue (Except CommandFailure α × Workspace) :=
  (ExceptT.run h).run w

/-- Telling a line is one call. -/
theorem run_say (text : String) (w : Workspace) :
    (say text).run w =
      .write (.line text) fun
        | .ok () => .done (.ok (), w)
        | .error e => .done (.error (.connect e), w) := by
  change Dialogue.write _ _ = _
  congr
  funext r
  cases r <;> rfl

end Handler

end BytecodeDebugger
