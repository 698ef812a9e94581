import BytecodeDebugger.Listing.Sink

/-!
# The user's side

What the debugger talks to: something that takes output, answers questions and yields command lines.
The user may sit at the same terminal, at the other end of a connection, or be a script.
-/

namespace BytecodeDebugger

/-- A user, as the state of what connects to them. -/
structure Interface (σ : Type) where
  write : Write → σ → Except ConnectError Unit × σ
  /-- Asks a question; at the end of input the answer is the default. -/
  confirm : String → Bool → σ → Except ConnectError Bool × σ
  /-- The next command line, or nothing at the end of input. -/
  readCommand : String → σ → Except ConnectError (Option String) × σ
  /-- How many command lines can still come at most. -/
  backlog : σ → Nat

namespace Interface

variable {σ : Type}

/-- The interface as something to write listings to. -/
def sink (i : Interface σ) : Sink σ := ⟨i.write⟩

end Interface

/-! ## Scripted users -/

/-- A user whose answers and commands are known in advance. -/
structure ScriptedUser where
  recording : Recording
  /-- The answers to come; none stands for the default. -/
  answers : List (Option (Except ConnectError Bool))
  /-- The command lines to come. -/
  lines : List String
  /-- The questions asked, with their default answers, the last one first. -/
  questions : List (String × Bool)
  /-- The prompts shown, the last one first. -/
  prompts : List String

namespace ScriptedUser

/-- Writes to the recording. -/
def write (w : Write) (u : ScriptedUser) : Except ConnectError Unit × ScriptedUser :=
  let (r, recording) := u.recording.take w
  (r, { u with recording })

/-- Takes the next answer; without one, the default counts. -/
def confirm (question : String) (default : Bool) (u : ScriptedUser) :
    Except ConnectError Bool × ScriptedUser :=
  let u := { u with questions := (question, default) :: u.questions }
  match u.answers with
  | [] => (.ok default, u)
  | none :: rest => (.ok default, { u with answers := rest })
  | some answer :: rest => (answer, { u with answers := rest })

/-- Takes the next command line. -/
def readCommand (prompt : String) (u : ScriptedUser) :
    Except ConnectError (Option String) × ScriptedUser :=
  let u := { u with prompts := prompt :: u.prompts }
  match u.lines with
  | [] => (.ok none, u)
  | line :: rest => (.ok (some line), { u with lines := rest })

/-- Scripted users as an interface. -/
def interface : Interface ScriptedUser where
  write := write
  confirm := confirm
  readCommand := readCommand
  backlog u := u.lines.length

end ScriptedUser

end BytecodeDebugger
