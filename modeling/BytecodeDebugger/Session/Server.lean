import BytecodeDebugger.Connect.Action
import BytecodeDebugger.Connect.Connection
import BytecodeDebugger.Session.Interface
import BytecodeDebugger.Text.Blank
import BytecodeDebugger.Text.Fold
import BytecodeDebugger.Text.Lines

/-!
# The debugger's end of a session

Output, questions and prompts as frames. A prompt and each question are answered by one frame. A
quit frame in place of an answer counts as the end of input. A question is repeated until the answer
is yes or no; at the end of input its default counts.

Main fact: `receiveLine_on` (which frames count as a line, and which as the end of input).
-/

namespace BytecodeDebugger.Server

variable {τ : Type} [Transport τ]

/-- What a reply says to a question, if anything. -/
def answer? (reply : String) : Option Bool :=
  match Text.foldCase (Text.trim reply) with
  | "y" => some true
  | "yes" => some true
  | "n" => some false
  | "no" => some false
  | _ => none

/-- Prints a line. -/
def say (text : String) : Action ConnectError (Connection τ) Unit :=
  .of (Connection.writeLine .print text)

/-- Prints a text without a line end. -/
def sayPart (text : String) : Action ConnectError (Connection τ) Unit :=
  .of (Connection.write .print text)

/-- Prints a line that reports a fault. -/
def sayFault (text : String) : Action ConnectError (Connection τ) Unit := say ("** " ++ text)

/-- Takes a call of a listing. -/
def write : Write → Action ConnectError (Connection τ) Unit
  | .fragment text => sayPart text
  | .line text => say text

/-- The next line that the peer sends, or nothing at the end of input. -/
def receiveLine : Action ConnectError (Connection τ) (Option String) := do
  match ← .of Connection.receive with
  | none => return none
  | some f =>
    if f.role? = some .quit then return none
    else return some (Text.stripLineEnd f.payload)

/-- Asks for a line; an empty prompt is not shown. -/
def readLine (prompt : String) : Action ConnectError (Connection τ) (Option String) := do
  if !prompt.isEmpty then .of (Connection.writeLine .prompt prompt)
  receiveLine

/-- Asks a question up to `attempts` times. -/
def confirmWithin (question : String) (default : Bool) :
    (attempts : Nat) → Action ConnectError (Connection τ) Bool
  | 0 => return default
  | attempts + 1 => do
    .of (Connection.writeLine (Role.confirm default) question)
    match ← receiveLine with
    | none => return default
    | some reply =>
      match answer? reply with
      | some b => return b
      | none =>
        say "Please answer y or n."
        confirmWithin question default attempts

/-- Asks a question until the answer is yes or no; each attempt takes a frame off the backlog, and
the last one finds the end of input. -/
def confirm (question : String) (default : Bool) : Action ConnectError (Connection τ) Bool :=
  .of fun c => (confirmWithin question default (Transport.backlog c.transport + 1)).on c

/-- The peer as a user. -/
def interface : Interface (Connection τ) where
  write w := (write w).on
  confirm question default := (confirm question default).on
  readCommand prompt := (readLine prompt).on
  backlog c := Transport.backlog c.transport

/-- Any frame counts as a line but one that says goodbye, which counts as the end of input. -/
theorem receiveLine_on (c : Connection τ) :
    receiveLine.on c =
      match c.receive with
      | (.error e, c) => (.error e, c)
      | (.ok none, c) => (.ok none, c)
      | (.ok (some f), c) =>
        (.ok (if f.role? = some .quit then none else some (Text.stripLineEnd f.payload)), c) := by
  rw [receiveLine, Action.on_bind, Action.on_of]
  obtain ⟨r, c'⟩ := c.receive
  rcases r with e | _ | f
  · rfl
  · rfl
  · by_cases hq : f.role? = some .quit
    · simp only [hq, if_true]
      rfl
    · simp only [hq, if_false]
      rfl

end BytecodeDebugger.Server
