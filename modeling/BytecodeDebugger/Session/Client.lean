import BytecodeDebugger.Connect.Action
import BytecodeDebugger.Connect.Connection
import BytecodeDebugger.Text.Blank

/-!
# The front end of a session

A front end shows what the debugger prints and answers its prompts and questions with lines of the
user's input. At the end of the input a question gets its default answer, and a prompt ends the
session. Frames without a role are passed over.

Main facts: `append_takeLine` (reading a line loses no byte) and `text_writePiece_of_ok` (a piece
goes behind what was shown before).
-/

namespace BytecodeDebugger

/-- Why a front end stopped. -/
inductive ClientExit where
  /-- The debugger quit. -/
  | serverQuit
  /-- The debugger's stream ended. -/
  | disconnected
  /-- The user's input ended at a prompt. -/
  | inputClosed
  deriving DecidableEq, Repr

/-- The name of a reason to stop. -/
def ClientExit.name : ClientExit → String
  | .serverQuit => "ServerQuit"
  | .disconnected => "Disconnected"
  | .inputClosed => "InputClosed"

/-- Why a front end failed. -/
inductive ClientError where
  | connect (e : ConnectError)
  /-- The user's input could not be read, or the output not be written. -/
  | io (e : IoError)
  deriving DecidableEq, Repr

/-- The wording of a failure. -/
def ClientError.message : ClientError → String
  | .connect e => e.message
  | .io e => "I/O error: " ++ e.message

/-! ## Output -/

/-- What the user sees. -/
structure Screen where
  text : String
  /-- How many bytes can be shown, if there is a limit. -/
  limit : Option Nat
  deriving DecidableEq, Repr

namespace Screen

/-- An empty screen. -/
def blank (limit : Option Nat) : Screen := ⟨"", limit⟩

/-- Shows a piece as a whole, or fails if it does not fit. -/
def writePiece (piece : String) (s : Screen) : Except ClientError Unit × Screen :=
  let text := s.text ++ piece
  match s.limit with
  | none => (.ok (), { s with text })
  | some limit =>
    if limit < text.utf8ByteSize then (.error (.io ⟨.other, "output closed"⟩), s)
    else (.ok (), { s with text })

/-- A piece goes behind what was shown before. -/
theorem text_writePiece_of_ok {piece : String} {s : Screen} (h : (s.writePiece piece).1 = .ok ()) :
    (s.writePiece piece).2.text = s.text ++ piece := by
  cases hl : s.limit with
  | none => simp [writePiece, hl]
  | some limit =>
    by_cases hlt : limit < s.text.utf8ByteSize + piece.utf8ByteSize
    · simp [writePiece, hl, hlt] at h
    · simp [writePiece, hl, hlt]

end Screen

/-! ## Input -/

/-- The bytes up to and with the first line feed, and those after it. -/
def takeLine : List UInt8 → List UInt8 × List UInt8
  | [] => ([], [])
  | b :: rest =>
    if b = 10 then ([b], rest)
    else
      let (line, rest) := takeLine rest
      (b :: line, rest)

/-- Reading a line loses no byte. -/
theorem append_takeLine (bytes : List UInt8) :
    (takeLine bytes).1 ++ (takeLine bytes).2 = bytes := by
  induction bytes with
  | nil => rfl
  | cons b rest ih =>
    simp only [takeLine]
    split
    · rfl
    · simpa using ih

/-- Whether a character belongs to a line end. -/
def isLineEnd (c : Char) : Bool := c == '\r' || c == '\n'

/-! ## The session -/

/-- A front end: its connection, the input that is left and what the user sees. -/
structure Client (τ : Type) where
  connection : Connection τ
  input : List UInt8
  screen : Screen

namespace Client

variable {τ : Type}

/-- A step of a front end. -/
abbrev Step (τ α : Type) := Action ClientError (Client τ) α

/-- Shows a piece. -/
def view (piece : String) : Step τ Unit :=
  .of fun c =>
    let (r, screen) := c.screen.writePiece piece
    (r, { c with screen })

/-- The next line of the input without its line end, or nothing at the end of the input. Bytes that
are no text are an error, and are gone. -/
def nextLine : Step τ (Option String) :=
  .of fun c =>
    match takeLine c.input with
    | ([], _) => (.ok none, c)
    | (line, rest) =>
      let c := { c with input := rest }
      match Text.ofUtf8? line with
      | none => (.error (.io .notUtf8), c)
      | some text => (.ok (some (Text.trimEnd isLineEnd text)), c)

variable [Transport τ]

/-- Sends an answer. -/
def reply (text : String) : Step τ Unit :=
  .of fun c =>
    match c.connection.send (.reply text) with
    | (.ok (), connection) => (.ok (), { c with connection })
    | (.error e, connection) => (.error (.connect e), { c with connection })

/-- Changes the connection. -/
def changeConnection (f : Connection τ → Connection τ) : Step τ Unit :=
  .of fun c => (.ok (), { c with connection := f c.connection })

/-- The words of a prompt or a question. -/
def promptText (f : Frame) : String := Text.trimEnd (· == '\n') f.payload

/-- Shows a question and answers it. -/
def answer (f : Frame) (default : Bool) : Step τ Unit := do
  view (promptText f)
  view " (y or n) "
  match ← nextLine with
  | some line => reply line
  | none =>
    let word := if default then "y" else "n"
    view word
    view "\n"
    reply word

/-- Does what a frame asks for, and tells whether that ends the session. -/
def handle (f : Frame) : Step τ (Option ClientExit) :=
  match f.role? with
  | none => return none
  | some .print => do
    view f.payload
    return none
  | some .prompt => do
    view (promptText f)
    match ← nextLine with
    | some line =>
      reply line
      return none
    | none =>
      changeConnection (Connection.finalize .quit)
      return some .inputClosed
  | some .confirmTrue => do
    answer f true
    return none
  | some .confirmFalse => do
    answer f false
    return none
  | some .quit => do
    changeConnection Connection.close
    return some .serverQuit

/-- The next frame. -/
def receive : Step τ (Option Frame) :=
  .of fun c =>
    match c.connection.receive with
    | (.ok f, connection) => (.ok f, { c with connection })
    | (.error e, connection) => (.error (.connect e), { c with connection })

/-- Handles the next frame; the end of the stream ends the session. -/
def advance : Step τ (Option ClientExit) := do
  match ← receive with
  | none => return some .disconnected
  | some f => handle f

/-- Handles up to `frames` frames; nothing if the session goes on after them. -/
def runWithin : (frames : Nat) → Step τ (Option ClientExit)
  | 0 => return none
  | frames + 1 => do
    match ← advance with
    | some exit => return some exit
    | none => runWithin frames

/-- Handles frames until the session ends. Each one comes off the backlog, and after them the stream
ends. -/
def run : Step τ ClientExit :=
  .of fun c =>
    match (runWithin (Transport.backlog c.connection.transport + 1)).on c with
    | (.ok (some exit), c) => (.ok exit, c)
    | (.ok none, c) => (.ok .disconnected, c)
    | (.error e, c) => (.error e, c)

end Client

end BytecodeDebugger
