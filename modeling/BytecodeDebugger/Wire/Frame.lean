import BytecodeDebugger.Text.Quoted
import BytecodeDebugger.Text.Pad
import BytecodeDebugger.Text.Utf8
import BytecodeDebugger.Wire.IoError

/-!
# Frames

The unit of a session on the wire. A frame is a control code with a text; its bytes are the length
of the body in five decimal digits and the body, which is the code followed by the text in UTF-8.
Five control codes are roles; any other code is plain data.

Main facts: `ofCode?_code` (a role is known by its code) and `ofBody_body` (a body reads back).
-/

namespace BytecodeDebugger

/-- What a frame is for. -/
inductive Role where
  /-- The debugger waits for a command line. -/
  | prompt
  /-- Output to show as it is. -/
  | print
  /-- A question whose default answer is yes. -/
  | confirmTrue
  /-- A question whose default answer is no. -/
  | confirmFalse
  /-- The sender is leaving. -/
  | quit
  deriving DecidableEq, Repr

namespace Role

/-- The control code of a role. -/
def code : Role → UInt8
  | .prompt => 63
  | .print => 46
  | .confirmTrue => 89
  | .confirmFalse => 78
  | .quit => 113

/-- The roles. -/
def all : List Role := [.prompt, .print, .confirmTrue, .confirmFalse, .quit]

/-- The role of a control code; plain data has none. -/
def ofCode? (c : UInt8) : Option Role := all.find? fun r => r.code == c

/-- The question with the given default answer. -/
def confirm : Bool → Role
  | true => .confirmTrue
  | false => .confirmFalse

/-- The name of a role. -/
def name : Role → String
  | .prompt => "prompt"
  | .print => "print"
  | .confirmTrue => "confirm-true"
  | .confirmFalse => "confirm-false"
  | .quit => "quit"

/-- A role is known by its code. -/
@[simp] theorem ofCode?_code (r : Role) : ofCode? r.code = some r := by
  cases r <;> decide

end Role

/-- The control code of plain data that answers a question. -/
def replyCode : UInt8 := 33

/-- No reply is taken for a role. -/
theorem ofCode?_replyCode : Role.ofCode? replyCode = none := by decide

/-- The number of digits of the length in front of a body. -/
def headerLength : Nat := 5

/-- The greatest length of a body that the header can tell. -/
def maxBodyLength : Nat := 99999

/-- A message: a control code and a text. -/
structure Frame where
  code : UInt8
  payload : String
  deriving DecidableEq, Repr

/-- Why a frame could not be written or read. -/
inductive FrameError where
  | io (e : IoError)
  /-- The body is longer than the header can tell. -/
  | tooLong (length : Nat)
  /-- The header holds something besides digits. -/
  | badHeader (text : String)
  | emptyBody
  | invalidUtf8
  /-- The stream ended inside a header or a body. -/
  | truncated (expected got : Nat)
  deriving DecidableEq, Repr

/-- The wording of a failure. -/
def FrameError.message : FrameError → String
  | .io e => "I/O error: " ++ e.message
  | .tooLong n =>
    "frame body of " ++ toString n ++ " bytes exceeds the " ++ toString maxBodyLength ++
      "-byte limit"
  | .badHeader t => "malformed frame header " ++ Text.quoted t
  | .emptyBody => "frame has no control code"
  | .invalidUtf8 => "frame payload is not valid UTF-8"
  | .truncated e g =>
    "stream ended inside a frame (" ++ toString g ++ " of " ++ toString e ++ " bytes)"

namespace Frame

/-- A frame with a role. -/
def ofRole (r : Role) (payload : String) : Frame := ⟨r.code, payload⟩

/-- Plain data that answers a question. -/
def reply (payload : String) : Frame := ⟨replyCode, payload⟩

/-- The role of the frame; plain data has none. -/
def role? (f : Frame) : Option Role := Role.ofCode? f.code

/-- The code and the text in bytes. -/
def body (f : Frame) : List UInt8 := f.code :: Text.utf8Bytes f.payload

/-- The length of a body in five digits. -/
def header (length : Nat) : List UInt8 := Text.utf8Bytes (Text.zeroPad headerLength length)

/-- The bytes of a frame. -/
def encode (f : Frame) : Except FrameError (List UInt8) :=
  if maxBodyLength < f.body.length then .error (.tooLong f.body.length)
  else .ok (header f.body.length ++ f.body)

/-- The frame of a body. -/
def ofBody : List UInt8 → Except FrameError Frame
  | [] => .error .emptyBody
  | c :: rest =>
    match Text.ofUtf8? rest with
    | none => .error .invalidUtf8
    | some payload => .ok ⟨c, payload⟩

@[simp] theorem role?_ofRole (r : Role) (payload : String) :
    (ofRole r payload).role? = some r := by
  simp [ofRole, role?]

@[simp] theorem role?_reply (payload : String) : (reply payload).role? = none :=
  ofCode?_replyCode

@[simp] theorem ofBody_body (f : Frame) : ofBody f.body = .ok f := by
  simp [ofBody, body]

end Frame

end BytecodeDebugger
