import BytecodeDebugger.Code.Object
import BytecodeDebugger.Listing.Source
import BytecodeDebugger.Opcode.Builtin

/-!
# The program under control

What a debugger knows about the program that it controls: whether it runs and where it stands, what
can be disassembled by name, the source texts and breakpoints, and where a listing goes on.

Main fact: `currentLine_stopAt` (the program stands at the line in effect where it stopped).
-/

namespace BytecodeDebugger

/-- Where a program stands. -/
structure StoppedFrame where
  code : CodeObject
  offset : Nat
  deriving DecidableEq

/-- The line in effect where the program stands. -/
def StoppedFrame.line? (f : StoppedFrame) : Option Nat := f.code.lineTable.lineAt? f.offset

/-- What is known about a program. -/
structure Debuggee where
  isRunning : Bool
  frame : Option StoppedFrame
  /-- What can be disassembled by name. -/
  targets : NameMap Target
  sources : SourceTexts
  breakpoints : Breakpoints
  runtime : RuntimeVersion
  /-- An opcode table in place of the one of the runtime. -/
  opcodeTable : Option OpcodeTable
  /-- The file and the line where a bare `list` goes on. -/
  listNext : Option (String × Nat)

namespace Debuggee

/-- A program that nothing is known about. -/
def unknown : Debuggee := ⟨false, none, .empty, .empty, [], .classic, none, none⟩

instance : Inhabited Debuggee := ⟨unknown⟩

/-- The opcode table in use. -/
def table (d : Debuggee) : OpcodeTable := d.opcodeTable.getD d.runtime.table

/-- The program stopped at an offset of a code object; a bare `list` starts afresh. -/
def stopAt (d : Debuggee) (code : CodeObject) (offset : Nat) : Debuggee :=
  { d with isRunning := true, listNext := none, frame := some ⟨code, offset⟩ }

/-- The line where the program stands. -/
def currentLine? (d : Debuggee) : Option Nat := d.frame.bind StoppedFrame.line?

/-- The file where the program stands, if its name is known. -/
def currentFile? (d : Debuggee) : Option String :=
  match d.frame with
  | none => none
  | some f => if f.code.filename = "" then none else some f.code.filename

/-- The program stands at the line in effect where it stopped. -/
theorem currentLine_stopAt (d : Debuggee) (code : CodeObject) (offset : Nat) :
    (d.stopAt code offset).currentLine? = code.lineTable.lineAt? offset := rfl

end Debuggee

end BytecodeDebugger
