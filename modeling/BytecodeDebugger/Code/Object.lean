import BytecodeDebugger.Code.Constant
import BytecodeDebugger.Code.LineTable
import BytecodeDebugger.Store.NameMap

/-!
# Code objects and targets

A code object is a compiled unit: an instruction stream with the tables that its operands refer to.
A request to disassemble names a target, which is one code object or a container of several.
-/

namespace BytecodeDebugger

/-- A compiled unit. -/
structure CodeObject where
  name : String
  filename : String
  firstLine : Nat
  code : List UInt8
  consts : List Constant
  names : List String
  varnames : List String
  cellvars : List String
  freevars : List String
  lineTable : LineTable
  deriving DecidableEq

namespace CodeObject

/-- A unit without a name, a stream or tables. -/
def empty : CodeObject := ⟨"", "", 0, [], [], [], [], [], [], .empty⟩

instance : Inhabited CodeObject := ⟨empty⟩

/-- The length of the stream. -/
def size (c : CodeObject) : Nat := c.code.length

/-- The names of captured variables: cell variables, then free variables. -/
def captured (c : CodeObject) : List String := c.cellvars ++ c.freevars

/-- How a listing calls the unit. -/
def shown (c : CodeObject) : String :=
  if c.filename = "" then "<code object " ++ c.name ++ ">"
  else
    "<code object " ++ c.name ++ ", file \"" ++ c.filename ++ "\", line " ++ toString c.firstLine ++
      ">"

end CodeObject

/-- What can be disassembled. -/
inductive Target where
  /-- One instruction stream. -/
  | code (unit : CodeObject)
  /-- A named collection of streams, such as the methods of a class. -/
  | container (name : String) (members : NameMap CodeObject)
  deriving DecidableEq

namespace Target

/-- The name of a target. -/
def name : Target → String
  | .code unit => unit.name
  | .container name _ => name

/-- The code objects of a target; members come in the order of their names. -/
def units : Target → List CodeObject
  | .code unit => [unit]
  | .container _ members => members.values

end Target

end BytecodeDebugger
