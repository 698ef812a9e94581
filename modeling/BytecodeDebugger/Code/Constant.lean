import BytecodeDebugger.Decimal.Shortest

/-!
# Constants

The values in the constants table of a code object, and how a listing shows them. A text is shown
between single quotes, with a backslash before quotes and backslashes and a letter for the controls
that would break the line.
-/

namespace BytecodeDebugger

/-- A constant. -/
inductive Constant where
  | none
  | bool (value : Bool)
  | int (value : Int)
  | float (value : Decimal.Binary64)
  | str (text : String)
  /-- A nested code object, known by its name. -/
  | code (name : String)
  deriving DecidableEq, Repr

namespace Constant

/-- How a character of a text is shown. -/
def escapeChar (c : Char) : List Char :=
  match c with
  | '\'' => ['\\', '\'']
  | '\\' => ['\\', '\\']
  | '\n' => ['\\', 'n']
  | '\t' => ['\\', 't']
  | '\r' => ['\\', 'r']
  | c => [c]

/-- A text between single quotes. -/
def quotedChars (text : String) : List Char :=
  '\'' :: text.toList.flatMap escapeChar ++ ['\'']

/-- How a listing shows the constant. -/
def shown : Constant → String
  | .none => "None"
  | .bool true => "True"
  | .bool false => "False"
  | .int n => toString n
  | .float x => x.shown
  | .str s => String.ofList (quotedChars s)
  | .code name => "<code object " ++ name ++ ">"

end Constant

end BytecodeDebugger
