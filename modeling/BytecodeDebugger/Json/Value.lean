import BytecodeDebugger.Decimal.Shortest

/-!
# JSON values

A JSON document as a tree. Numbers are kept as written, so that a reader can tell `1` from `1.0`,
and objects keep their members in the order of the text, repeated keys included.
-/

namespace BytecodeDebugger

/-- A JSON value. -/
inductive Json where
  | null
  | bool (value : Bool)
  | number (literal : Decimal.Literal)
  | string (text : String)
  | array (items : List Json)
  | object (members : List (String × Json))
  /-- A value of sound syntax with an escape in its text, or in one of its own keys, that stands for
  half of a character. It can be skipped, but not read. -/
  | unreadable
  deriving Inhabited

namespace Json

/-- A natural number. -/
def nat (n : Nat) : Json := .number (.ofInt n)

/-- A whole number. -/
def int (n : Int) : Json := .number (.ofInt n)

/-- A double. -/
def double (x : Decimal.Binary64) : Json := .number (x.toLiteral Decimal.Layout.json)

/-- A value that may be absent. -/
def option {α : Type} (write : α → Json) : Option α → Json
  | none => .null
  | some a => write a

/-- A list of values. -/
def list {α : Type} (write : α → Json) (items : List α) : Json := .array (items.map write)

end Json

end BytecodeDebugger
