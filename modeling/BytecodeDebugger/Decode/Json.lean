import BytecodeDebugger.Decode.Instruction
import BytecodeDebugger.Json.Value

/-!
# Instructions as JSON

An instruction is written as a record of its fields, and what its operand refers to as a record of a
kind and a value.
-/

namespace BytecodeDebugger

/-- The document of what an operand refers to. -/
def ResolvedOperand.toJson : ResolvedOperand → Json
  | .constant t => .object [("kind", .string "const"), ("value", .string t)]
  | .name t => .object [("kind", .string "name"), ("value", .string t)]
  | .localVariable t => .object [("kind", .string "local"), ("value", .string t)]
  | .compare t => .object [("kind", .string "compare"), ("value", .string t)]
  | .free t => .object [("kind", .string "free"), ("value", .string t)]
  | .jump o => .object [("kind", .string "jump"), ("value", .nat o)]

namespace Instruction

/-- The fields of an instruction with their values. -/
def members (i : Instruction) : List (String × Json) :=
  [("offset", .nat i.offset), ("size", .nat i.size), ("opcode", .nat i.opcode.toNat),
    ("name", .string i.name), ("operand_value", .option .nat i.operandValue),
    ("resolved_operand", .option ResolvedOperand.toJson i.resolvedOperand),
    ("line_number", .option .nat i.lineNumber), ("starts_line", .bool i.startsLine),
    ("is_jump_target", .bool i.isJumpTarget), ("is_current", .bool i.isCurrent)]

/-- The document of an instruction. -/
def toJson (i : Instruction) : Json := .object i.members

end Instruction

end BytecodeDebugger
