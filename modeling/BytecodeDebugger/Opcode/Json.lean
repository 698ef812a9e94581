import BytecodeDebugger.Json.Parse
import BytecodeDebugger.Json.Shape
import BytecodeDebugger.Opcode.Table

/-!
# Opcode tables as JSON

A table is described by a record with the fields `version`, `format`, `extended_arg`, `compare_ops`
and `opcodes`, all of which are needed. The format is the name `wordcode`, or `variable` with the
record of its operand width.
-/

namespace BytecodeDebugger

/-- The document of an instruction format. -/
def InstructionFormat.toJson : InstructionFormat → Json
  | .variable w => .object [("variable", .object [("operand_width", .nat w)])]
  | .wordcode => .string "wordcode"

/-- The instruction format of a document, whose operand width is in a record of the given style. -/
def InstructionFormat.ofJson? (style : Json.RecordStyle) (j : Json) : Option InstructionFormat :=
  match j.variant? with
  | some ("variable", some content) =>
    match content.contentFields? style ["operand_width"] with
    | some [width] => (Json.required (Json.nat? 256) width).map .variable
    | _ => none
  | some ("wordcode", none) => some .wordcode
  | some ("wordcode", some .null) => some .wordcode
  | _ => none

/-- A number of eight bits. -/
def byte? (j : Json) : Option UInt8 := (j.nat? 256).map UInt8.ofNat

/-- The document of a descriptor. -/
def OperandDescriptor.toJson (d : OperandDescriptor) : Json :=
  .object [("code", .nat d.code.toNat), ("name", .string d.name), ("kind", .string d.kind.key)]

/-- The descriptor of a document. -/
def OperandDescriptor.ofJson? (j : Json) : Option OperandDescriptor :=
  match j.fields? ["code", "name", "kind"] with
  | some [code, name, kind] => do
    let code ← Json.required byte? code
    let name ← Json.required Json.string? name
    let kind ← Json.required Json.plainName? kind
    return ⟨code, name, ← OperandKind.ofKey? kind⟩
  | _ => none

namespace TableDefinition

/-- The document of a description. -/
def toJson (d : TableDefinition) : Json :=
  .object
    [("version", .string d.version), ("format", d.format.toJson),
      ("extended_arg", .nat d.extendedArg.toNat),
      ("compare_ops", .list .string d.compareOps),
      ("opcodes", .list OperandDescriptor.toJson d.opcodes)]

/-- The description of a document. -/
def ofJson? (j : Json) : Option TableDefinition :=
  match j.fields? ["version", "format", "extended_arg", "compare_ops", "opcodes"] with
  | some [version, format, extendedArg, compareOps, opcodes] => do
    let version ← Json.required Json.string? version
    let format ← Json.required (InstructionFormat.ofJson? .positional) format
    let extendedArg ← Json.required byte? extendedArg
    let compareOps ← Json.required (Json.list? Json.string?) compareOps
    let opcodes ← Json.required (Json.list? OperandDescriptor.ofJson?) opcodes
    return ⟨version, format, extendedArg, compareOps, opcodes⟩
  | _ => none

end TableDefinition

namespace OpcodeTable

/-- The table that a document describes. -/
def ofJson (j : Json) : Except TableError OpcodeTable :=
  match TableDefinition.ofJson? j with
  | none => .error .malformed
  | some d => ofDefinition d

/-- The table that a text describes. -/
def ofText (text : String) : Except TableError OpcodeTable :=
  match Json.parse? text with
  | none => .error .malformed
  | some j => ofJson j

end OpcodeTable

end BytecodeDebugger
