import BytecodeDebugger.Code.Object
import BytecodeDebugger.Json.Shape
import BytecodeDebugger.Opcode.Json
import BytecodeDebugger.Text.Unsigned

/-!
# Code objects as JSON

A code object is a record whose fields may all be left out. A constant is a record of its type and
its value, which may also be given as a pair; a line table is the list of its pairs, in any order; a
target is `code` or `container` with its content.
-/

namespace BytecodeDebugger

open Text (lineLimit offsetLimit)

namespace Constant

/-- The document of a constant. -/
def toJson : Constant → Json
  | .none => .object [("type", .string "none")]
  | .bool b => .object [("type", .string "bool"), ("value", .bool b)]
  | .int n => .object [("type", .string "int"), ("value", .int n)]
  | .float x => .object [("type", .string "float"), ("value", .double x)]
  | .str s => .object [("type", .string "str"), ("value", .string s)]
  | .code name => .object [("type", .string "code"), ("value", .string name)]

/-- The constant of a type with a value. -/
def ofTyped? (type : String) (value : Json) : Option Constant :=
  match type with
  | "none" => match value with
    | .null => some .none
    | _ => Option.none
  | "bool" => value.bool?.map .bool
  | "int" => value.int64?.map .int
  | "float" => value.double?.map .float
  | "str" => value.string?.map .str
  | "code" => value.string?.map .code
  | _ => Option.none

/-- The constant of a document. In a record, `none` needs no value, and the type is a name in either
of its spellings; a pair always has both parts, and its type is a text. -/
def ofJson? : Json → Option Constant
  | .object members =>
    match Json.valuesOf "type" members, Json.valuesOf "value" members with
    | [type], [value] => type.plainName?.bind fun t => ofTyped? t value
    | [type], [] => if type.plainName? = some "none" then some .none else Option.none
    | _, _ => Option.none
  | .array [.string type, value] => ofTyped? type value
  | _ => Option.none

end Constant

namespace LineTable

/-- The document of an entry. -/
def entryToJson (e : Nat × Nat) : Json := .array [.nat e.1, .nat e.2]

/-- The document of a line table. -/
def toJson (t : LineTable) : Json := .list entryToJson t.entries

/-- An offset with the line that starts there. -/
def pair? : Json → Option (Nat × Nat)
  | .array [offset, line] => do
    let offset ← offset.nat? offsetLimit
    let line ← line.nat? lineLimit
    return (offset, line)
  | _ => none

/-- The line table of a document. -/
def ofJson? (j : Json) : Option LineTable := (j.list? pair?).map ofPairs

end LineTable

namespace CodeObject

/-- The document of a code object. -/
def toJson (c : CodeObject) : Json :=
  .object
    [("name", .string c.name), ("filename", .string c.filename), ("first_line", .nat c.firstLine),
      ("code", .list (fun b => .nat b.toNat) c.code), ("consts", .list Constant.toJson c.consts),
      ("names", .list .string c.names), ("varnames", .list .string c.varnames),
      ("cellvars", .list .string c.cellvars), ("freevars", .list .string c.freevars),
      ("line_table", c.lineTable.toJson)]

/-- The names of the fields. -/
def fieldNames : List String :=
  ["name", "filename", "first_line", "code", "consts", "names", "varnames", "cellvars", "freevars",
    "line_table"]

/-- The code object of a document. -/
def ofJson? (j : Json) : Option CodeObject :=
  match j.fields? fieldNames with
  | some [name, filename, firstLine, code, consts, names, varnames, cellvars, freevars, table] => do
    let strings := Json.withDefault [] (Json.list? Json.string?)
    return {
      name := ← Json.withDefault "" Json.string? name
      filename := ← Json.withDefault "" Json.string? filename
      firstLine := ← Json.withDefault 0 (Json.nat? lineLimit) firstLine
      code := ← Json.withDefault [] (Json.list? byte?) code
      consts := ← Json.withDefault [] (Json.list? Constant.ofJson?) consts
      names := ← strings names
      varnames := ← strings varnames
      cellvars := ← strings cellvars
      freevars := ← strings freevars
      lineTable := ← Json.withDefault .empty LineTable.ofJson? table }
  | _ => none

end CodeObject

namespace Target

/-- The document of a target. -/
def toJson : Target → Json
  | .code unit => .object [("code", unit.toJson)]
  | .container name members =>
    .object
      [("container",
        .object
          [("name", .string name), ("members", .object (members.map CodeObject.toJson).toList)])]

/-- The target of a document, whose container is a record of the given style. -/
def ofJson? (style : Json.RecordStyle) (j : Json) : Option Target :=
  match j.variant? with
  | some ("code", some content) => (CodeObject.ofJson? content).map .code
  | some ("container", some content) =>
    match content.contentFields? style ["name", "members"] with
    | some [name, members] => do
      let name ← Json.required Json.string? name
      let members ← Json.required (Json.map? CodeObject.ofJson?) members
      return .container name members
    | _ => none
  | _ => none

/-- The target that a text describes; its container may be listed by position. -/
def ofText? (text : String) : Option Target := (Json.parse? text).bind (ofJson? .positional)

end Target

end BytecodeDebugger
