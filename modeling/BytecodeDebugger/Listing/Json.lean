import BytecodeDebugger.Json.Shape
import BytecodeDebugger.Listing.Policy

/-!
# Listing policies as JSON

A policy is a record whose fields may all be left out. Its end line is `absolute` or `relative` with
a number.
-/

namespace BytecodeDebugger

open Text (lineLimit offsetLimit)

/-- The style of a document. -/
def HighlightStyle.ofJson? (j : Json) : Option HighlightStyle := j.plainName?.bind ofName?

namespace EndLine

/-- The document of an end line. -/
def toJson : EndLine → Json
  | .absolute l => .object [("absolute", .nat l)]
  | .relative c => .object [("relative", .nat c)]

/-- The end line of a document. -/
def ofJson? (j : Json) : Option EndLine :=
  match j.variant? with
  | some ("absolute", some content) => (content.nat? lineLimit).map .absolute
  | some ("relative", some content) => (content.nat? lineLimit).map .relative
  | _ => none

end EndLine

namespace ListingPolicy

/-- The document of a policy. -/
def toJson (p : ListingPolicy) : Json :=
  .object
    [("highlight", .string p.highlight.name), ("start_line", .option .nat p.startLine),
      ("end_line", .option EndLine.toJson p.endLine), ("start_offset", .nat p.startOffset),
      ("end_offset", .option .nat p.endOffset), ("statement_cap", .option .nat p.statementCap)]

/-- The names of the fields. -/
def fieldNames : List String :=
  ["highlight", "start_line", "end_line", "start_offset", "end_offset", "statement_cap"]

/-- The policy of a document. -/
def ofJson? (j : Json) : Option ListingPolicy :=
  match j.fields? fieldNames with
  | some [highlight, startLine, endLine, startOffset, endOffset, statementCap] => do
    return {
      highlight := ← Json.withDefault .light HighlightStyle.ofJson? highlight
      startLine := ← Json.withDefault none (Json.option? (Json.nat? lineLimit)) startLine
      endLine := ← Json.withDefault none (Json.option? EndLine.ofJson?) endLine
      startOffset := ← Json.withDefault 0 (Json.nat? offsetLimit) startOffset
      endOffset := ← Json.withDefault none (Json.option? (Json.nat? offsetLimit)) endOffset
      statementCap := ← Json.withDefault none (Json.option? (Json.nat? offsetLimit)) statementCap }
  | _ => none

end ListingPolicy

end BytecodeDebugger
