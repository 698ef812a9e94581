import BytecodeDebugger.Decode.Json
import BytecodeDebugger.Json.Print
import BytecodeDebugger.Listing.Rows
import BytecodeDebugger.Store.NameMap
import BytecodeDebugger.Text.Fold

/-!
# Output formats

A disassembly is written as annotated text, as one JSON document, or as JSON Lines with one record
an instruction. The two JSON formats list the instructions within the bounds of the policy and take
no notice of its statement cap.

Main fact: `selectFrom_eq_ok` (a stream that decodes gives the instructions that
`ListingPolicy.takes` accepts, up to the first one past the end offset).
-/

namespace BytecodeDebugger

/-- How a disassembly is written. -/
inductive OutputFormat where
  /-- An annotated listing. -/
  | text
  /-- One document a code object. -/
  | json
  /-- One record an instruction, each on its own line. -/
  | jsonLines
  deriving DecidableEq, Repr

namespace OutputFormat

instance : Inhabited OutputFormat := ⟨.text⟩

/-- The formats. -/
def all : List OutputFormat := [.text, .json, .jsonLines]

/-- How a format is shown. -/
def shown : OutputFormat → String
  | .text => "text"
  | .json => "json"
  | .jsonLines => "jsonl"

/-- The name of a format in documents. -/
def name : OutputFormat → String
  | .text => "text"
  | .json => "json"
  | .jsonLines => "json_lines"

/-- The name of a format on a command line. -/
def optionName : OutputFormat → String
  | .text => "text"
  | .json => "json"
  | .jsonLines => "json-lines"

/-- The format of a name in documents. -/
def ofName? (name : String) : Option OutputFormat := all.find? fun f => f.name == name

/-- The format that a user names, in any letter case. -/
def ofString? (text : String) : Option OutputFormat :=
  match Text.foldCase text with
  | "text" => some .text
  | "json" => some .json
  | "jsonl" => some .jsonLines
  | "jsonlines" => some .jsonLines
  | "json_lines" => some .jsonLines
  | _ => none

/-- What is said about a name that is no format. -/
def unknownMessage (text : String) : String := "Unknown output format: " ++ text

end OutputFormat

/-- Why a disassembly could not be written. -/
inductive FormatError where
  | decode (e : DecodeError)
  | listing (e : ListingError)
  deriving DecidableEq, Repr

/-- The wording of a failure. -/
def FormatError.message : FormatError → String
  | .decode e => e.message
  | .listing e => e.message

/-! ## Selection -/

/-- Whether the policy asks for an instruction, its end offset and its cap aside. -/
def ListingPolicy.takes (p : ListingPolicy) (i : Instruction) : Bool :=
  (match i.lineNumber, p.startLine, p.resolvedEndLine with
    | _, none, none => true
    | some l, start, stop => (start.all fun s => s ≤ l) && stop.all fun e => l ≤ e
    | none, _, _ => false) &&
  p.startOffset ≤ i.offset

/-- The instructions that the policy asks for, up to the first one past its end offset; the failure
matters only if that is not met. -/
def selectFrom (p : ListingPolicy) (failure : Option DecodeError) :
    List Instruction → Except DecodeError (List Instruction)
  | [] =>
    match failure with
    | none => .ok []
    | some e => .error e
  | i :: rest =>
    if p.endOffset.any fun e => e < i.offset then .ok []
    else
      match selectFrom p failure rest with
      | .error e => .error e
      | .ok is => .ok (if p.takes i then i :: is else is)

/-- The instructions within the bounds of the policy. -/
def selectedInstructions (d : Disassembly) (p : ListingPolicy) :
    Except FormatError (List Instruction) :=
  match checkStartLine d.code p with
  | .error e => .error (.listing e)
  | .ok () =>
    match selectFrom p d.instructions.failure d.instructions.items with
    | .error e => .error (.decode e)
    | .ok is => .ok is

/-! ## Formats -/

/-- The document of a disassembly. -/
def disassemblyDocument (d : Disassembly) (selected : List Instruction) : Json :=
  .object <|
    [("name", .string d.code.name)] ++
    (if d.code.filename = "" then [] else [("filename", .string d.code.filename)]) ++
    [("version", .string d.table.version), ("jump_targets", .list .nat d.jumpTargets),
      ("instructions", .list Instruction.toJson selected)]

/-- The record of an instruction, its keys in order. -/
def instructionRecord (codeName : String) (i : Instruction) : Json :=
  let marks := [("type", .string "instruction"), ("code", .string codeName)]
  .object (NameMap.ofList (i.members ++ marks)).toList

/-- The lines of JSON Lines. -/
def recordLines (d : Disassembly) (selected : List Instruction) : List String :=
  selected.map fun i => (instructionRecord d.code.name i).compact

/-- A disassembly in a format. -/
def formatDisassembly (format : OutputFormat) (d : Disassembly) (p : ListingPolicy) :
    Except FormatError String :=
  match format with
  | .text =>
    let l := renderListing d p
    match l.outcome with
    | .error e => .error (.listing e)
    | .ok _ => .ok l.text
  | .json => (selectedInstructions d p).map fun is => (disassemblyDocument d is).pretty
  | .jsonLines =>
    (selectedInstructions d p).map fun is => String.join ((recordLines d is).map (· ++ "\n"))

/-- A stream that decodes gives the accepted instructions up to the first one past the end offset.
-/
theorem selectFrom_eq_ok (p : ListingPolicy) (is : List Instruction) :
    selectFrom p none is =
      .ok ((is.takeWhile fun i => !p.endOffset.any fun e => e < i.offset).filter p.takes) := by
  induction is with
  | nil => rfl
  | cons i rest ih =>
    simp only [selectFrom, ih]
    split
    · next h => simp [h]
    · next h => simp [h, List.filter_cons]

end BytecodeDebugger
