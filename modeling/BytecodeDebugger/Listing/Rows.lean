import BytecodeDebugger.Decode.Instruction
import BytecodeDebugger.Listing.Policy
import BytecodeDebugger.Listing.Sink
import BytecodeDebugger.Text.Pad

/-!
# Listings of instructions

One row an instruction: its line if a statement starts there, markers for the current instruction
and for jump targets, its offset, name and operand. A blank line comes before each statement but the
first row. Rows outside the bounds of the policy are left out; the listing ends at the first row
beyond them, or when as many statements as the policy allows have been listed.

A target is listed under a heading. The members of a container are listed one after the other; one
that cannot be listed is reported, and the others are listed all the same.

Main facts: `checkStartLine_eq_ok_iff` and `outcome_disassemble_container`.
-/

namespace BytecodeDebugger

/-- What a listing came to. -/
structure ListingSummary where
  /-- The rows written. -/
  rows : Nat
  /-- The statements listed. -/
  statements : Nat
  /-- Whether the listing ended because of the statement cap. -/
  capped : Bool
  deriving DecidableEq, Repr

/-- Refuses a start line that is higher than every line of the code. -/
def checkStartLine (code : CodeObject) (p : ListingPolicy) : Except ListingError Unit :=
  match p.startLine with
  | none => .ok ()
  | some start =>
    let max := code.lineTable.maxLine?.getD 0
    if max < start then .error (.startLineOutOfRange start max) else .ok ()

/-! ## Rows -/

/-- The columns for the line and the markers. -/
def gutter (i : Instruction) (style : HighlightStyle) : String :=
  (match i.startsLine, i.lineNumber with
    | true, some l => highlight .lineNumber (Text.padLeft 3 (toString l)) style
    | _, _ => "   ") ++
  (if i.isCurrent then highlight .arrow "-->" style else "   ") ++
  (if i.isJumpTarget then highlight .arrow ">>" style else "  ")

/-- The column for what an operand refers to. -/
def operandText (o : ResolvedOperand) (style : HighlightStyle) : String :=
  match o with
  | .constant t => "(" ++ highlight .constant t style ++ ")"
  | .name t => "(" ++ highlight .name t style ++ ")"
  | .localVariable t => "(" ++ highlight .variable t style ++ ")"
  | .compare t => "(" ++ highlight .compare t style ++ ")"
  | .free t => "(" ++ t ++ ")"
  | .jump _ => highlight .label o.shown style

/-- The columns for the offset, the name and the operand. -/
def rowBody (i : Instruction) (style : HighlightStyle) : String :=
  Text.padLeft 4 (toString i.offset) ++ " " ++
    highlight .opcode (Text.padRight 20 i.name) style ++
    match i.operandValue with
    | none => ""
    | some v =>
      Text.padLeft 5 (toString v) ++ " " ++
        match i.resolvedOperand with
        | none => ""
        | some o => operandText o style

/-- The calls that write a row. -/
def rowWrites (i : Instruction) (style : HighlightStyle) : List Write :=
  [.fragment (gutter i style), .line (rowBody i style)]

/-! ## Bounds -/

/-- Whether the listing ends before the instruction. A statement beyond the end line ends it; an
instruction inside a statement does not. -/
def ListingPolicy.endsBefore (p : ListingPolicy) (i : Instruction) : Bool :=
  (p.endOffset.any fun e => e < i.offset) ||
    (i.startsLine && p.resolvedEndLine.any fun e => i.lineNumber.any fun l => e < l)

/-- Whether the instruction lies at or after the starts of the policy. -/
def ListingPolicy.hasBegun (p : ListingPolicy) (i : Instruction) : Bool :=
  (match p.startLine with
    | none => true
    | some s => i.lineNumber.any fun l => s ≤ l) &&
  p.startOffset ≤ i.offset

/-- Whether the statements listed so far are as many as allowed. -/
def ListingPolicy.isFull (p : ListingPolicy) (summary : ListingSummary) : Bool :=
  p.statementCap.any fun cap => cap ≤ summary.statements

/-! ## Listings -/

/-- The rows of instructions, after what `summary` counts, and the failure that ended decoding. -/
def listRows (p : ListingPolicy) (failure : Option DecodeError) (summary : ListingSummary) :
    List Instruction → Listing ListingSummary
  | [] =>
    match failure with
    | none => .result summary
    | some e => .failed (.decode e)
  | i :: rest =>
    if p.endsBefore i then .result summary
    else if p.hasBegun i then
      if i.startsLine then
        if p.isFull summary then .result { summary with capped := true }
        else
          (listRows p failure ⟨summary.rows + 1, summary.statements + 1, false⟩ rest).after
            ((if 0 < summary.rows then [.line ""] else []) ++ rowWrites i p.highlight)
      else
        (listRows p failure ⟨summary.rows + 1, summary.statements, false⟩ rest).after
          (rowWrites i p.highlight)
    else listRows p failure summary rest

/-- The listing of a code object. -/
def renderListing (d : Disassembly) (p : ListingPolicy) : Listing ListingSummary :=
  match checkStartLine d.code p with
  | .error e => .failed e
  | .ok () => listRows p d.instructions.failure ⟨0, 0, false⟩ d.instructions.items

/-- The calls that list one member of a container: its listing, a report if that failed, and a blank
line. -/
def memberWrites (table : OpcodeTable) (p : ListingPolicy) (name : String) (code : CodeObject) :
    List Write :=
  let l := renderListing ⟨code, table, none⟩ p
  l.writes ++
    (match l.outcome with
      | .ok _ => []
      | .error e => [.fault ("Sorry: " ++ name ++ ": " ++ e.message)]) ++
    [.line ""]

/-- The heading of a target. -/
def targetHeading (title : String) (p : ListingPolicy) : Write :=
  .heading ("Disassembly of " ++ title ++ ":" ++ p.describeBounds)

/-- The listing of a target. The current offset belongs to a single code object. -/
def disassemble (target : Target) (table : OpcodeTable) (p : ListingPolicy)
    (current : Option Nat) : Listing Unit :=
  match target with
  | .code unit =>
    match checkStartLine unit p with
    | .error e => .failed e
    | .ok () =>
      ((renderListing ⟨unit, table, current⟩ p).andThen fun _ => .result ()).after
        [targetHeading unit.shown p]
  | .container name members =>
    ⟨targetHeading name p :: members.toList.flatMap fun m => memberWrites table p m.1 m.2, .ok ()⟩

/-- A start line is refused exactly when it is higher than every line of the code. -/
theorem checkStartLine_eq_ok_iff {code : CodeObject} {p : ListingPolicy} :
    checkStartLine code p = .ok () ↔
      ∀ s, p.startLine = some s → s ≤ code.lineTable.maxLine?.getD 0 := by
  unfold checkStartLine
  split
  · next h => simp [h]
  · next s h =>
    simp only [h, Option.some.injEq, forall_eq']
    split
    · next hlt => simp; omega
    · next hle => simp; omega

/-- The listing of a container never fails. -/
@[simp] theorem outcome_disassemble_container (name : String) (members : NameMap CodeObject)
    (table : OpcodeTable) (p : ListingPolicy) (current : Option Nat) :
    (disassemble (.container name members) table p current).outcome = .ok () := rfl

end BytecodeDebugger
