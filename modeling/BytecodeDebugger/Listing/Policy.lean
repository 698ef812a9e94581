import BytecodeDebugger.Listing.Highlight
import BytecodeDebugger.Text.Unsigned

/-!
# Listing policies

The bounds and the look of one listing request. Bounds by line and by offset combine; an end line
may be given as a count of lines from the start line. Line numbers stay within their 32 bits.

Main fact: `resolvedEndLine_relative` (a count of lines ends before `start + count`).
-/

namespace BytecodeDebugger

/-- The last line of a listing. -/
inductive EndLine where
  | absolute (line : Nat)
  /-- So many lines from the start line on. -/
  | relative (count : Nat)
  deriving DecidableEq, Repr

/-- The bounds and the look of a listing. -/
structure ListingPolicy where
  highlight : HighlightStyle
  startLine : Option Nat
  endLine : Option EndLine
  startOffset : Nat
  endOffset : Option Nat
  /-- How many statements are listed at most. -/
  statementCap : Option Nat
  deriving DecidableEq, Repr

namespace ListingPolicy

/-- No bounds, and colours for a light background. -/
def unbounded : ListingPolicy := ⟨.light, none, none, 0, none, none⟩

instance : Inhabited ListingPolicy := ⟨unbounded⟩

/-- The end line as a line number. -/
def resolvedEndLine (p : ListingPolicy) : Option Nat :=
  match p.endLine with
  | none => none
  | some (.absolute line) => some line
  | some (.relative count) => some (min (p.startLine.getD 1 + count) (Text.lineLimit - 1) - 1)

/-- The bounds in words, for a heading. A start at the very beginning is not mentioned. -/
def describeBounds (p : ListingPolicy) : String :=
  (match p.startLine with
    | some l => if 1 < l then " from line " ++ toString l else ""
    | none => "") ++
  (match p.resolvedEndLine with
    | some l => " to line " ++ toString l
    | none => "") ++
  (if 1 < p.startOffset then " from offset " ++ toString p.startOffset else "") ++
  (match p.endOffset with
    | some o => " to offset " ++ toString o
    | none => "")

/-- A count of lines ends before `start + count`, unless that is beyond the last line number. -/
theorem resolvedEndLine_relative {p : ListingPolicy} {s c : Nat} (hs : p.startLine = some s)
    (hc : p.endLine = some (.relative c)) (h : s + c < Text.lineLimit) :
    p.resolvedEndLine = some (s + c - 1) := by
  have : min (s + c) (Text.lineLimit - 1) = s + c := by omega
  simp [resolvedEndLine, hs, hc, this]

end ListingPolicy

end BytecodeDebugger
