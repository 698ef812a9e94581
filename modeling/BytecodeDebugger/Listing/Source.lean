import BytecodeDebugger.Listing.Highlight
import BytecodeDebugger.Listing.Sink
import BytecodeDebugger.Store.NameMap
import BytecodeDebugger.Text.Blank
import BytecodeDebugger.Text.Lines
import BytecodeDebugger.Text.Pad
import BytecodeDebugger.Text.Unsigned

/-!
# Listings of source lines

A source line is listed behind a margin with its number, a breakpoint at it and an arrow if the
program stands there. The texts come from a provider, which may know fewer lines than it counts; the
listing then says so and ends.

Main facts: `line?_add_self` (a file has the lines of its text) and `marker?_set_of_ne` (a
breakpoint elsewhere does not matter).
-/

namespace BytecodeDebugger

/-! ## Source texts -/

/-- Where source texts come from. -/
structure SourceProvider where
  /-- The number of lines of a file, if it is known. -/
  lineCount : String → Option Nat
  /-- A line of a file, counted from one. -/
  line : String → Nat → Option String
  /-- The name under which the breakpoints of a file are kept. -/
  canonicalName : String → String

/-- The lines of known files. -/
abbrev SourceTexts := NameMap (List String)

namespace SourceTexts

/-- The texts with one more file, which replaces a file of the same name. -/
def add (s : SourceTexts) (filename text : String) : SourceTexts :=
  s.insert filename (Text.lines text)

/-- The texts of files given one after the other. -/
def ofTexts (files : List (String × String)) : SourceTexts :=
  files.foldl (fun s f => s.add f.1 f.2) .empty

/-- A line of a file, counted from one. -/
def line? (s : SourceTexts) (filename : String) : Nat → Option String
  | 0 => none
  | n + 1 => (s.find? filename).bind fun lines => lines[n]?

/-- The texts as a provider. Line numbers have 32 bits, and so has the count. -/
def provider (s : SourceTexts) : SourceProvider where
  lineCount filename := (s.find? filename).map fun lines => lines.length % Text.lineLimit
  line := s.line?
  canonicalName filename := filename

/-- The lines of a file just added are those of its text. -/
theorem line?_add_self (s : SourceTexts) (filename text : String) (n : Nat) :
    (s.add filename text).line? filename (n + 1) = (Text.lines text)[n]? := by
  simp [line?, add]

end SourceTexts

/-! ## Breakpoints -/

/-- A breakpoint as the margin shows it. -/
structure BreakpointMarker where
  number : Nat
  enabled : Bool
  deriving DecidableEq, Repr

/-- The letter of a breakpoint. -/
def BreakpointMarker.icon (m : BreakpointMarker) : String := if m.enabled then "B" else "b"

/-- Breakpoints at lines of files; of two at one line the one that comes first counts. -/
abbrev Breakpoints := List ((String × Nat) × BreakpointMarker)

namespace Breakpoints

/-- The breakpoints with one more, which replaces one at the same line. -/
def set (b : Breakpoints) (filename : String) (line : Nat) (m : BreakpointMarker) : Breakpoints :=
  ((filename, line), m) :: b

/-- The breakpoint at a line. -/
def marker? (b : Breakpoints) (filename : String) (line : Nat) : Option BreakpointMarker :=
  (b.find? fun e => e.1 == (filename, line)).map (·.2)

@[simp] theorem marker?_set_self (b : Breakpoints) (filename : String) (line : Nat)
    (m : BreakpointMarker) : (b.set filename line m).marker? filename line = some m := by
  simp [set, marker?]

/-- A breakpoint elsewhere does not matter. -/
theorem marker?_set_of_ne {b : Breakpoints} {filename other : String} {line n : Nat}
    (m : BreakpointMarker) (h : (other, n) ≠ (filename, line)) :
    (b.set filename line m).marker? other n = b.marker? other n := by
  unfold set marker?
  rw [List.find?_cons_of_neg (by simpa using fun h1 h2 => h (by simp [h1, h2]))]

end Breakpoints

/-! ## The listing -/

/-- Which lines of which file are asked for. -/
structure SourceRequest where
  filename : String
  first : Nat
  last : Nat
  deriving DecidableEq, Repr

/-- What a source listing consults. -/
structure SourceContext where
  sources : SourceProvider
  breakpoints : Breakpoints
  /-- The line where the program stands. -/
  currentLine : Option Nat

/-- The number of a line, and a blank if it leaves room for one. -/
def lineNumberColumn (line : Nat) : String :=
  let number := Text.padLeft 3 (toString line)
  if number.length < 5 then number ++ " " else number

/-- The margin of a line. The arrow takes the place of the number of a breakpoint. -/
def sourceMargin (line : Nat) (marker : Option BreakpointMarker) (isCurrent : Bool)
    (style : HighlightStyle) : String :=
  let icon := match marker with
    | some m => m.icon
    | none => " "
  let number := match marker with
    | some m => Text.zeroPad 2 m.number
    | none => "  "
  let start := lineNumberColumn line ++ icon
  if isCurrent then highlight .emphasis (start ++ "->") style else start ++ number

/-- A line behind its margin. -/
def sourceRow (c : SourceContext) (canonical : String) (style : HighlightStyle) (line : Nat)
    (text : String) : String :=
  sourceMargin line (c.breakpoints.marker? canonical line) (c.currentLine == some line) style ++
    "\t" ++ Text.trimEnd (· == '\n') text

/-- The listing of `count` lines from `line` on; `shown` is the last line listed before. -/
def sourceRows (c : SourceContext) (filename : String) (style : HighlightStyle) (shown : Option Nat)
    (line : Nat) : (count : Nat) → Listing (Option Nat)
  | 0 => .result shown
  | count + 1 =>
    match c.sources.line filename line with
    | none => (Listing.result shown).after [.line "[EOF]"]
    | some text =>
      (sourceRows c filename style (some line) (line + 1) count).after
        [.line (sourceRow c (c.sources.canonicalName filename) style line text)]

/-- The listing of source lines, which comes to the last line listed. -/
def renderSource (r : SourceRequest) (c : SourceContext) (style : HighlightStyle) :
    Listing (Option Nat) :=
  match c.sources.lineCount r.filename with
  | none => .failed (.noSource r.filename)
  | some max =>
    if max < r.first then .failed (.sourceLineOutOfRange r.first r.filename max)
    else
      let first := Nat.max r.first 1
      let last := min r.last max
      (sourceRows c r.filename style none first (last + 1 - first)).after
        (if max < r.last then
          [.line ("End position changed to last line " ++ toString max ++ " ")]
        else [])

end BytecodeDebugger
