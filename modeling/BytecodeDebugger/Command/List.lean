import BytecodeDebugger.Command.Basic

/-!
# Listing source lines

`list` shows a window of source lines: around a line, from a line to another one, or the window
after the one shown last. Line numbers stay within their 32 bits.

Main facts: `windowEnd_of_lt` (a window has as many lines as its size) and `one_le_centred`.
-/

namespace BytecodeDebugger.SourceList

open Text (lineLimit)

/-- A line number, or the reasons why a word is none. -/
def parseLine (word : String) : Except (List String) Nat :=
  match Text.parseUnsigned lineLimit word with
  | .ok n => .ok n
  | .error e => .error ["Expecting a line number, got " ++ Text.quoted word, e.message]

/-- The characters before the last colon and those after it. -/
def splitLastColon (cs : List Char) : Option (List Char × List Char) :=
  match cs.reverse.span (· != ':') with
  | (after, _ :: before) => some (before.reverse, after.reverse)
  | (_, []) => none

/-- The file and the line of `FILE:LINE`, `FILE` or `LINE`. -/
def parseLocation (word : String) : Except (List String) (Option String × Option Nat) :=
  match splitLastColon word.toList with
  | some (file, line) =>
    (parseLine (String.ofList line)).map fun l => (some (String.ofList file), some l)
  | none =>
    if word.toList.all Char.isDigit then (parseLine word).map fun l => (none, some l)
    else .ok (some word, none)

/-- The first line of a window of `size` lines around a line. -/
def centred (line size : Nat) : Nat := max (line - size / 2) 1

/-- The last line of a window of `size` lines. -/
def windowEnd (first size : Nat) : Nat := min (first + (size - 1)) (lineLimit - 1)

/-- The file and the lines that are asked for. -/
def request (d : Debuggee) (size : Nat) :
    List String → Except (List String) (Option String × Nat × Nat)
  | [] =>
    match d.listNext with
    | some (file, next) => .ok (some file, next, windowEnd next size)
    | none =>
      let first := centred (d.currentLine?.getD 1) size
      .ok (d.currentFile?, first, windowEnd first size)
  | [location] =>
    match parseLocation location with
    | .error e => .error e
    | .ok (file, line) =>
      let first := match line with
        | some l => centred l size
        | none => 1
      .ok (file.or d.currentFile?, first, windowEnd first size)
  | location :: last :: _ =>
    match parseLocation location with
    | .error e => .error e
    | .ok (file, line) =>
      let first := line.getD 1
      match parseLine last with
      | .error e => .error e
      | .ok l =>
        .ok (file.or d.currentFile?, first, if l < first then windowEnd first l else l)

/-- The listing of a request; the line where the program stands counts in its own file. -/
def listing (d : Debuggee) (style : HighlightStyle) (r : SourceRequest) : Listing (Option Nat) :=
  let current := if d.currentFile? = some r.filename then d.currentLine? else none
  renderSource r ⟨d.sources.provider, d.breakpoints, current⟩ style

/-- The program after a listing that ended with a line. -/
def goOnAfter (d : Debuggee) (filename : String) : Option Nat → Debuggee
  | none => d
  | some shown => { d with listNext := some (filename, min (shown + 1) (lineLimit - 1)) }

/-- `list [FILE:]LINE [LAST | COUNT]` -/
def command : Entry Command where
  name := "list"
  aliases := ["l"]
  minAbbrev := 2
  listed := true
  value :=
    { info := ⟨0, some 2, false, "List source code", none⟩
      run := fun _ args => do
        let w ← get
        let (file, first, last) ←
          Handler.orFail (request w.debuggee (max w.settings.listSize 1) args)
        match file with
        | none => Handler.fail ["No default source file; use list FILE:LINE"]
        | some filename =>
          let l := listing w.debuggee w.settings.highlight ⟨filename, first, last⟩
          match ← Handler.list l with
          | .error e => Handler.fail e.chain
          | .ok shown => set { w with debuggee := goOnAfter w.debuggee filename shown } }

/-- A window has as many lines as its size. -/
theorem windowEnd_of_lt {first size : Nat} (h : first + size < lineLimit) (hs : 0 < size) :
    windowEnd first size + 1 = first + size := by
  unfold windowEnd
  omega

/-- No window starts before the first line. -/
theorem one_le_centred (line size : Nat) : 1 ≤ centred line size := by
  unfold centred
  omega

end BytecodeDebugger.SourceList
