import BytecodeDebugger.Command.Basic
import BytecodeDebugger.Text.Lines

/-!
# Disassembling

`disassemble` lists a named target, or the code where the program stands, within bounds given as
words: `FIRST`, then `LAST` or `+COUNT` for lines, `@START`, then `@END` for offsets. Words of the
two kinds may be mixed.

Main fact: `parseBounds_nil` (without words the policy stays as it is).
-/

namespace BytecodeDebugger.Disassemble

open Text (lineLimit offsetLimit)

/-! ## Bounds -/

/-- A number, or the reasons why a word holds none. -/
def number (limit : Nat) (complaint word digits : String) : Except (List String) Nat :=
  match Text.parseUnsigned limit digits with
  | .ok n => .ok n
  | .error e => .error [complaint ++ Text.quoted word, e.message]

/-- The policy under the bounds of the words, when so many words about lines and about offsets came
before. -/
def parseBoundsFrom (p : ListingPolicy) (lines offsets : Nat) :
    List String → Except (List String) ListingPolicy
  | [] => .ok p
  | word :: rest =>
    match word.toList with
    | '@' :: digits =>
      match number offsetLimit "Bad offset " word (String.ofList digits) with
      | .error e => .error e
      | .ok o =>
        match offsets with
        | 0 => parseBoundsFrom { p with startOffset := o } lines 1 rest
        | 1 => parseBoundsFrom { p with endOffset := some o } lines 2 rest
        | _ => .error ["Too many offsets: " ++ word]
    | '+' :: digits =>
      match number lineLimit "Bad line count " word (String.ofList digits) with
      | .error e => .error e
      | .ok count =>
        if lines = 1 then
          parseBoundsFrom { p with endLine := some (.relative count) } 2 offsets rest
        else .error ["A line count must follow a start line: " ++ word]
    | _ =>
      match number lineLimit "Expecting a line number, got " word word with
      | .error e => .error e
      | .ok line =>
        match lines with
        | 0 => parseBoundsFrom { p with startLine := some line } 1 offsets rest
        | 1 => parseBoundsFrom { p with endLine := some (.absolute line) } 2 offsets rest
        | _ => .error ["Too many line numbers: " ++ word]

/-- The policy under the bounds of the words. -/
def parseBounds (p : ListingPolicy) (words : List String) : Except (List String) ListingPolicy :=
  parseBoundsFrom p 0 0 words

/-- Whether a word is a bound rather than a name. -/
def isBound (word : String) : Bool :=
  match word.toList with
  | '@' :: _ => true
  | '+' :: _ => true
  | cs => cs.all Char.isDigit

/-- The name in front of the bounds, and the bounds; a dot in place of a name stands for the code
where the program stands. -/
def splitName : List String → Option String × List String
  | [] => (none, [])
  | word :: rest =>
    if word = "." then (none, rest)
    else if isBound word then (none, word :: rest)
    else (some word, rest)

/-! ## The command -/

/-- What is disassembled, and where the program stands in it. -/
def subject (d : Debuggee) : Option String → Except (List String) (Target × Option Nat)
  | some name =>
    match d.targets.find? name with
    | some target => .ok (target, none)
    | none => .error ["Don't know how to disassemble " ++ Text.quoted name]
  | none =>
    if d.isRunning then
      match d.frame with
      | some f => .ok (.code f.code, some f.offset)
      | none => .error ["No frame selected."]
    else .error ["The program being debugged is not being run."]

/-- Writes the annotated listing of a target. -/
def writeText (target : Target) (table : OpcodeTable) (p : ListingPolicy) (current : Option Nat) :
    Handler Unit := do
  match ← Handler.list (BytecodeDebugger.disassemble target table p current) with
  | .ok () => return
  | .error e => Handler.fail (("cannot disassemble " ++ target.name) :: e.chain)

/-- Writes the code objects of a target in a format, one after the other. -/
def writeDocuments (format : OutputFormat) (table : OpcodeTable) (p : ListingPolicy)
    (current : Option Nat) : List CodeObject → Handler Unit
  | [] => return
  | code :: rest => do
    match formatDisassembly format ⟨code, table, current⟩ p with
    | .error e => Handler.fail [e.message]
    | .ok text =>
      Handler.sayAll (Text.lines text)
      writeDocuments format table p current rest

/-- `disassemble [NAME] [FIRST [LAST | +COUNT]] [@START [@END]]` -/
def command : Entry Command where
  name := "disassemble"
  aliases := ["disasm"]
  minAbbrev := 6
  listed := true
  value :=
    { info := ⟨0, some 5, false, "Disassemble the current frame or a named object", none⟩
      run := fun _ args => do
        let w ← get
        let (name, bounds) := splitName args
        let (target, current) ← Handler.orFail (subject w.debuggee name)
        let p ← Handler.orFail (parseBounds w.settings.listingPolicy bounds)
        match w.settings.format with
        | .text => writeText target w.debuggee.table p current
        | format => writeDocuments format w.debuggee.table p current target.units }

@[simp] theorem parseBounds_nil (p : ListingPolicy) : parseBounds p [] = .ok p := rfl

end BytecodeDebugger.Disassemble
