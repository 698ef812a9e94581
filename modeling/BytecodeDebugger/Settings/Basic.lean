import BytecodeDebugger.Json.Parse
import BytecodeDebugger.Listing.Format
import BytecodeDebugger.Listing.Json
import BytecodeDebugger.Settings.Value
import BytecodeDebugger.Text.Quoted
import BytecodeDebugger.Wire.IoError

/-!
# Settings

What a user can adjust. Settings are seen by name, switched on and off by name, and kept as a JSON
record whose fields may all be left out.

Main facts: `view_eq_none` (only listed names have values) and `setBool_eq_ok` (only the three
switches can be switched).
-/

namespace BytecodeDebugger

open Text (lineLimit offsetLimit)

/-- What a user can adjust. -/
structure Settings where
  highlight : HighlightStyle
  /-- How many lines a bare `list` shows. -/
  listSize : Nat
  /-- How many statements a disassembly lists at most. -/
  statementCap : Option Nat
  /-- What replaces the least abbreviation of every command. -/
  minAbbrev : Option Nat
  /-- Whether stops before definitions are skipped. -/
  skip : Bool
  /-- Whether two stops in a row are at different positions. -/
  different : Bool
  format : OutputFormat
  /-- Whether dangerous commands ask first. -/
  confirm : Bool
  deriving DecidableEq, Repr

/-- Why settings could not be read or changed. -/
inductive SettingsError where
  | io (path : String) (cause : IoError)
  /-- The text is no record of settings. -/
  | malformed
  | unknown (name : String)
  | notBoolean (name : String)
  deriving DecidableEq, Repr

/-- The wording of a failure. -/
def SettingsError.message : SettingsError → String
  | .io path cause => "cannot read settings from " ++ path ++ ": " ++ cause.message
  | .malformed => "invalid settings"
  | .unknown name => "unknown setting " ++ Text.quoted name
  | .notBoolean name => "setting " ++ Text.quoted name ++ " is not a boolean"

namespace Settings

/-- The settings of a fresh session. -/
def initial : Settings := ⟨.light, 10, none, none, true, true, .text, true⟩

instance : Inhabited Settings := ⟨initial⟩

/-- The names of the settings. -/
def names : List String :=
  ["abbrev", "confirm", "different", "format", "highlight", "listsize", "skip", "statement_cap"]

/-- The settings by name. A count that is not set has no value. -/
def view (s : Settings) : SettingsView := fun name =>
  match name with
  | "highlight" => some (.text s.highlight.name)
  | "listsize" => some (.ofCount s.listSize)
  | "statement_cap" => s.statementCap.map .ofCount
  | "abbrev" => s.minAbbrev.map .ofCount
  | "skip" => some (.bool s.skip)
  | "different" => some (.bool s.different)
  | "format" => some (.text s.format.shown)
  | "confirm" => some (.bool s.confirm)
  | _ => none

/-- Changes a switch. -/
def setBool (s : Settings) (name : String) (value : Bool) : Except SettingsError Settings :=
  match name with
  | "skip" => .ok { s with skip := value }
  | "different" => .ok { s with different := value }
  | "confirm" => .ok { s with confirm := value }
  | name => if names.contains name then .error (.notBoolean name) else .error (.unknown name)

/-- The listing policy under these settings, without bounds. -/
def listingPolicy (s : Settings) : ListingPolicy :=
  { ListingPolicy.unbounded with highlight := s.highlight, statementCap := s.statementCap }

/-! ## Settings as JSON -/

/-- The document of the settings. -/
def toJson (s : Settings) : Json :=
  .object
    [("highlight", .string s.highlight.name), ("listsize", .nat s.listSize),
      ("statement_cap", .option .nat s.statementCap), ("abbrev", .option .nat s.minAbbrev),
      ("skip", .bool s.skip), ("different", .bool s.different), ("format", .string s.format.name),
      ("confirm", .bool s.confirm)]

/-- The names of the fields, in the order of documents. -/
def fieldNames : List String :=
  ["highlight", "listsize", "statement_cap", "abbrev", "skip", "different", "format", "confirm"]

/-- The settings of a document. -/
def ofJson? (j : Json) : Option Settings :=
  match j.fields? fieldNames with
  | some [highlight, listSize, statementCap, minAbbrev, skip, different, format, confirm] => do
    let style := fun j => (Json.plainName? j).bind HighlightStyle.ofName?
    let output := fun j => (Json.plainName? j).bind OutputFormat.ofName?
    return {
      highlight := ← Json.withDefault initial.highlight style highlight
      listSize := ← Json.withDefault initial.listSize (Json.nat? lineLimit) listSize
      statementCap := ← Json.withDefault none (Json.option? (Json.nat? offsetLimit)) statementCap
      minAbbrev := ← Json.withDefault none (Json.option? (Json.nat? offsetLimit)) minAbbrev
      skip := ← Json.withDefault initial.skip Json.bool? skip
      different := ← Json.withDefault initial.different Json.bool? different
      format := ← Json.withDefault initial.format output format
      confirm := ← Json.withDefault initial.confirm Json.bool? confirm }
  | _ => none

/-- The settings of a text. -/
def ofText (text : String) : Except SettingsError Settings :=
  match (Json.parse? text).bind ofJson? with
  | none => .error .malformed
  | some s => .ok s

/-- The text of the settings. -/
def toText (s : Settings) : String := s.toJson.pretty

/-- The settings of a file, given what reading it yields. -/
def load (path : String) (contents : Except IoError (List UInt8)) : Except SettingsError Settings :=
  match contents with
  | .error e => .error (.io path e)
  | .ok bytes =>
    match Text.ofUtf8? bytes with
    | none => .error (.io path .notUtf8)
    | some text => ofText text

/-! ## Names -/

/-- Only listed names have values. -/
theorem view_eq_none {s : Settings} {name : String} (h : name ∉ names) : s.view name = none := by
  unfold view
  split <;> first | rfl | (exfalso; exact h (by decide))

/-- Only the three switches can be switched. -/
theorem setBool_eq_ok {s t : Settings} {name : String} {value : Bool}
    (h : s.setBool name value = .ok t) : name ∈ ["skip", "different", "confirm"] := by
  unfold setBool at h
  split at h
  · decide
  · decide
  · decide
  · split at h <;> simp at h

end Settings

end BytecodeDebugger
