import BytecodeDebugger.Text.Fold

/-!
# Highlighting

Listings can be coloured for a light or a dark terminal. A token is wrapped in the escape sequence
of its kind and the one that resets the terminal; the plain style leaves every token as it is.

Main facts: `highlight_plain` (the plain style changes nothing) and `highlight_eq` (any style
wraps).
-/

namespace BytecodeDebugger

/-- The colours of a listing. -/
inductive HighlightStyle where
  /-- No colours. -/
  | plain
  /-- Colours for a light background. -/
  | light
  /-- Colours for a dark background. -/
  | dark
  deriving DecidableEq, Repr

namespace HighlightStyle

instance : Inhabited HighlightStyle := ⟨.light⟩

/-- The name of a style. -/
def name : HighlightStyle → String
  | .plain => "plain"
  | .light => "light"
  | .dark => "dark"

/-- The styles. -/
def all : List HighlightStyle := [.plain, .light, .dark]

/-- The style of a name. -/
def ofName? (name : String) : Option HighlightStyle := all.find? fun s => s.name == name

/-- The style that a user names, in any letter case. -/
def ofString? (text : String) : Option HighlightStyle :=
  match Text.foldCase text with
  | "plain" => some .plain
  | "off" => some .plain
  | "light" => some .light
  | "dark" => some .dark
  | _ => none

/-- What is said about a name that is no style. -/
def unknownMessage (text : String) : String := "Unknown highlight style: " ++ text

end HighlightStyle

/-- What a token of a listing is. -/
inductive TokenKind where
  | lineNumber
  | arrow
  | opcode
  | constant
  | name
  | variable
  | label
  | compare
  | emphasis
  deriving DecidableEq, Repr

/-- The parameters of the escape sequence of a token, if the style has one. -/
def TokenKind.colour? (k : TokenKind) : HighlightStyle → Option String
  | .plain => none
  | .light =>
    some <| match k with
      | .lineNumber | .emphasis => "1"
      | .arrow => "1;31"
      | .opcode => "34"
      | .constant => "32"
      | .name => "36"
      | .variable => "35"
      | .label => "31"
      | .compare => "33"
  | .dark =>
    some <| match k with
      | .lineNumber | .emphasis => "1"
      | .arrow => "1;91"
      | .opcode => "94"
      | .constant => "92"
      | .name => "96"
      | .variable => "95"
      | .label => "91"
      | .compare => "93"

/-- The escape sequence with the given parameters. -/
def escapeSequence (parameters : String) : String := "\x1b[" ++ parameters ++ "m"

/-- A token under a style. -/
def highlight (k : TokenKind) (text : String) (style : HighlightStyle) : String :=
  match k.colour? style with
  | none => text
  | some c => escapeSequence c ++ text ++ escapeSequence "0"

@[simp] theorem highlight_plain (k : TokenKind) (text : String) :
    highlight k text .plain = text := rfl

/-- Any other style wraps the token. -/
theorem highlight_eq {k : TokenKind} {style : HighlightStyle} {c : String} (text : String)
    (h : k.colour? style = some c) :
    highlight k text style = escapeSequence c ++ text ++ escapeSequence "0" := by
  simp [highlight, h]

end BytecodeDebugger
