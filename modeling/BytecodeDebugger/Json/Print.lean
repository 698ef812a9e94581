import BytecodeDebugger.Json.Value

/-!
# JSON text

The two ways in which documents are written: `compact`, without any blank, and `pretty`, one item a
line and two spaces for each level. A text escapes the double quote, the backslash and the controls,
and nothing else, so that a written document holds no control besides the line feeds of `pretty`.
-/

namespace BytecodeDebugger.Json

/-- The digit of a number below sixteen. -/
def hexDigit (n : Nat) : Char := Nat.digitChar n

/-- How a character is written inside a text. -/
def escapeChar (c : Char) : List Char :=
  match c with
  | '"' => ['\\', '"']
  | '\\' => ['\\', '\\']
  | '\x08' => ['\\', 'b']
  | '\t' => ['\\', 't']
  | '\n' => ['\\', 'n']
  | '\x0c' => ['\\', 'f']
  | '\r' => ['\\', 'r']
  | c =>
    if c.toNat < 0x20 then ['\\', 'u', '0', '0', hexDigit (c.toNat / 16), hexDigit (c.toNat % 16)]
    else [c]

/-- A text between double quotes. -/
def textChars (text : String) : List Char :=
  '"' :: text.toList.flatMap escapeChar ++ ['"']

mutual

/-- The characters of a document without blanks. -/
def compactChars : Json → List Char
  | .null => ['n', 'u', 'l', 'l']
  | .bool true => ['t', 'r', 'u', 'e']
  | .bool false => ['f', 'a', 'l', 's', 'e']
  | .number l => l.chars true
  | .string s => textChars s
  | .array [] => ['[', ']']
  | .array (v :: vs) => '[' :: compactChars v ++ compactItems vs ++ [']']
  | .object [] => ['\x7b', '\x7d']
  | .object ((k, v) :: ms) =>
    '\x7b' :: textChars k ++ ':' :: compactChars v ++ compactMembers ms ++ ['\x7d']
  | .unreadable => ['n', 'u', 'l', 'l']

/-- Further items, each after a comma. -/
def compactItems : List Json → List Char
  | [] => []
  | v :: vs => ',' :: compactChars v ++ compactItems vs

/-- Further members, each after a comma. -/
def compactMembers : List (String × Json) → List Char
  | [] => []
  | (k, v) :: ms => ',' :: textChars k ++ ':' :: compactChars v ++ compactMembers ms

end

/-- The document on one line, without blanks. -/
def compact (j : Json) : String := String.ofList j.compactChars

/-- A new line at a level. -/
def newLine (level : Nat) : List Char := '\n' :: List.replicate (2 * level) ' '

mutual

/-- The characters of a document that starts at a level. -/
def prettyChars (level : Nat) : Json → List Char
  | .null => ['n', 'u', 'l', 'l']
  | .bool true => ['t', 'r', 'u', 'e']
  | .bool false => ['f', 'a', 'l', 's', 'e']
  | .number l => l.chars true
  | .string s => textChars s
  | .array [] => ['[', ']']
  | .array (v :: vs) =>
    '[' :: newLine (level + 1) ++ prettyChars (level + 1) v ++ prettyItems (level + 1) vs ++
      newLine level ++ [']']
  | .object [] => ['\x7b', '\x7d']
  | .object ((k, v) :: ms) =>
    '\x7b' :: newLine (level + 1) ++ textChars k ++ ':' :: ' ' :: prettyChars (level + 1) v ++
      prettyMembers (level + 1) ms ++ newLine level ++ ['\x7d']
  | .unreadable => ['n', 'u', 'l', 'l']

/-- Further items at a level, each after a comma. -/
def prettyItems (level : Nat) : List Json → List Char
  | [] => []
  | v :: vs => ',' :: newLine level ++ prettyChars level v ++ prettyItems level vs

/-- Further members at a level, each after a comma. -/
def prettyMembers (level : Nat) : List (String × Json) → List Char
  | [] => []
  | (k, v) :: ms =>
    ',' :: newLine level ++ textChars k ++ ':' :: ' ' :: prettyChars level v ++
      prettyMembers level ms

end

/-- The document with one item a line. -/
def pretty (j : Json) : String := String.ofList (j.prettyChars 0)

/-- A record is written with its braces. -/
theorem pretty_object_ne_empty (ms : List (String × Json)) : (object ms).pretty ≠ "" := by
  unfold pretty
  rw [Ne, String.ofList_eq_empty_iff]
  cases ms <;> exact List.cons_ne_nil _ _

end BytecodeDebugger.Json
