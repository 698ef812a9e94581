import BytecodeDebugger.Text.Combining
import BytecodeDebugger.Text.Unprintable

/-!
# Quoted text in messages

Messages quote a text between double quotes so that each of its characters can be told: quotes and
backslashes get a backslash, the usual controls their letter, and a character that does not show as
itself, or that would join the one before it, is written as its code point in hexadecimal.
-/

namespace BytecodeDebugger.Text

/-- A character that is written as its code point. -/
def escapeCodePoint (c : Char) : List Char :=
  '\\' :: 'u' :: '\x7b' :: Nat.toDigits 16 c.toNat ++ ['\x7d']

/-- How a character is written between double quotes. -/
def escapeChar (c : Char) : List Char :=
  match c with
  | '\x00' => ['\\', '0']
  | '\t' => ['\\', 't']
  | '\n' => ['\\', 'n']
  | '\r' => ['\\', 'r']
  | '"' => ['\\', '"']
  | '\\' => ['\\', '\\']
  | c => if isCombining c || !isPrintable c then escapeCodePoint c else [c]

/-- The text between double quotes, with escapes. -/
def quoted (text : String) : String :=
  String.ofList ('"' :: text.toList.flatMap escapeChar ++ ['"'])

end BytecodeDebugger.Text
