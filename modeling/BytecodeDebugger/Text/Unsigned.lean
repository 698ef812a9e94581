/-!
# Numbers in commands

Positions, counts and ports are written as decimal digits with one optional plus sign in front. A
number has an exclusive upper limit, the number of values of the type that holds it.

Main facts: `parseDigits_lt` and `parseUnsigned_lt` (what is read lies below the limit).
-/

namespace BytecodeDebugger.Text

/-- Why a text is no number. -/
inductive NumberError where
  /-- The text is empty. -/
  | empty
  /-- A character that is no digit, or a sign on its own. -/
  | invalidDigit
  /-- The number does not lie below the limit. -/
  | tooLarge
  deriving DecidableEq, Repr

/-- The wording of the reason. -/
def NumberError.message : NumberError → String
  | .empty => "cannot parse integer from empty string"
  | .invalidDigit => "invalid digit found in string"
  | .tooLarge => "number too large to fit in target type"

/-- The value of a decimal digit. -/
def digit? (c : Char) : Option Nat :=
  if c.isDigit then some (c.toNat - '0'.toNat) else none

/-- The number whose digits continue those of `value`. The first fault from the left is reported. -/
def parseDigits (limit : Nat) (value : Nat) : List Char → Except NumberError Nat
  | [] => .ok value
  | c :: rest =>
    match digit? c with
    | none => .error .invalidDigit
    | some d =>
      if value * 10 + d < limit then parseDigits limit (value * 10 + d) rest
      else .error .tooLarge

/-- The number a text stands for, if it lies below the limit. -/
def parseUnsigned (limit : Nat) (text : String) : Except NumberError Nat :=
  match text.toList with
  | [] => .error .empty
  | ['+'] => .error .invalidDigit
  | '+' :: rest => parseDigits limit 0 rest
  | cs => parseDigits limit 0 cs

/-- The number of values of a line number. -/
def lineLimit : Nat := 0x100000000

/-- The number of values of an offset, a size or an operand. -/
def offsetLimit : Nat := 0x10000000000000000

/-! ## The limit is kept -/

/-- What is read lies below the limit. -/
theorem parseDigits_lt {limit value n : Nat} {cs : List Char} (hv : value < limit)
    (h : parseDigits limit value cs = .ok n) : n < limit := by
  induction cs generalizing value with
  | nil => simp [parseDigits] at h; omega
  | cons c rest ih =>
    simp only [parseDigits] at h
    split at h
    · simp at h
    · split at h
      · next hlt => exact ih hlt h
      · simp at h

/-- What is read lies below the limit. -/
theorem parseUnsigned_lt {limit n : Nat} {text : String} (hl : 0 < limit)
    (h : parseUnsigned limit text = .ok n) : n < limit := by
  unfold parseUnsigned at h
  split at h
  · simp at h
  · simp at h
  · exact parseDigits_lt hl h
  · exact parseDigits_lt hl h

end BytecodeDebugger.Text
