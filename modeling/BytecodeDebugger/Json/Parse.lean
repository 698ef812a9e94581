import BytecodeDebugger.Json.Value

/-!
# Reading JSON text

A strict reader: no comments, no final commas, no leading zeros, no raw controls in texts, and
nothing but blanks around the one value of a document. A number is kept as written. An escape that
stands for half of a character makes its text unreadable, which is an error only for those who read
that text.
-/

namespace BytecodeDebugger.Json

/-- The blanks between tokens. -/
def isSpace (c : Char) : Bool := c == ' ' || c == '\t' || c == '\n' || c == '\r'

/-- What follows the blanks. -/
def skipSpace (cs : List Char) : List Char := cs.dropWhile isSpace

/-! ## Texts -/

/-- A piece of a text: a character, or a unit of sixteen bits from an escape. -/
inductive Piece where
  | char (c : Char)
  | unit (n : Nat)
  deriving DecidableEq, Repr

/-- The value of a hexadecimal digit. -/
def hexValue? (c : Char) : Option Nat :=
  let n := c.toNat
  if 48 ≤ n ∧ n ≤ 57 then some (n - 48)
  else if 97 ≤ n ∧ n ≤ 102 then some (n - 87)
  else if 65 ≤ n ∧ n ≤ 70 then some (n - 55)
  else none

/-- The number that four hexadecimal digits spell. -/
def unit? (a b c d : Char) : Option Nat :=
  match hexValue? a, hexValue? b, hexValue? c, hexValue? d with
  | some a, some b, some c, some d => some (((a * 16 + b) * 16 + c) * 16 + d)
  | _, _, _, _ => none

/-- The character that a letter after a backslash stands for. -/
def letterEscape? (c : Char) : Option Char :=
  match c with
  | '"' => some '"'
  | '\\' => some '\\'
  | '/' => some '/'
  | 'b' => some '\x08'
  | 'f' => some '\x0c'
  | 'n' => some '\n'
  | 'r' => some '\r'
  | 't' => some '\t'
  | _ => none

/-- The pieces of a text up to its closing quote, and what follows. The pieces before are given last
first. -/
def pieces? (before : List Piece) : List Char → Option (List Piece × List Char)
  | [] => none
  | '"' :: rest => some (before.reverse, rest)
  | '\\' :: 'u' :: a :: b :: c :: d :: rest =>
    match unit? a b c d with
    | none => none
    | some n => pieces? (.unit n :: before) rest
  | '\\' :: e :: rest =>
    match letterEscape? e with
    | none => none
    | some c => pieces? (.char c :: before) rest
  | c :: rest => if c = '\\' ∨ c.toNat < 0x20 then none else pieces? (.char c :: before) rest

/-- The characters that pieces spell, if no half of a pair stands alone. The characters before are
given last first. -/
def spell? (before : List Char) : List Piece → Option (List Char)
  | [] => some before.reverse
  | .char c :: rest => spell? (c :: before) rest
  | .unit n :: rest =>
    if n < 0xD800 ∨ 0xE000 ≤ n then spell? (Char.ofNat n :: before) rest
    else if n < 0xDC00 then
      match rest with
      | .unit m :: rest =>
        if 0xDC00 ≤ m ∧ m < 0xE000 then
          spell? (Char.ofNat (0x10000 + (n - 0xD800) * 1024 + (m - 0xDC00)) :: before) rest
        else none
      | _ => none
    else none

/-- The text after an opening quote, which is absent if it cannot be read, and what follows. -/
def text? (cs : List Char) : Option (Option String × List Char) :=
  match pieces? [] cs with
  | none => none
  | some (ps, rest) => some ((spell? [] ps).map String.ofList, rest)

/-! ## Numbers -/

/-- The number that digits spell. -/
def digitsValue (ds : List Char) : Nat :=
  ds.foldl (fun n c => n * 10 + Decimal.digitValue c) 0

/-- The leading digits and what follows. -/
def splitDigits (cs : List Char) : List Char × List Char :=
  (cs.takeWhile Char.isDigit, cs.dropWhile Char.isDigit)

/-- The digits after a point, if there is one. At least one is needed. -/
def fraction? (cs : List Char) : Option (Option (List Char) × List Char) :=
  match cs with
  | '.' :: rest =>
    match splitDigits rest with
    | ([], _) => none
    | (ds, rest) => some (some ds, rest)
  | _ => some (none, cs)

/-- The exponent, if there is one. At least one digit is needed. -/
def exponent? (cs : List Char) : Option (Option Int × List Char) :=
  match cs with
  | e :: rest =>
    if e = 'e' ∨ e = 'E' then
      let (negative, rest) :=
        match rest with
        | '+' :: rest => (false, rest)
        | '-' :: rest => (true, rest)
        | rest => (false, rest)
      match splitDigits rest with
      | ([], _) => none
      | (ds, rest) =>
        let n : Int := digitsValue ds
        some (some (if negative then -n else n), rest)
    else some (none, cs)
  | [] => some (none, [])

/-- The number at the start of the characters and what follows. -/
def number? (cs : List Char) : Option (Decimal.Literal × List Char) :=
  let (negative, cs) :=
    match cs with
    | '-' :: rest => (true, rest)
    | cs => (false, cs)
  match splitDigits cs with
  | ([], _) => none
  | (ds, rest) =>
    if ds.head? = some '0' ∧ ds.length ≠ 1 then none
    else
      match fraction? rest with
      | none => none
      | some (fraction, rest) =>
        match exponent? rest with
        | none => none
        | some (exponent, rest) => some (⟨negative, digitsValue ds, fraction, exponent⟩, rest)

/-! ## Values -/

mutual

/-- The value at the start of the characters and what follows. Each level of nesting and each item
takes from the fuel. -/
def value? : (fuel : Nat) → List Char → Option (Json × List Char)
  | 0, _ => none
  | fuel + 1, cs =>
    match skipSpace cs with
    | '\x7b' :: rest =>
      match skipSpace rest with
      | '\x7d' :: rest => some (.object [], rest)
      | rest =>
        match members? fuel rest with
        | none => none
        | some (none, rest) => some (.unreadable, rest)
        | some (some ms, rest) => some (.object ms, rest)
    | '[' :: rest =>
      match skipSpace rest with
      | ']' :: rest => some (.array [], rest)
      | rest =>
        match items? fuel rest with
        | none => none
        | some (vs, rest) => some (.array vs, rest)
    | '"' :: rest =>
      match text? rest with
      | none => none
      | some (none, rest) => some (.unreadable, rest)
      | some (some s, rest) => some (.string s, rest)
    | 't' :: 'r' :: 'u' :: 'e' :: rest => some (.bool true, rest)
    | 'f' :: 'a' :: 'l' :: 's' :: 'e' :: rest => some (.bool false, rest)
    | 'n' :: 'u' :: 'l' :: 'l' :: rest => some (.null, rest)
    | rest =>
      match number? rest with
      | none => none
      | some (l, rest) => some (.number l, rest)

/-- One item or more up to the closing bracket, and what follows. -/
def items? : (fuel : Nat) → List Char → Option (List Json × List Char)
  | 0, _ => none
  | fuel + 1, cs =>
    match value? fuel cs with
    | none => none
    | some (v, rest) =>
      match skipSpace rest with
      | ']' :: rest => some ([v], rest)
      | ',' :: rest =>
        match items? fuel rest with
        | none => none
        | some (vs, rest) => some (v :: vs, rest)
      | _ => none

/-- One member or more up to the closing brace, and what follows. The members are absent if one of
their keys cannot be read. -/
def members? : (fuel : Nat) → List Char → Option (Option (List (String × Json)) × List Char)
  | 0, _ => none
  | fuel + 1, cs =>
    match skipSpace cs with
    | '"' :: rest =>
      match text? rest with
      | none => none
      | some (key, rest) =>
        match skipSpace rest with
        | ':' :: rest =>
          match value? fuel rest with
          | none => none
          | some (v, rest) =>
            let first : Option (String × Json) := key.map fun k => (k, v)
            match skipSpace rest with
            | '\x7d' :: rest => some (first.map fun m => [m], rest)
            | ',' :: rest =>
              match members? fuel rest with
              | none => none
              | some (ms, rest) =>
                match first, ms with
                | some m, some ms => some (some (m :: ms), rest)
                | _, _ => some (none, rest)
            | _ => none
        | _ => none
    | _ => none

end

/-- The one value of a document. -/
def parse? (text : String) : Option Json :=
  let cs := text.toList
  match value? (2 * cs.length + 2) cs with
  | none => none
  | some (v, rest) => if (skipSpace rest).isEmpty then some v else none

end BytecodeDebugger.Json
