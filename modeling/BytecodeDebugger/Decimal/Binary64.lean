import BytecodeDebugger.Decimal.Literal
import BytecodeDebugger.Text.Unsigned

/-!
# Doubles

The finite binary64 numbers, as a sign and a whole multiple of a power of two, with the arithmetic
that reading a decimal literal needs. Every operation rounds the exact result to the nearest double
and a tie to the even significand; all of it is arithmetic on natural numbers.

A literal is read in three steps: the leading digits that fit 64 bits are collected into a
significand, the significand is rounded, and the rest is one multiplication with, or division by,
the double nearest to a power of ten. So the result can differ from the nearest double in its last
bit.
-/

namespace BytecodeDebugger.Decimal

/-- A finite double, worth `significand * 2 ^ (scale - 1074)`. The significand has at most 53 bits,
and exactly 53 unless the scale is zero. -/
structure Binary64 where
  negative : Bool
  significand : Nat
  scale : Nat
  deriving DecidableEq, Repr

namespace Binary64

/-- Zero. -/
def zero : Binary64 := ⟨false, 0, 0⟩

/-- Whether the number is a zero of either sign. -/
def isZero (x : Binary64) : Bool := x.significand == 0

/-- The quotient of two natural numbers to the nearest, a tie to the even neighbour. -/
def divNearest (n d : Nat) : Nat :=
  let q := n / d
  let r := n % d
  if d < 2 * r then q + 1
  else if 2 * r = d then q + q % 2
  else q

/-- The double nearest to `n / d`, unless that lies beyond the largest one. -/
def ofRatio? (n d : Nat) : Option Binary64 :=
  let scaled := n * Nat.pow 2 1074
  let scale := (scaled / d).log2 - 52
  let m := divNearest scaled (d * Nat.pow 2 scale)
  let x : Binary64 :=
    if m = Nat.pow 2 53 then ⟨false, Nat.pow 2 52, scale + 1⟩ else ⟨false, m, scale⟩
  if x.scale ≤ 2045 then some x else none

/-- The product of two doubles without regard to sign, unless it lies beyond the largest one. -/
def mul? (x y : Binary64) : Option Binary64 :=
  ofRatio? (x.significand * y.significand * Nat.pow 2 (x.scale + y.scale)) (Nat.pow 2 2148)

/-- The quotient of two doubles without regard to sign, unless it lies beyond the largest one. -/
def div? (x y : Binary64) : Option Binary64 :=
  ofRatio? (x.significand * Nat.pow 2 x.scale) (y.significand * Nat.pow 2 y.scale)

/-- The double nearest to a power of ten. -/
def powerOfTen? (k : Nat) : Option Binary64 :=
  ofRatio? (Nat.pow 10 k) 1

/-- `x` times a power of ten. Powers beyond 10 ^ 308 are taken out in steps, of which `steps` are
left; a number that outlasts them is zero. -/
def shift? : (steps : Nat) → Binary64 → Int → Option Binary64
  | 0, _, _ => some zero
  | steps + 1, x, e =>
    if e.natAbs ≤ 308 then do
      let p ← powerOfTen? e.natAbs
      if 0 ≤ e then mul? x p else div? x p
    else if x.isZero then some x
    else if 0 ≤ e then none
    else do
      let y ← div? x (← powerOfTen? 308)
      shift? steps y (e + 308)

end Binary64

/-! ## Reading a literal -/

/-- The digits of a literal that fit 64 bits, and the power of ten that their number is short of. -/
structure Digits where
  significand : Nat
  exponent : Int
  deriving DecidableEq, Repr

/-- The value of a digit character. -/
def digitValue (c : Char) : Nat := c.toNat - '0'.toNat

/-- Collects digits before the point. From the first one that does not fit, each digit counts as a
power of ten. -/
def Digits.addWhole (d : Digits) : List Char → Digits
  | [] => d
  | c :: rest =>
    if d.significand * 10 + digitValue c < Text.offsetLimit then
      Digits.addWhole ⟨d.significand * 10 + digitValue c, d.exponent⟩ rest
    else ⟨d.significand, d.exponent + (rest.length + 1)⟩

/-- Collects digits after the point. From the first one that does not fit, all are dropped. -/
def Digits.addFraction (d : Digits) : List Char → Digits
  | [] => d
  | c :: rest =>
    if d.significand * 10 + digitValue c < Text.offsetLimit then
      Digits.addFraction ⟨d.significand * 10 + digitValue c, d.exponent - 1⟩ rest
    else d

/-- The digits of a literal. -/
def Digits.ofLiteral (l : Literal) : Digits :=
  let d := (Digits.mk 0 0).addWhole (Nat.toDigits 10 l.whole)
  let d := d.addFraction (l.fraction.getD [])
  ⟨d.significand, d.exponent + l.exponent.getD 0⟩

/-- The double that a literal is read as, unless it lies beyond the largest one. -/
def Binary64.ofLiteral? (l : Literal) : Option Binary64 := do
  let d := Digits.ofLiteral l
  let x ← shift? 4 (← ofRatio? d.significand 1) d.exponent
  return { x with negative := l.negative }

end BytecodeDebugger.Decimal
