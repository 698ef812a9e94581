/-!
# Decimal literals

A number as it is written: a sign, the digits before the point, the digits after it, and a power of
ten. Whether there is a point or an exponent belongs to the literal, because `1`, `1.0` and `1e0`
are read differently although they stand for the same number.

Main fact: `integer?_ofInt` (a whole number reads back from its literal).
-/

namespace BytecodeDebugger.Decimal

/-- A decimal number as written. -/
structure Literal where
  negative : Bool
  /-- The digits before the point; there are no leading zeros, so their value says all. -/
  whole : Nat
  /-- The digits after the point, if there is a point. -/
  fraction : Option (List Char)
  /-- The power of ten, if one is written. -/
  exponent : Option Int
  deriving DecidableEq, Repr

/-- The literal of a whole number. -/
def Literal.ofInt (n : Int) : Literal :=
  ⟨n < 0, n.natAbs, none, none⟩

/-- The whole number that the literal is, without a point, an exponent or a signed zero. -/
def Literal.integer? (l : Literal) : Option Int :=
  match l.fraction, l.exponent with
  | none, none =>
    if l.negative then if l.whole = 0 then none else some (-(l.whole : Int))
    else some l.whole
  | _, _ => none

/-- The digits of an exponent with its sign; `plus` tells whether a positive one has a sign too. -/
def exponentText (plus : Bool) (e : Int) : List Char :=
  if e < 0 then '-' :: Nat.toDigits 10 e.natAbs
  else if plus then '+' :: Nat.toDigits 10 e.natAbs
  else Nat.toDigits 10 e.natAbs

/-- The characters of a literal; `plus` tells whether a positive exponent has a sign. -/
def Literal.chars (plus : Bool) (l : Literal) : List Char :=
  (if l.negative then ['-'] else []) ++ Nat.toDigits 10 l.whole ++
    (match l.fraction with
      | none => []
      | some ds => '.' :: ds) ++
    (match l.exponent with
      | none => []
      | some e => 'e' :: exponentText plus e)

/-- A whole number reads back from its literal. -/
@[simp] theorem integer?_ofInt (n : Int) : (Literal.ofInt n).integer? = some n := by
  unfold Literal.ofInt Literal.integer?
  by_cases h : n < 0
  · have h0 : n.natAbs ≠ 0 := by omega
    have hn : -(n.natAbs : Int) = n := by omega
    simp only [h, decide_true, if_true, h0, if_false, hn]
  · have hn : (n.natAbs : Int) = n := by omega
    simp only [h, decide_false, Bool.false_eq_true, if_false, hn]

end BytecodeDebugger.Decimal
