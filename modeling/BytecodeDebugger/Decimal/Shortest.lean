import BytecodeDebugger.Decimal.Binary64

/-!
# Shortest decimal text of a double

A double is written with the fewest digits that still read back as the same double, and of the
numbers with that many digits with the nearest one. The reals that round to a double form an
interval around it; its ends belong to it when the significand is even. For one digit, two digits
and so on, the two neighbours of the double on the decimal grid are tried until one lies in the
interval.

Two layouts of the digits are in use, one for shown constants and one for JSON text.
-/

namespace BytecodeDebugger.Decimal

/-- How digits are laid out. -/
structure Layout where
  /-- A number is written without an exponent when its point lies right of this place. -/
  least : Int
  /-- A number is written without an exponent when its point lies at most at this place. -/
  greatest : Int
  /-- Whether a positive exponent has a sign. -/
  plus : Bool
  /-- Whether the upper one of two equally near numbers is taken, and not the even one. -/
  tieUp : Bool

/-- Shown constants: positional from 10 ^ -4 and below 10 ^ 16. -/
def Layout.shown : Layout := ⟨-4, 16, false, true⟩

/-- JSON text: positional from 10 ^ -5 and below 10 ^ 16. -/
def Layout.json : Layout := ⟨-5, 16, true, false⟩

namespace Binary64

/-- The number of zeros after the point that follow at once in `n / d`, for `n < d`, as far as
`steps` places. -/
def leadingZeros (d : Nat) : (steps : Nat) → (n : Nat) → Nat
  | 0, _ => 0
  | steps + 1, n => if d ≤ n * 10 then 0 else leadingZeros d steps (n * 10) + 1

/-- The place of the decimal point before the first digit: the least `k` with `n / d < 10 ^ k`, for
a positive quotient. -/
def pointPlace (n d : Nat) : Int :=
  if d ≤ n then (Nat.toDigits 10 (n / d)).length
  else -(leadingZeros d 400 n : Int)

/-- The whole number `c` for which `c * 10 ^ (point - count)` is the chosen number with `count`
digits, if one with that many digits reads back. Everything is measured in quarters of the last
place of the significand. -/
def candidate? (layout : Layout) (x : Binary64) (point : Int) (count : Nat) : Option Nat :=
  let m := x.significand
  let low := 4 * m - (if m = Nat.pow 2 52 ∧ 0 < x.scale then 1 else 2)
  let high := 4 * m + 2
  let up := Nat.pow 2 (x.scale - 1076)
  let down := Nat.pow 2 (1076 - x.scale)
  let e := point - count
  let p := Nat.pow 10 e.toNat
  let q := Nat.pow 10 (-e).toNat
  let grid := p * down
  let value := 4 * m * up * q
  let inside : Nat → Bool := fun c =>
    if m % 2 = 0 then low * up * q ≤ c * grid && c * grid ≤ high * up * q
    else low * up * q < c * grid && c * grid < high * up * q
  let below := value / grid
  let above := below + 1
  let r := value - below * grid
  match inside below, inside above with
  | true, true =>
    if 2 * r < grid then some below
    else if grid < 2 * r then some above
    else if layout.tieUp then some above
    else some (below + below % 2)
  | true, false => some below
  | false, true => some above
  | false, false => none

/-- The first number of digits from `count` on with which the double reads back, and the digits. -/
def search (layout : Layout) (x : Binary64) (point : Int) : (steps count : Nat) → Nat × Nat
  | 0, count => (0, count)
  | steps + 1, count =>
    match candidate? layout x point count with
    | some c => (c, count)
    | none => search layout x point steps (count + 1)

/-- The digits of the double without final zeros, and the place of the point before the first one.
-/
def shortest (layout : Layout) (x : Binary64) : List Char × Int :=
  let n := x.significand * Nat.pow 2 (x.scale - 1074)
  let d := Nat.pow 2 (1074 - x.scale)
  let point := pointPlace n d
  let (c, count) := search layout x point 17 1
  let ds := Nat.toDigits 10 c
  let point := point + ((ds.length : Int) - count)
  ((ds.reverse.dropWhile (· == '0')).reverse, point)

/-- The number whose decimal digits these are. -/
def ofDigits (ds : List Char) : Nat :=
  ds.foldl (fun n c => n * 10 + digitValue c) 0

/-- The literal of a double in the given layout. -/
def toLiteral (layout : Layout) (x : Binary64) : Literal :=
  if x.isZero then ⟨x.negative, 0, some ['0'], none⟩
  else
    let (ds, point) := x.shortest layout
    if layout.least < point ∧ point ≤ layout.greatest then
      if point ≤ 0 then
        ⟨x.negative, 0, some (List.replicate (-point).toNat '0' ++ ds), none⟩
      else
        let k := point.toNat
        if ds.length ≤ k then
          ⟨x.negative, ofDigits (ds ++ List.replicate (k - ds.length) '0'), some ['0'], none⟩
        else ⟨x.negative, ofDigits (ds.take k), some (ds.drop k), none⟩
    else
      match ds with
      | [] => ⟨x.negative, 0, none, some 0⟩
      | [c] => ⟨x.negative, digitValue c, none, some (point - 1)⟩
      | c :: rest => ⟨x.negative, digitValue c, some rest, some (point - 1)⟩

/-- The text of a double in a shown constant. -/
def shown (x : Binary64) : String :=
  String.ofList ((x.toLiteral Layout.shown).chars Layout.shown.plus)

end Binary64

end BytecodeDebugger.Decimal
