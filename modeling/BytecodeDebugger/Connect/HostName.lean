import BytecodeDebugger.Connect.Address

/-!
# Names of hosts

A host is named by an address, by the short form of an address, or by a name that is looked up. The
short form of an address of four bytes is one to four numbers with dots between them: all but the
last one are bytes, and the last one fills the bytes that are left. A number is hexadecimal after
`0x`, octal after a zero, and decimal else. A name that is looked up is made of labels with dots
between them.

Main facts: `length_bytesOf` and `length_of_short?` (a short form stands for as many bytes as there
is room for).
-/

namespace BytecodeDebugger

namespace HostName

/-! ## Short forms -/

/-- Whether a number is hexadecimal. -/
def isHexadecimal : List Char → Bool
  | '0' :: x :: d :: _ => (x == 'x' || x == 'X') && (IpAddress.digit? 16 d).isSome
  | _ => false

/-- A number of any length in a radix, and what follows it. -/
def numberIn? (radix : Nat) (cs : List Char) : Option (Nat × List Char) :=
  (IpAddress.number? radix cs.length cs).map fun r => (IpAddress.valueOf radix r.1, r.2)

/-- A number that tells its radix, and what follows it. -/
def number? (cs : List Char) : Option (Nat × List Char) :=
  if isHexadecimal cs then numberIn? 16 (cs.drop 2)
  else if cs.head? = some '0' then numberIn? 8 cs
  else numberIn? 10 cs

/-- The last `count` bytes of a number, the highest one first. -/
def bytesOf : (count : Nat) → Nat → List Nat
  | 0, _ => []
  | count + 1, n => n / Nat.pow 256 count % 256 :: bytesOf count n

/-- The bytes of a short form, with room for a number of them. -/
def short? : (room : Nat) → List Char → Option (List Nat)
  | 0, _ => none
  | room + 1, cs =>
    match number? cs with
    | some (n, []) => if n < Nat.pow 256 (room + 1) then some (bytesOf (room + 1) n) else none
    | some (n, '.' :: rest) => if n < 256 then (short? room rest).map (n :: ·) else none
    | _ => none

@[simp] theorem length_bytesOf (count n : Nat) : (bytesOf count n).length = count := by
  induction count with
  | zero => rfl
  | succ count ih => simp [bytesOf, ih]

/-- A short form stands for as many bytes as there is room for. -/
theorem length_of_short? {room : Nat} {cs : List Char} {bytes : List Nat}
    (h : short? room cs = some bytes) : bytes.length = room := by
  induction room generalizing cs bytes with
  | zero => simp [short?] at h
  | succ room ih =>
    unfold short? at h
    split at h
    · split at h
      · simp only [Option.some.injEq] at h
        simp [← h]
      · simp at h
    · split at h
      · obtain ⟨more, hm, rfl⟩ := Option.map_eq_some_iff.1 h
        simp [ih hm]
      · simp at h
    · simp at h

example : short? 4 "127.1".toList = some [127, 0, 0, 1] := by decide +kernel

/-! ## Names that are looked up -/

/-- The number of characters that a label may have. -/
def labelLimit : Nat := 63

/-- The number of characters that a name may have, a dot at its end not counted. -/
def nameLimit : Nat := 253

/-- Whether a character may stand in a label. -/
def isLabelChar (c : Char) : Bool := c.isAlphanum || c == '-' || c == '_'

/-- Whether a text is a label. -/
def isLabel (text : String) : Bool :=
  text ≠ "" && text.length ≤ labelLimit && text.toList.all isLabelChar

/-- Whether a name can be looked up. No hyphen starts it, and a dot may end it; a dot alone stands
for all names. -/
def isLookedUp (name : String) : Bool :=
  let cs := name.toList
  let stem := String.ofList (if cs.getLast? = some '.' then cs.dropLast else cs)
  name = "." ||
    (cs.head? ≠ some '-' && stem.length ≤ nameLimit && (stem.splitOn ".").all isLabel)

end HostName

end BytecodeDebugger
