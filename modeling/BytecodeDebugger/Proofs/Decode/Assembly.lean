import BytecodeDebugger.Decode.Instruction
import Mathlib.Algebra.Group.Nat.Defs
import Mathlib.Tactic.Common

/-!
# Assembling a stream

An operation is an opcode with its operand, if it takes one. The operand is written in digits whose
base is the multiplier of the format: the last digit stands behind the opcode, and the digits before
it stand behind prefixes, the most significant one first. There may be more prefixes than the
operand needs, and their digits are zero then. A program is assembled by writing its operations one
behind the other.

Main facts: `extendMultiplier_eq` (the multiplier is the number of values of an operand) and
`littleEndian_digitBytes` (a digit is spelled by its bytes).
-/

namespace BytecodeDebugger

open Text (offsetLimit)

/-! ## Operands as bytes -/

/-- The lowest bytes of a number, the lowest one first. -/
def littleEndianBytes : (count : Nat) → Nat → List UInt8
  | 0, _ => []
  | count + 1, n => UInt8.ofNat n :: littleEndianBytes count (n / 256)

@[simp] theorem length_littleEndianBytes (count n : Nat) :
    (littleEndianBytes count n).length = count := by
  induction count generalizing n with
  | zero => rfl
  | succ count ih => rw [littleEndianBytes, List.length_cons, ih]

/-- A number is spelled by its lowest bytes if it has no others. -/
theorem littleEndian_littleEndianBytes {count n : Nat} (h : n < 256 ^ count) :
    littleEndian (littleEndianBytes count n) = n := by
  induction count generalizing n with
  | zero =>
    have hn : n = 0 := by simpa using h
    rw [hn]
    rfl
  | succ count ih =>
    have hdiv : n / 256 < 256 ^ count := by
      rw [Nat.div_lt_iff_lt_mul (by decide), ← Nat.pow_succ]
      exact h
    rw [littleEndianBytes, littleEndian, ih hdiv, UInt8.toNat_ofNat']
    exact Nat.mod_add_div n 256

namespace OpcodeTable

/-- The multiplier of a table is the number of values of an operand. -/
theorem extendMultiplier_eq (t : OpcodeTable) :
    t.format.extendMultiplier = 256 ^ t.format.operandWidth := by
  have hle := t.width_le
  have hmod : 8 * t.format.operandWidth % 64 = 8 * t.format.operandWidth :=
    Nat.mod_eq_of_lt (by omega)
  rw [InstructionFormat.extendMultiplier, hmod]
  exact Nat.pow_mul 2 8 _

theorem extendMultiplier_pos (t : OpcodeTable) : 0 < t.format.extendMultiplier :=
  Nat.two_pow_pos _

/-- The bytes of a digit of an operand. -/
def digitBytes (t : OpcodeTable) (digit : Nat) : List UInt8 :=
  littleEndianBytes t.format.operandWidth (digit % t.format.extendMultiplier)

@[simp] theorem length_digitBytes (t : OpcodeTable) (digit : Nat) :
    (t.digitBytes digit).length = t.format.operandWidth := length_littleEndianBytes _ _

/-- The bytes of a digit spell it. -/
theorem littleEndian_digitBytes (t : OpcodeTable) (digit : Nat) :
    littleEndian (t.digitBytes digit) = digit % t.format.extendMultiplier := by
  apply littleEndian_littleEndianBytes
  rw [← extendMultiplier_eq]
  exact Nat.mod_lt _ t.extendMultiplier_pos

/-- So many prefixes with the digits of a value above its last one, the most significant one
first. -/
def prefixBytes (t : OpcodeTable) (value : Nat) : (prefixes : Nat) → List UInt8
  | 0 => []
  | prefixes + 1 =>
    t.extendedArg :: t.digitBytes (value / t.format.extendMultiplier ^ (prefixes + 1)) ++
      prefixBytes t value prefixes

/-- A prefix takes a byte more than an operand. -/
theorem length_prefixBytes (t : OpcodeTable) (value prefixes : Nat) :
    (t.prefixBytes value prefixes).length = prefixes * (1 + t.format.operandWidth) := by
  induction prefixes with
  | zero => rw [prefixBytes, List.length_nil, Nat.zero_mul]
  | succ prefixes ih =>
    rw [prefixBytes, List.length_append, List.length_cons, length_digitBytes, ih, Nat.succ_mul]
    omega

end OpcodeTable

/-! ## Operations -/

/-- What is assembled with a table. Only operations that can be written with it can be formed. -/
inductive Operation (t : OpcodeTable) where
  /-- An opcode without an operand. Where all units have the same size, a byte fills it up. -/
  | plain (opcode filler : UInt8) (noOperand : (t.kind opcode).hasOperand = false)
  /-- An opcode with an operand, which is written with so many prefixes. -/
  | operand (opcode : UInt8) (value prefixes : Nat)
      (hasOperand : (t.kind opcode).hasOperand = true) (ne_extendedArg : opcode ≠ t.extendedArg)
      (value_lt : value < offsetLimit)
      (value_lt_pow : value < t.format.extendMultiplier ^ (prefixes + 1))

namespace Operation

variable {t : OpcodeTable}

/-- The opcode of an operation. -/
def opcode : Operation t → UInt8
  | .plain opcode _ _ => opcode
  | .operand opcode _ _ _ _ _ _ => opcode

/-- The operand of an operation, if its opcode takes one. -/
def value? : Operation t → Option Nat
  | .plain _ _ _ => none
  | .operand _ value _ _ _ _ _ => some value

/-- The byte behind an opcode without an operand, if the format has one. -/
def fillerBytes (format : InstructionFormat) (filler : UInt8) : List UInt8 :=
  match format with
  | .variable _ => []
  | .wordcode => [filler]

/-- The bytes of an operation. -/
def bytes : Operation t → List UInt8
  | .plain opcode filler _ => opcode :: fillerBytes t.format filler
  | .operand opcode value prefixes _ _ _ _ =>
    t.prefixBytes value prefixes ++ opcode :: t.digitBytes value

end Operation

/-- The stream of a program. -/
def assemble {t : OpcodeTable} (program : List (Operation t)) : List UInt8 :=
  program.flatMap Operation.bytes

/-- Where an instruction stands, and what it holds. -/
structure Placement where
  offset : Nat
  size : Nat
  opcode : UInt8
  operandValue : Option Nat
  deriving DecidableEq, Repr

/-- Where a decoded instruction stands, and what it holds. -/
def Instruction.placement (i : Instruction) : Placement :=
  ⟨i.offset, i.size, i.opcode, i.operandValue⟩

/-- Where the operations of a program stand: each one behind the bytes of those before it. -/
def placementsFrom {t : OpcodeTable} (pos : Nat) : List (Operation t) → List Placement
  | [] => []
  | op :: rest =>
    ⟨pos, op.bytes.length, op.opcode, op.value?⟩ :: placementsFrom (pos + op.bytes.length) rest

end BytecodeDebugger
