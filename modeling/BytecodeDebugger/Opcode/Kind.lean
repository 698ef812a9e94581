/-!
# Operand kinds and instruction formats

What the operand of an instruction means, and how many bytes an instruction takes in the stream.

Main facts: `instructionSize_pos` (every instruction takes a byte) and `instructionSize_wordcode`
(all instructions of the word format take two).
-/

namespace BytecodeDebugger

/-- What an operand means. -/
inductive OperandKind where
  /-- No operand follows the opcode. -/
  | none
  /-- A number that stands for itself. -/
  | immediate
  | constIndex
  | nameIndex
  | localIndex
  /-- A distance from the next instruction. -/
  | jumpRelative
  /-- An offset in the stream. -/
  | jumpAbsolute
  | compareIndex
  /-- An index into the cell variables followed by the free variables. -/
  | freeIndex
  deriving DecidableEq, Repr

namespace OperandKind

/-- The kinds. -/
def all : List OperandKind :=
  [.none, .immediate, .constIndex, .nameIndex, .localIndex, .jumpRelative, .jumpAbsolute,
    .compareIndex, .freeIndex]

/-- Whether an operand follows the opcode. -/
def hasOperand (k : OperandKind) : Bool := k != .none

/-- Whether the operand names an instruction. -/
def isJump (k : OperandKind) : Bool := k == .jumpRelative || k == .jumpAbsolute

/-- The name in table descriptions. -/
def key : OperandKind → String
  | .none => "none"
  | .immediate => "immediate"
  | .constIndex => "const_index"
  | .nameIndex => "name_index"
  | .localIndex => "local_index"
  | .jumpRelative => "jump_relative"
  | .jumpAbsolute => "jump_absolute"
  | .compareIndex => "compare_index"
  | .freeIndex => "free_index"

/-- The name in messages. -/
def shown : OperandKind → String
  | .none => "none"
  | .immediate => "immediate"
  | .constIndex => "constant"
  | .nameIndex => "name"
  | .localIndex => "local"
  | .jumpRelative => "relative jump"
  | .jumpAbsolute => "absolute jump"
  | .compareIndex => "compare operator"
  | .freeIndex => "free variable"

/-- The kind of a name in table descriptions. -/
def ofKey? (key : String) : Option OperandKind := all.find? fun k => k.key == key

/-- A kind is known by its name. -/
@[simp] theorem ofKey?_key (k : OperandKind) : ofKey? k.key = some k := by
  cases k <;> decide

end OperandKind

/-- How instructions are laid out in the stream. -/
inductive InstructionFormat where
  /-- One opcode byte, and the operand in so many bytes, lowest first, if the opcode takes one. -/
  | variable (operandWidth : Nat)
  /-- One opcode byte and one operand byte, whether the opcode takes one or not. -/
  | wordcode
  deriving DecidableEq, Repr

namespace InstructionFormat

/-- The bytes of an operand. -/
def operandWidth : InstructionFormat → Nat
  | .variable w => w
  | .wordcode => 1

/-- The bytes of an instruction. -/
def instructionSize (f : InstructionFormat) (k : OperandKind) : Nat :=
  match f with
  | .variable w => if k.hasOperand then 1 + w else 1
  | .wordcode => 2

/-- What an operand held back for the next instruction is multiplied with: a one, shifted by the
width of an operand in a word of 64 bits, where shifts count modulo 64. -/
def extendMultiplier (f : InstructionFormat) : Nat := Nat.pow 2 (8 * f.operandWidth % 64)

/-- Every instruction takes a byte. -/
theorem instructionSize_pos (f : InstructionFormat) (k : OperandKind) :
    0 < f.instructionSize k := by
  unfold instructionSize
  split
  · split <;> omega
  · omega

/-- An instruction with an operand takes a byte more than the operand. -/
theorem instructionSize_of_hasOperand (f : InstructionFormat) {k : OperandKind}
    (h : k.hasOperand = true) : f.instructionSize k = 1 + f.operandWidth := by
  cases f <;> simp [instructionSize, operandWidth, h]

@[simp] theorem instructionSize_wordcode (k : OperandKind) :
    InstructionFormat.wordcode.instructionSize k = 2 := rfl

end InstructionFormat

end BytecodeDebugger
