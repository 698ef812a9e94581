import BytecodeDebugger.Code.Object
import BytecodeDebugger.Decode.Step

/-!
# Operands

What an operand refers to: an entry of one of the tables of a code object, or an instruction that is
jumped to. An index beyond the end of its table is an error, and so is a jump beyond 64 bits.

Main fact: `resolveOperand_eq_none_iff` (only operands that stand for themselves refer to nothing).
-/

namespace BytecodeDebugger

open Text (offsetLimit)

/-- What an operand refers to. -/
inductive ResolvedOperand where
  /-- A constant, as shown. -/
  | constant (text : String)
  | name (text : String)
  | localVariable (text : String)
  | compare (text : String)
  | free (text : String)
  /-- The offset of an instruction. -/
  | jump (offset : Nat)
  deriving DecidableEq, Repr

namespace ResolvedOperand

/-- How a reference is shown without highlighting. -/
def shown : ResolvedOperand → String
  | .constant t | .name t | .localVariable t | .compare t | .free t => "(" ++ t ++ ")"
  | .jump o => "(to " ++ toString o ++ ")"

end ResolvedOperand

/-- The offset a jump leads to, from an instruction followed by the one at `next`. -/
def jumpTarget? (kind : OperandKind) (value next : Nat) : Option Nat :=
  match kind with
  | .jumpRelative => if next + value < offsetLimit then some (next + value) else none
  | _ => some value

/-- The entry of a table at an index. -/
def pickOperand (items : List String) (kind : OperandKind) (value offset : Nat) :
    Except DecodeError String :=
  match items[value]? with
  | some text => .ok text
  | none => .error (.operandOutOfRange offset kind value items.length)

/-- What the operand of a step refers to, if its kind refers to anything. -/
def resolveOperand (code : CodeObject) (table : OpcodeTable) (kind : OperandKind)
    (value offset next : Nat) : Except DecodeError (Option ResolvedOperand) :=
  match kind with
  | .none | .immediate => .ok none
  | .constIndex =>
    (pickOperand (code.consts.map Constant.shown) kind value offset).map (some ∘ .constant)
  | .nameIndex => (pickOperand code.names kind value offset).map (some ∘ .name)
  | .localIndex => (pickOperand code.varnames kind value offset).map (some ∘ .localVariable)
  | .compareIndex => (pickOperand table.compareOps kind value offset).map (some ∘ .compare)
  | .freeIndex => (pickOperand code.captured kind value offset).map (some ∘ .free)
  | .jumpRelative | .jumpAbsolute =>
    match jumpTarget? kind value next with
    | some target => .ok (some (.jump target))
    | none => .error (.operandOverflow offset)

/-- Only operands that stand for themselves refer to nothing. -/
theorem resolveOperand_eq_none_iff {code : CodeObject} {table : OpcodeTable} {kind : OperandKind}
    {value offset next : Nat} :
    resolveOperand code table kind value offset next = .ok none ↔
      kind = .none ∨ kind = .immediate := by
  have key : ∀ (items : List String) (k : OperandKind) (f : String → ResolvedOperand),
      (pickOperand items k value offset).map (some ∘ f) ≠ .ok none := by
    intro items k f h
    unfold pickOperand at h
    split at h <;> simp [Except.map] at h
  cases kind <;> simp [resolveOperand, key]
  · split <;> simp
  · split <;> simp

end BytecodeDebugger
