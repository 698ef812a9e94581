import BytecodeDebugger.Opcode.Kind

/-!
# Opcode tables

An opcode table names the opcodes of one runtime, tells what their operands mean and how
instructions are laid out. It is built from a description, and only from one that makes sense: each
opcode is described once, operands have one to four bytes, and the opcode that widens the next
operand takes an operand itself. An opcode that the table does not describe is allowed in a stream;
it takes no operand.

Main facts: `mem_insertDescriptor` (an insertion adds one descriptor), `pairwise_insertDescriptors`
(the order is kept) and `hasOperand_kind_extendedArg` (the widening opcode takes an operand).
-/

namespace BytecodeDebugger

/-- The name of an opcode and what its operand means. -/
structure OperandDescriptor where
  code : UInt8
  name : String
  kind : OperandKind
  deriving DecidableEq, Repr

/-- The description of an opcode table. -/
structure TableDefinition where
  version : String
  format : InstructionFormat
  /-- The opcode that widens the operand of the instruction after it. -/
  extendedArg : UInt8
  compareOps : List String
  opcodes : List OperandDescriptor
  deriving DecidableEq, Repr

/-- Why a description makes no table. -/
inductive TableError where
  /-- The text is no description. -/
  | malformed
  /-- An opcode is described twice. -/
  | duplicateCode (code : UInt8)
  /-- The widening opcode has no operand. -/
  | badExtendedArg (code : UInt8)
  /-- The operands have no byte, or more than four. -/
  | badOperandWidth (width : Nat)
  deriving DecidableEq, Repr

/-- The wording of the reason. -/
def TableError.message : TableError → String
  | .malformed => "invalid opcode table JSON"
  | .duplicateCode c => "opcode " ++ toString c.toNat ++ " is described twice"
  | .badExtendedArg c =>
    "extended-argument opcode " ++ toString c.toNat ++
      " must be mapped to an operand-carrying descriptor"
  | .badOperandWidth w => "operand width " ++ toString w ++ " is not supported (1 to 4 bytes)"

/-! ## Descriptors in ascending order -/

/-- The descriptors with one more, unless its opcode is described already. -/
def insertDescriptor (d : OperandDescriptor) :
    List OperandDescriptor → Except TableError (List OperandDescriptor)
  | [] => .ok [d]
  | e :: rest =>
    if d.code = e.code then .error (.duplicateCode d.code)
    else if d.code < e.code then .ok (d :: e :: rest)
    else
      match insertDescriptor d rest with
      | .error err => .error err
      | .ok rest => .ok (e :: rest)

/-- The descriptors with further ones; the first repetition in their order is reported. -/
def insertDescriptors (sorted : List OperandDescriptor) :
    List OperandDescriptor → Except TableError (List OperandDescriptor)
  | [] => .ok sorted
  | d :: rest =>
    match insertDescriptor d sorted with
    | .error err => .error err
    | .ok sorted => insertDescriptors sorted rest

/-- A descriptor of the new list is the new one or one of the old ones. -/
theorem mem_insertDescriptor {d e : OperandDescriptor} {ds out : List OperandDescriptor}
    (h : insertDescriptor d ds = .ok out) : e ∈ out ↔ e = d ∨ e ∈ ds := by
  induction ds generalizing out with
  | nil => simp [insertDescriptor] at h; subst h; simp
  | cons a rest ih =>
    simp only [insertDescriptor] at h
    split at h
    · simp at h
    · split at h
      · cases h; simp
      · split at h
        · simp at h
        · next r hr =>
          cases h
          simp only [List.mem_cons, ih hr]
          grind

/-- Inserting keeps the descriptors in ascending order. -/
theorem pairwise_insertDescriptor {d : OperandDescriptor} {ds out : List OperandDescriptor}
    (hs : ds.Pairwise (·.code < ·.code)) (h : insertDescriptor d ds = .ok out) :
    out.Pairwise (·.code < ·.code) := by
  induction ds generalizing out with
  | nil => simp [insertDescriptor] at h; subst h; simp
  | cons a rest ih =>
    rw [List.pairwise_cons] at hs
    simp only [insertDescriptor] at h
    split at h
    · simp at h
    · next hne =>
      split at h
      · next hlt =>
        cases h
        rw [List.pairwise_cons]
        refine ⟨fun b hb => ?_, List.pairwise_cons.2 hs⟩
        rcases List.mem_cons.1 hb with rfl | hb
        · exact hlt
        · have := hs.1 b hb
          rw [UInt8.lt_iff_toNat_lt] at *
          omega
      · next hge =>
        split at h
        · simp at h
        · next r hr =>
          cases h
          rw [List.pairwise_cons]
          refine ⟨fun b hb => ?_, ih hs.2 hr⟩
          rcases (mem_insertDescriptor hr).1 hb with rfl | hb
          · have hne' : b.code.toNat ≠ a.code.toNat := fun heq => hne (UInt8.toNat_inj.1 heq)
            rw [UInt8.lt_iff_toNat_lt] at *
            omega
          · exact hs.1 b hb

/-- Inserting several keeps the descriptors in ascending order. -/
theorem pairwise_insertDescriptors {ds sorted out : List OperandDescriptor}
    (hs : sorted.Pairwise (·.code < ·.code)) (h : insertDescriptors sorted ds = .ok out) :
    out.Pairwise (·.code < ·.code) := by
  induction ds generalizing sorted with
  | nil => simp [insertDescriptors] at h; exact h ▸ hs
  | cons d rest ih =>
    simp only [insertDescriptors] at h
    split at h
    · simp at h
    · next s hr => exact ih (pairwise_insertDescriptor hs hr) h

/-! ## Tables -/

/-- What the opcodes of one runtime are called and what their operands mean. -/
structure OpcodeTable where
  version : String
  format : InstructionFormat
  /-- The opcode that widens the operand of the instruction after it. -/
  extendedArg : UInt8
  compareOps : List String
  /-- The described opcodes, in ascending order. -/
  opcodes : List OperandDescriptor
  sorted : opcodes.Pairwise (·.code < ·.code)
  width_pos : 1 ≤ format.operandWidth
  width_le : format.operandWidth ≤ 4
  extendedArg_operand :
    ∃ d, opcodes.find? (fun d => d.code == extendedArg) = some d ∧ d.kind.hasOperand = true
  deriving DecidableEq

namespace OpcodeTable

/-- The table of a description. The width is checked first, then the opcodes in their order, then
the widening opcode. -/
def ofDefinition (d : TableDefinition) : Except TableError OpcodeTable :=
  if hw : 1 ≤ d.format.operandWidth ∧ d.format.operandWidth ≤ 4 then
    match hs : insertDescriptors [] d.opcodes with
    | .error e => .error e
    | .ok sorted =>
      match he : sorted.find? (fun e => e.code == d.extendedArg) with
      | none => .error (.badExtendedArg d.extendedArg)
      | some e =>
        if hk : e.kind.hasOperand = true then
          .ok
            { version := d.version
              format := d.format
              extendedArg := d.extendedArg
              compareOps := d.compareOps
              opcodes := sorted
              sorted := pairwise_insertDescriptors .nil hs
              width_pos := hw.1
              width_le := hw.2
              extendedArg_operand := ⟨e, he, hk⟩ }
        else .error (.badExtendedArg d.extendedArg)
  else .error (.badOperandWidth d.format.operandWidth)

/-- The description of a table. -/
def toDefinition (t : OpcodeTable) : TableDefinition :=
  ⟨t.version, t.format, t.extendedArg, t.compareOps, t.opcodes⟩

/-- The descriptor of an opcode, if there is one. -/
def get? (t : OpcodeTable) (code : UInt8) : Option OperandDescriptor :=
  t.opcodes.find? fun d => d.code == code

/-- What the operand of an opcode means. -/
def kind (t : OpcodeTable) (code : UInt8) : OperandKind :=
  match t.get? code with
  | none => .none
  | some d => d.kind

/-- The name of an opcode; one that is not described is shown by its number. -/
def name (t : OpcodeTable) (code : UInt8) : String :=
  match t.get? code with
  | none => "<" ++ toString code.toNat ++ ">"
  | some d => d.name

/-- The first opcode of a name. -/
def codeOf? (t : OpcodeTable) (name : String) : Option UInt8 :=
  (t.opcodes.find? fun d => d.name == name).map (·.code)

/-- The number of described opcodes. -/
def size (t : OpcodeTable) : Nat := t.opcodes.length

/-- The widening opcode takes an operand. -/
@[simp] theorem hasOperand_kind_extendedArg (t : OpcodeTable) :
    (t.kind t.extendedArg).hasOperand = true := by
  obtain ⟨d, hd, hk⟩ := t.extendedArg_operand
  simp [kind, get?, hd, hk]

end OpcodeTable

end BytecodeDebugger
