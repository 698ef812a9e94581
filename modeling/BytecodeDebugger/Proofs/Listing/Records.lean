import BytecodeDebugger.Listing.Format
import BytecodeDebugger.Proofs.Code.Document
import BytecodeDebugger.Text.Lines
import Mathlib.Data.List.Forall2

/-!
# Records of instructions

As JSON Lines, an instruction is one line: no text of it can break the line, since a control is
never written as it is. Read by its keys, the line gives back what it was written for: the code
object's name, and the instruction with all its fields.

Main facts: `lines_join` (lines that are joined are split again),
`InstructionRecord.ofText?_compact` (a record is read back) and `forall₂_recordLines` (each
instruction of a disassembly has an intact record).
-/

namespace BytecodeDebugger

/-! ## Lines -/

namespace Text

/-- Characters without a line feed belong to the line under way. -/
theorem linesFrom_append {cs : List Char} (h : '\n' ∉ cs) (run rest : List Char) :
    linesFrom run (cs ++ rest) = linesFrom (cs.reverse ++ run) rest := by
  induction cs generalizing run with
  | nil => rfl
  | cons c cs ih =>
    obtain ⟨hc, hcs⟩ := not_or.1 (mt List.mem_cons.2 h)
    rw [List.cons_append, linesFrom, ih hcs, List.reverse_cons, List.append_assoc,
      List.singleton_append]
    exact fun heq => hc heq.symm

/-- A line that does not end in a carriage return is cut off at its line feed. -/
theorem linesFrom_line {cs : List Char} (h : '\n' ∉ cs) (hcr : '\r' ∉ cs) (rest : List Char) :
    linesFrom [] (cs ++ '\n' :: rest) = cs :: linesFrom [] rest := by
  have hclose : closeLine cs.reverse = cs := by
    unfold closeLine
    split
    · next run heq =>
      have hmem : '\r' ∈ cs.reverse := heq ▸ List.mem_cons_self
      exact absurd (List.mem_reverse.1 hmem) hcr
    · exact List.reverse_reverse cs
  rw [linesFrom_append h, List.append_nil, linesFrom, hclose]

/-- Lines without line ends in them are what their joined text is split into. -/
theorem lines_join {ls : List String} (h : ∀ l ∈ ls, '\n' ∉ l.toList ∧ '\r' ∉ l.toList) :
    lines (String.join (ls.map (· ++ "\n"))) = ls := by
  have hlines : linesFrom [] (ls.flatMap fun l => l.toList ++ ['\n']) = ls.map String.toList := by
    induction ls with
    | nil => rfl
    | cons l rest ih =>
      obtain ⟨⟨hlf, hcr⟩, hrest⟩ := List.forall_mem_cons.1 h
      rw [List.flatMap_cons, List.append_assoc, List.singleton_append, linesFrom_line hlf hcr,
        ih hrest]
      rfl
  simp [lines, String.toList_join, List.flatMap_map, hlines]

end Text

/-! ## Reading records -/

namespace Json

/-- A natural number of any size. -/
def count? : Json → Option Nat
  | .number l =>
    match l.integer? with
    | some (.ofNat n) => some n
    | _ => none
  | _ => none

/-- The value that an object has for a key, read in a way. A key that is not there, or there twice,
has none. -/
def get? {α : Type} (key : String) (read : Json → Option α) : Json → Option α
  | .object members =>
    match valuesOf key members with
    | [j] => read j
    | _ => none
  | _ => none

@[simp] theorem count?_nat (n : Nat) : (Json.nat n).count? = some n := by
  simp [count?, nat]

@[simp] theorem option?_count (value : Option Nat) :
    (Json.option Json.nat value).option? count? = some value :=
  option?_option (fun _ hnull => Json.noConfusion hnull) fun n _ => count?_nat n

/-- In an object with different keys, a key has the value it is given with. -/
theorem get?_object {α : Type} {members : List (String × Json)} (hkeys : (members.map (·.1)).Nodup)
    {key : String} {j : Json} (h : (key, j) ∈ members) (read : Json → Option α) :
    (Json.object members).get? key read = read j := by
  rw [get?, valuesOf_of_mem hkeys h]

end Json

/-- What the operand of an instruction refers to, read by its kind. -/
def ResolvedOperand.ofJson? (j : Json) : Option ResolvedOperand := do
  let kind ← j.get? "kind" Json.string?
  match kind with
  | "const" => (j.get? "value" Json.string?).map .constant
  | "name" => (j.get? "value" Json.string?).map .name
  | "local" => (j.get? "value" Json.string?).map .localVariable
  | "compare" => (j.get? "value" Json.string?).map .compare
  | "free" => (j.get? "value" Json.string?).map .free
  | "jump" => (j.get? "value" Json.count?).map .jump
  | _ => none

/-- What an operand refers to is read back. -/
@[simp] theorem ResolvedOperand.ofJson?_toJson (o : ResolvedOperand) :
    ofJson? o.toJson = some o := by
  cases o with
  | jump offset =>
    show (Json.nat offset).count?.map ResolvedOperand.jump = _
    rw [Json.count?_nat, Option.map_some]
  | constant _ | name _ | localVariable _ | compare _ | free _ => rfl

/-- What a record says. -/
structure InstructionRecord where
  type : String
  /-- The name of the code object. -/
  code : String
  instruction : Instruction
  deriving DecidableEq, Repr

namespace InstructionRecord

/-- The record of a document, each part read by its key. -/
def ofJson? (j : Json) : Option InstructionRecord := do
  return {
    type := ← j.get? "type" Json.string?
    code := ← j.get? "code" Json.string?
    instruction := {
      offset := ← j.get? "offset" Json.count?
      size := ← j.get? "size" Json.count?
      opcode := ← j.get? "opcode" byte?
      name := ← j.get? "name" Json.string?
      operandValue := ← j.get? "operand_value" (Json.option? Json.count?)
      resolvedOperand := ← j.get? "resolved_operand" (Json.option? ResolvedOperand.ofJson?)
      lineNumber := ← j.get? "line_number" (Json.option? Json.count?)
      startsLine := ← j.get? "starts_line" Json.bool?
      isJumpTarget := ← j.get? "is_jump_target" Json.bool?
      isCurrent := ← j.get? "is_current" Json.bool? } }

/-- The record that a line holds. -/
def ofText? (line : String) : Option InstructionRecord := (Json.parse? line).bind ofJson?

/-- The text is one line, and it says all about an instruction of a code object with a name. -/
def IsIntact (name line : String) (i : Instruction) : Prop :=
  '\n' ∉ line.toList ∧ ofText? line = some ⟨"instruction", name, i⟩

/-- The members of the record of an instruction, the two that are added at the end. -/
def members (name : String) (i : Instruction) : List (String × Json) :=
  i.members ++ [("type", .string "instruction"), ("code", .string name)]

/-- The keys of a record: the two that are added are none of the fields. -/
theorem nodup_keys (name : String) (i : Instruction) : ((members name i).map (·.1)).Nodup := by
  have hkeys : (members name i).map (·.1) =
      ["offset", "size", "opcode", "name", "operand_value", "resolved_operand", "line_number",
        "starts_line", "is_jump_target", "is_current", "type", "code"] := rfl
  rw [hkeys]
  decide

/-- In the record of an instruction, each key has its value. -/
theorem get?_instructionRecord {α : Type} {name : String} {i : Instruction} {m : String × Json}
    (h : m ∈ members name i) (read : Json → Option α) :
    (instructionRecord name i).get? m.1 read = read m.2 :=
  Json.get?_object (NameMap.nodup_names _)
    ((NameMap.mem_toList_ofList_iff (nodup_keys name i)).2 h) read

/-- The record of an instruction is read back. -/
theorem ofJson?_instructionRecord (name : String) (i : Instruction) :
    ofJson? (instructionRecord name i) = some ⟨"instruction", name, i⟩ := by
  -- what an operand refers to is a record of its own, so it is never taken for an absent one
  have hoperand : (Json.option ResolvedOperand.toJson i.resolvedOperand).option?
      ResolvedOperand.ofJson? = some i.resolvedOperand :=
    Json.option?_option (fun o hnull => by cases o <;> cases hnull)
      fun o _ => o.ofJson?_toJson
  have hget : ∀ m ∈ members name i, ∀ {α : Type} (read : Json → Option α),
      (instructionRecord name i).get? m.1 read = read m.2 := fun _ hm => get?_instructionRecord hm
  simp only [members, Instruction.members, List.cons_append, List.nil_append,
    List.forall_mem_cons] at hget
  obtain ⟨hoffset, hsize, hopcode, hname, hvalue, hresolved, hline, hstarts, htarget, hcurrent,
    htype, hcode, -⟩ := hget
  simp [ofJson?, hoffset, hsize, hopcode, hname, hvalue, hresolved, hline, hstarts, htarget,
    hcurrent, htype, hcode, hoperand, Json.string?, Json.bool?]

/-- The record of an instruction is plain. -/
theorem isPlain_instructionRecord (name : String) (i : Instruction) :
    (instructionRecord name i).IsPlain := by
  have hmembers : ∀ m ∈ members name i, m.2.IsPlain := by
    have hoperand : ∀ o ∈ i.resolvedOperand, o.toJson.IsPlain := by
      rintro (_ | _ | _ | _ | _ | _) - <;> simp [ResolvedOperand.toJson]
    simpa [members, Instruction.members] using hoperand
  exact .object fun m hm => hmembers m ((NameMap.mem_toList_ofList_iff (nodup_keys name i)).1 hm)

/-- The line of an instruction is read back. -/
theorem ofText?_compact (name : String) (i : Instruction) :
    ofText? (instructionRecord name i).compact = some ⟨"instruction", name, i⟩ := by
  rw [ofText?, (isPlain_instructionRecord name i).parse?_compact, Option.bind_some,
    ofJson?_instructionRecord]

theorem not_mem_compact (name : String) (i : Instruction) :
    '\n' ∉ (instructionRecord name i).compact.toList ∧
      '\r' ∉ (instructionRecord name i).compact.toList :=
  have hplain := isPlain_instructionRecord name i
  ⟨hplain.not_mem_compact (by decide), hplain.not_mem_compact (by decide)⟩

end InstructionRecord

/-! ## The lines of a disassembly -/

section lines

variable {d : Disassembly} {p : ListingPolicy} {is : List Instruction}

theorem not_mem_recordLines (d : Disassembly) (is : List Instruction) :
    ∀ l ∈ recordLines d is, '\n' ∉ l.toList ∧ '\r' ∉ l.toList :=
  List.forall_mem_map.2 fun i _ => InstructionRecord.not_mem_compact d.code.name i

/-- A disassembly as JSON Lines is its records, each with a line feed behind it. -/
theorem formatDisassembly_jsonLines (h : selectedInstructions d p = .ok is) :
    formatDisassembly .jsonLines d p =
      .ok (String.join ((recordLines d is).map (· ++ "\n"))) := by
  rw [formatDisassembly, h]
  rfl

/-- Each instruction has an intact record, in the order of the instructions. -/
theorem forall₂_recordLines (d : Disassembly) (is : List Instruction) :
    List.Forall₂ (InstructionRecord.IsIntact d.code.name) (recordLines d is) is := by
  have hintact : ∀ i, InstructionRecord.IsIntact d.code.name
      (instructionRecord d.code.name i).compact i := fun i =>
    ⟨(InstructionRecord.not_mem_compact d.code.name i).1,
      InstructionRecord.ofText?_compact d.code.name i⟩
  exact List.forall₂_map_left_iff.2 (List.forall₂_same.2 fun i _ => hintact i)

end lines

end BytecodeDebugger
