import BytecodeDebugger.Opcode.Builtin
import BytecodeDebugger.Proofs.Decode.Assembly
import BytecodeDebugger.Proofs.Decode.Coverage

/-!
# Decoding undoes assembling

What the prefixes of an operation hold back is always the part of its operand read so far, moved up
by one digit. So the operand is whole when the opcode of the operation is reached, however many
prefixes were written, and nothing is held back for the next operation.

Main facts: `read_prefixBytes` (an operand is read digit by digit), `readAll_assemble` (steps) and
`instructions_assemble` (instructions).
-/

namespace BytecodeDebugger

open Text (offsetLimit)

namespace Step

variable {t : OpcodeTable} (lines : LineTable)

/-- An operand is read digit by digit. If what is held back is the part of the operand above the
digits to come, then the step ends behind the last digit, with the operand as a whole. -/
theorem read_prefixBytes (start pos : Nat) (line : Option Nat) {opcodeOffset value prefixes : Nat}
    {opcode first : UInt8} {more rest : List UInt8}
    (hk : (t.kind opcode).hasOperand = true) (hne : opcode ≠ t.extendedArg)
    (hv : value < offsetLimit)
    (hoffset : opcodeOffset = pos + prefixes * (1 + t.format.operandWidth))
    (hbytes : t.prefixBytes value prefixes ++ opcode :: (t.digitBytes value ++ rest) =
      first :: more) :
    ∃ line', read t lines start pos
        (value / t.format.extendMultiplier ^ (prefixes + 1) * t.format.extendMultiplier) line first
        more =
      .ok ⟨start, opcodeOffset + (1 + t.format.operandWidth), opcode, some value, line'⟩ := by
  generalize hm : t.format.extendMultiplier = m
  have hpart : ∀ k, value / m ^ k % m + value / m ^ (k + 1) * m = value / m ^ k := by
    intro k
    rw [Nat.pow_succ, ← Nat.div_div_eq_div_mul, Nat.mul_comm]
    exact Nat.mod_add_div _ _
  have hunit : ∀ digit, littleEndian (t.digitBytes digit) = digit % m := by
    intro digit
    rw [t.littleEndian_digitBytes, hm]
  -- the induction is on the prefixes to come, with what is held back as its invariant
  induction prefixes generalizing pos line first more with
  | zero =>
    obtain ⟨rfl, rfl⟩ := List.cons.inj hbytes
    have hwhole : littleEndian (t.digitBytes value) + value / m ^ (0 + 1) * m = value := by
      have := hpart 0
      rw [Nat.pow_zero, Nat.div_one] at this
      rw [hunit, this]
    refine ⟨(lines.lineStart? pos).or line, ?_⟩
    rw [read_of_operand hk hne (t.length_digitBytes value) (by rw [hwhole]; exact hv), hwhole,
      hoffset, Nat.zero_mul, Nat.add_zero]
  | succ prefixes ih =>
    obtain ⟨next, after, hnext⟩ : ∃ next after,
        t.prefixBytes value prefixes ++ opcode :: (t.digitBytes value ++ rest) = next :: after := by
      cases t.prefixBytes value prefixes with
      | nil => exact ⟨_, _, rfl⟩
      | cons b bs => exact ⟨_, _, rfl⟩
    rw [OpcodeTable.prefixBytes, List.append_assoc, hnext, List.cons_append] at hbytes
    obtain ⟨rfl, rfl⟩ := List.cons.inj hbytes
    -- the part of the operand read so far, this digit included
    have hread : littleEndian (t.digitBytes (value / t.format.extendMultiplier ^ (prefixes + 1))) +
        value / m ^ (prefixes + 1 + 1) * m = value / m ^ (prefixes + 1) := by
      rw [hunit, hm, hpart]
    have hle : value / m ^ (prefixes + 1) ≤ value := Nat.div_le_self _ _
    have hheld : value / m ^ (prefixes + 1) * m ≤ value := by
      have hdiv : value / m ^ (prefixes + 1) = value / m ^ prefixes / m := by
        rw [Nat.pow_succ, Nat.div_div_eq_div_mul]
      rw [hdiv]
      exact Nat.le_trans (Nat.div_mul_le_self _ _) (Nat.div_le_self _ _)
    obtain ⟨line', ih⟩ := ih (pos + (1 + t.format.operandWidth)) ((lines.lineStart? pos).or line)
      (by rw [hoffset, Nat.succ_mul]; omega) hnext
    refine ⟨line', ?_⟩
    rw [read_of_extendedArg (t.length_digitBytes _) (by rw [hread]; omega)
      (by rw [hread, hm]; omega), hread, hm]
    exact ih

/-- A step that ends where the bytes of an operation do is the first one of a stream, and the others
are read from the bytes behind them. -/
theorem readAll_append {pos : Nat} {bs rest : List UInt8} {first : UInt8} {more : List UInt8}
    {s : Step} (hbytes : bs ++ rest = first :: more) (hstop : s.stop = pos + bs.length)
    (hread : read t lines pos pos 0 none first more = .ok s) :
    readAll t lines pos (bs ++ rest) = (readAll t lines (pos + bs.length) rest).cons s := by
  have hlt := (start_eq_and_lt_stop_of_read hread).2
  have hdrop : more.drop (s.stop - pos - 1) = rest := by
    have hcount : s.stop - pos = s.stop - pos - 1 + 1 := by omega
    calc more.drop (s.stop - pos - 1) = (first :: more).drop (s.stop - pos) := by
          rw [hcount, List.drop_succ_cons, Nat.add_sub_cancel]
      _ = (bs ++ rest).drop bs.length := by
          rw [hbytes]
          congr 1
          omega
      _ = rest := List.drop_left
  rw [hbytes, readAll, hread]
  show (readAll t lines s.stop (more.drop (s.stop - pos - 1))).cons s = _
  rw [hdrop, hstop]

/-- The first step of a stream that begins with an operation is the operation, and the others are
read from the bytes behind it. -/
theorem readAll_bytes (op : Operation t) (pos : Nat) (rest : List UInt8) :
    ∃ line', readAll t lines pos (op.bytes ++ rest) =
      (readAll t lines (pos + op.bytes.length) rest).cons
        ⟨pos, pos + op.bytes.length, op.opcode, op.value?, line'⟩ := by
  cases op with
  | plain opcode filler hk =>
    have hlen : t.format.instructionSize (t.kind opcode) =
        1 + (Operation.fillerBytes t.format filler).length := by
      rcases hf : t.format with w | _
      · simp [InstructionFormat.instructionSize, hk, Operation.fillerBytes]
      · rfl
    refine ⟨(lines.lineStart? pos).or none, readAll_append lines rfl ?_ ?_⟩
    · rfl
    · rw [Operation.bytes, List.length_cons, Nat.add_comm _ 1, ← hlen]
      apply read_of_plain hk
      show _ ≤ (Operation.fillerBytes t.format filler ++ rest).length + 1
      rw [hlen, List.length_append]
      omega
  | operand opcode value prefixes hk hne hv hpow =>
    generalize hbytes : (Operation.operand opcode value prefixes hk hne hv hpow).bytes ++ rest = all
    have hlen : (Operation.operand opcode value prefixes hk hne hv hpow).bytes.length =
        prefixes * (1 + t.format.operandWidth) + (1 + t.format.operandWidth) := by
      rw [Operation.bytes, List.length_append, t.length_prefixBytes, List.length_cons,
        t.length_digitBytes, Nat.add_comm _ 1]
    cases all with
    | nil => simp [Operation.bytes] at hbytes
    | cons first more =>
      have hsplit : t.prefixBytes value prefixes ++ opcode :: (t.digitBytes value ++ rest) =
          first :: more := by
        rw [← hbytes, Operation.bytes, List.append_assoc, List.cons_append]
      obtain ⟨line', hread⟩ := read_prefixBytes lines pos pos none hk hne hv rfl hsplit
      rw [Nat.div_eq_of_lt hpow, Nat.zero_mul] at hread
      refine ⟨line', ?_⟩
      rw [← hbytes]
      apply readAll_append lines hbytes rfl
      rw [hread, hlen, Nat.add_assoc]
      rfl

/-- Where a step stands, and what it holds. -/
def placement (s : Step) : Placement := ⟨s.start, s.stop - s.start, s.opcode, s.value⟩

/-- The steps of the stream of a program are its operations, one behind the other. -/
theorem readAll_assemble (program : List (Operation t)) (pos : Nat) :
    (readAll t lines pos (assemble program)).failure = none ∧
      (readAll t lines pos (assemble program)).items.map placement =
        placementsFrom pos program := by
  induction program generalizing pos with
  | nil =>
    have hnil : readAll t lines pos (assemble ([] : List (Operation t))) = ⟨[], none⟩ := by
      rw [assemble, List.flatMap_nil, readAll]
    rw [hnil]
    exact ⟨rfl, rfl⟩
  | cons op rest ih =>
    obtain ⟨line', hcons⟩ := readAll_bytes lines op pos (assemble rest)
    obtain ⟨hfailure, hitems⟩ := ih (pos + op.bytes.length)
    have hbytes : assemble (op :: rest) = op.bytes ++ assemble rest := List.flatMap_cons
    rw [hbytes, hcons]
    refine ⟨hfailure, ?_⟩
    rw [Trace.cons, List.map_cons, hitems, placementsFrom, placement, Nat.add_sub_cancel_left]

end Step

namespace Disassembly

variable {d : Disassembly}

/-! ## Operands that refer to something -/

/-- How many entries the table has where an operand of a kind is looked up, if it is looked up. -/
def tableLength? (d : Disassembly) : OperandKind → Option Nat
  | .constIndex => some d.code.consts.length
  | .nameIndex => some d.code.names.length
  | .localIndex => some d.code.varnames.length
  | .compareIndex => some d.table.compareOps.length
  | .freeIndex => some (d.code.cellvars.length + d.code.freevars.length)
  | .none | .immediate | .jumpRelative | .jumpAbsolute => none

/-- The operand of an instruction is covered: its table has an entry for it, and if it is a distance
then what it leads to fits in 64 bits. -/
structure Covers (d : Disassembly) (p : Placement) : Prop where
  index_lt : ∀ v ∈ p.operandValue, ∀ count ∈ d.tableLength? (d.table.kind p.opcode), v < count
  target_lt : ∀ v ∈ p.operandValue, d.table.kind p.opcode = .jumpRelative →
    p.offset + p.size + v < offsetLimit

instance (d : Disassembly) (p : Placement) : Decidable (d.Covers p) :=
  decidable_of_iff
    ((∀ v ∈ p.operandValue, ∀ count ∈ d.tableLength? (d.table.kind p.opcode), v < count) ∧
      ∀ v ∈ p.operandValue, d.table.kind p.opcode = .jumpRelative →
        p.offset + p.size + v < offsetLimit)
    ⟨fun h => ⟨h.1, h.2⟩, fun h => ⟨h.1, h.2⟩⟩

theorem pickOperand_eq_ok {items : List String} {kind : OperandKind} {value offset : Nat}
    (h : value < items.length) : pickOperand items kind value offset = .ok items[value] := by
  rw [pickOperand, List.getElem?_eq_getElem h]

/-- A covered operand refers to something. -/
theorem reference_eq_ok_of_covers {s : Step} (hs : s.start ≤ s.stop) (h : d.Covers s.placement) :
    ∃ r, d.reference s = .ok r := by
  obtain ⟨hindex, htarget⟩ := h
  have hstop : s.start + (s.stop - s.start) = s.stop := Nat.add_sub_cancel' hs
  rw [reference]
  cases hv : s.value with
  | none => exact ⟨none, rfl⟩
  | some v =>
    replace hindex : ∀ count ∈ d.tableLength? (d.table.kind s.opcode), v < count := hindex v hv
    replace htarget : d.table.kind s.opcode = .jumpRelative →
        s.start + (s.stop - s.start) + v < offsetLimit := htarget v hv
    rw [hstop] at htarget
    have hpick : ∀ (items : List String) (kind : OperandKind) (f : String → ResolvedOperand),
        v < items.length →
          ∃ r, (pickOperand items kind v s.start).map (some ∘ f) = .ok r := by
      intro items kind f hlt
      rw [pickOperand_eq_ok hlt]
      exact ⟨_, rfl⟩
    show ∃ r, resolveOperand d.code d.table (d.table.kind s.opcode) v s.start s.stop = .ok r
    generalize d.table.kind s.opcode = kind at hindex htarget
    cases kind with
    | none => exact ⟨_, rfl⟩
    | immediate => exact ⟨_, rfl⟩
    | constIndex => exact hpick _ _ _ (by rw [List.length_map]; exact hindex _ rfl)
    | nameIndex => exact hpick _ _ _ (hindex _ rfl)
    | localIndex => exact hpick _ _ _ (hindex _ rfl)
    | compareIndex => exact hpick _ _ _ (hindex _ rfl)
    | freeIndex =>
      exact hpick _ _ _ (by rw [CodeObject.captured, List.length_append]; exact hindex _ rfl)
    | jumpRelative =>
      rw [resolveOperand, jumpTarget?, if_pos (htarget rfl)]
      exact ⟨_, rfl⟩
    | jumpAbsolute => exact ⟨_, rfl⟩

/-- Steps with operands that refer to something all become instructions, where they stand. -/
theorem decode_of_reference (targets : List Nat) (line : Option Nat) {steps : List Step}
    (h : ∀ s ∈ steps, ∃ r, d.reference s = .ok r) :
    (d.decode targets ⟨0, none, none⟩ none line steps).failure = none ∧
      (d.decode targets ⟨0, none, none⟩ none line steps).items.map Instruction.placement =
        steps.map Step.placement := by
  induction steps generalizing line with
  | nil => exact ⟨rfl, rfl⟩
  | cons s rest ih =>
    obtain ⟨r, hr⟩ := h s List.mem_cons_self
    have hrest : ∀ t ∈ rest, ∃ r, d.reference t = .ok r :=
      fun t ht => h t (List.mem_cons_of_mem s ht)
    obtain ⟨hfailure, hitems⟩ := ih (d.lineAfter line s) hrest
    rw [decode_all_cons, instruction_eq, hr]
    refine ⟨hfailure, ?_⟩
    show List.map Instruction.placement
      (d.instructionOf targets (d.lineAfter line s) s r ::
        (d.decode targets ⟨0, none, none⟩ none (d.lineAfter line s) rest).items) = _
    rw [List.map_cons, List.map_cons, hitems]
    rfl

/-- Decoding undoes assembling. If a stream is that of a program and the operands are covered, then
decoding does not fail, and its instructions are the operations of the program in their order, each
with its opcode, its operand, its size with all its prefixes, and its offset behind the operations
before it. -/
theorem instructions_assemble (d : Disassembly) (program : List (Operation d.table))
    (hcode : d.code.code = assemble program)
    (hcovers : ∀ p ∈ placementsFrom 0 program, d.Covers p) :
    d.instructions.failure = none ∧
      d.instructions.items.map Instruction.placement = placementsFrom 0 program := by
  obtain ⟨hfailure, hitems⟩ := Step.readAll_assemble d.code.lineTable program 0
  rw [← hcode] at hfailure hitems
  obtain ⟨reached, htiles, -⟩ := d.steps_spans
  have href : ∀ s ∈ d.steps.items, ∃ r, d.reference s = .ok r := by
    intro s hs
    have hplace : s.placement ∈ placementsFrom 0 program := by
      rw [← hitems]
      exact List.mem_map_of_mem hs
    exact reference_eq_ok_of_covers (Nat.le_of_lt (htiles.first_lt_next hs)) (hcovers _ hplace)
  have hdecode := decode_of_reference d.jumpTargets none href
  have heq : d.instructions =
      d.decode d.jumpTargets ⟨0, none, none⟩ none none d.steps.items := by
    show d.decode d.jumpTargets ⟨0, none, none⟩ d.steps.failure none d.steps.items = _
    rw [show d.steps.failure = none from hfailure]
  rw [heq]
  exact ⟨hdecode.1, hdecode.2.trans hitems⟩

/-- A name above 255, a constant behind two prefixes with zero digits, and a return. -/
def widenedProgram : List (Operation RuntimeVersion.wordcode.table) :=
  [.operand 101 300 1 (by decide +kernel) (by decide) (by decide) (by decide),
    .operand 100 1 2 (by decide +kernel) (by decide) (by decide) (by decide),
    .plain 83 7 (by decide +kernel)]

/-- A unit with enough names and constants for it. -/
def widenedUnit : Disassembly where
  code := { CodeObject.empty with
    code := assemble widenedProgram
    consts := [.none, .none]
    names := List.replicate 301 "x" }
  table := RuntimeVersion.wordcode.table
  current := none

/-- It decodes to its three operations. -/
theorem instructions_assemble_widened :
    widenedUnit.instructions.failure = none ∧
      widenedUnit.instructions.items.map Instruction.placement =
        [⟨0, 4, 101, some 300⟩, ⟨4, 6, 100, some 1⟩, ⟨10, 2, 83, none⟩] :=
  instructions_assemble widenedUnit widenedProgram rfl (by decide +kernel)

end Disassembly

end BytecodeDebugger
