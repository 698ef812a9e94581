import BytecodeDebugger.Proofs.Decode.Assembly
import BytecodeDebugger.Proofs.Decode.Spelling
import BytecodeDebugger.Proofs.Decode.Windows

/-!
# Widened operands

What prefixes hold back is a multiple of the multiplier of the format, and so is the limit of 64
bits. So what is held back leaves room for one more operand, and adding it never goes beyond the
limit: only holding back can. An operand is therefore exactly what its units come to over unbounded
numbers, and decoding gives up at the first prefix whose total, moved up by one digit, does not fit.

Main facts: `sum_lt_offsetLimit` (adding fits), `readAllSummed?_eq_some` (the check on sums is never
needed), `failure_readAll_iff` (where decoding overflows) and `operands_exact`.
-/

namespace BytecodeDebugger

open Text (offsetLimit)

/-! ## Room for an operand -/

/-- Bytes spell a number that fits in so many bytes. -/
theorem littleEndian_lt (bytes : List UInt8) : littleEndian bytes < 256 ^ bytes.length := by
  induction bytes with
  | nil => exact Nat.one_pos
  | cons b rest ih =>
    have hb : b.toNat < 256 := b.toNat_lt
    rw [littleEndian, List.length_cons, Nat.pow_succ]
    omega

namespace OpcodeTable

variable {t : OpcodeTable} {before : Nat}

/-- The limit of 64 bits is a multiple of the multiplier, since operands have four bytes at most. -/
theorem extendMultiplier_dvd_offsetLimit (t : OpcodeTable) :
    t.format.extendMultiplier ∣ offsetLimit := by
  have hlimit : offsetLimit = 256 ^ 8 := by decide
  rw [t.extendMultiplier_eq, hlimit]
  have := t.width_le
  exact Nat.pow_dvd_pow 256 (by omega)

/-- The operand of a unit is less than the multiplier. -/
theorem littleEndian_lt_extendMultiplier {kind : OperandKind} (hk : kind.hasOperand = true)
    (bytes : List UInt8) :
    littleEndian (bytes.take (t.format.instructionSize kind - 1)) < t.format.extendMultiplier := by
  rw [t.format.instructionSize_of_hasOperand hk, Nat.add_sub_cancel_left, t.extendMultiplier_eq]
  refine Nat.lt_of_lt_of_le (littleEndian_lt _) (Nat.pow_le_pow_right (by decide) ?_)
  rw [List.length_take]
  exact Nat.min_le_left _ _

/-- What is held back leaves room for one more operand. -/
theorem sum_lt_offsetLimit {operand : Nat} (hoperand : operand < t.format.extendMultiplier)
    (hfits : before * t.format.extendMultiplier < offsetLimit) :
    operand + before * t.format.extendMultiplier < offsetLimit := by
  obtain ⟨k, hk⟩ := t.extendMultiplier_dvd_offsetLimit
  generalize t.format.extendMultiplier = m at *
  rw [hk] at hfits ⊢
  have hlt : before < k := by
    rw [Nat.mul_comm] at hfits
    exact Nat.lt_of_mul_lt_mul_left hfits
  calc operand + before * m < m + before * m := Nat.add_lt_add_right hoperand _
    _ = m * (before + 1) := by rw [Nat.mul_succ, Nat.mul_comm, Nat.add_comm]
    _ ≤ m * k := Nat.mul_le_mul_left m hlt

end OpcodeTable

/-! ## The check on sums -/

namespace Step

variable {t : OpcodeTable} {lines : LineTable} {start pos held before : Nat} {line : Option Nat}
  {opcode : UInt8} {tail : List UInt8} {s : Step}

/-- Reads a step as `read` does, but comes to nothing where an operand and what is held back do not
fit together. -/
def readSummed? (table : OpcodeTable) (lines : LineTable) (start pos held : Nat)
    (line : Option Nat) (opcode : UInt8) (tail : List UInt8) : Option (Except DecodeError Step) :=
  let line := (lines.lineStart? pos).or line
  let kind := table.kind opcode
  let size := table.format.instructionSize kind
  let available := tail.length + 1
  if available < size then some (.error (.truncated pos size available))
  else if kind.hasOperand then
    let value := littleEndian (tail.take (size - 1)) + held
    if offsetLimit ≤ value then none
    else if opcode = table.extendedArg then
      if offsetLimit ≤ value * table.format.extendMultiplier then
        some (.error (.operandOverflow pos))
      else
        match _h : tail.drop (size - 1) with
        | [] => some (.ok ⟨start, pos + size, opcode, some value, line⟩)
        | next :: rest =>
          readSummed? table lines start (pos + size) (value * table.format.extendMultiplier) line
            next rest
    else some (.ok ⟨start, pos + size, opcode, some value, line⟩)
  else some (.ok ⟨start, pos + size, opcode, none, line⟩)
termination_by tail.length
decreasing_by
  have := congrArg List.length _h
  simp at this
  omega

/-- If what is held back is a multiple of the multiplier that fits, then every sum on the way
through a step fits. -/
theorem readSummed?_eq_some (hheld : held = before * t.format.extendMultiplier)
    (hfits : held < offsetLimit) :
    readSummed? t lines start pos held line opcode tail =
      some (read t lines start pos held line opcode tail) := by
  fun_induction readSummed? t lines start pos held line opcode tail generalizing before with
  | case1 pos held line opcode tail kind size available =>
    rename_i hlen
    rw [read_eq]
    exact congrArg some (if_pos hlen).symm
  | case2 pos held line opcode tail kind size available hlen hk value =>
    -- the sum does fit
    rename_i hsum
    refine absurd hsum (Nat.not_le_of_lt ?_)
    subst hheld
    exact OpcodeTable.sum_lt_offsetLimit (t.littleEndian_lt_extendMultiplier hk tail) hfits
  | case3 pos held line tail available kind size hlen hk value hv =>
    rename_i hover
    rw [read_eq]
    dsimp only
    rw [if_neg hlen, if_pos hk, if_neg hv, if_pos rfl, if_pos hover]
  | case4 pos held line tail line' available kind size hlen hk value hv hfits' =>
    rename_i hrest
    rw [read_eq]
    dsimp only
    rw [if_neg hlen, if_pos hk, if_neg hv, if_pos rfl, if_neg hfits', hrest]
  | case5 pos held line tail line' available next rest kind size hlen hk value hv =>
    rename_i hfits' hrest ih
    rw [read_eq, ih rfl (Nat.lt_of_not_le hfits')]
    dsimp only
    rw [if_neg hlen, if_pos hk, if_neg hv, if_pos rfl, if_neg hfits', hrest]
  | case6 pos held line opcode tail line' kind size available hlen hk value =>
    rename_i hv hne
    rw [read_eq]
    dsimp only
    rw [if_neg hlen, if_pos hk, if_neg hv, if_neg hne]
  | case7 pos held line opcode tail line' kind size available =>
    rename_i hlen hk
    rw [read_eq]
    dsimp only
    rw [if_neg hlen, if_neg hk]

/-- Reads the steps of a stream as `readAll` does, but comes to nothing where a sum does not fit. -/
def readAllSummed? (table : OpcodeTable) (lines : LineTable) (pos : Nat) :
    List UInt8 → Option (Trace Step)
  | [] => some ⟨[], none⟩
  | opcode :: tail =>
    match readSummed? table lines pos pos 0 none opcode tail with
    | none => none
    | some (.error e) => some ⟨[], some e⟩
    | some (.ok s) =>
      (readAllSummed? table lines s.stop (tail.drop (s.stop - pos - 1))).map (Trace.cons s)
termination_by bytes => bytes.length

/-- All sums on the way through a stream fit. -/
theorem readAllSummed?_eq_some (t : OpcodeTable) (lines : LineTable) (pos : Nat)
    (bytes : List UInt8) :
    readAllSummed? t lines pos bytes = some (readAll t lines pos bytes) := by
  fun_induction readAll t lines pos bytes with
  | case1 pos => rw [readAllSummed?]
  | case2 pos opcode tail e hread =>
    rw [readAllSummed?, readSummed?_eq_some (Nat.zero_mul _).symm (by decide), hread]
  | case3 pos opcode tail s hread ih =>
    rw [readAllSummed?, readSummed?_eq_some (Nat.zero_mul _).symm (by decide), hread]
    dsimp only
    rw [ih]
    rfl

/-! ## Where decoding overflows -/

/-- A step that cannot be read overflows at the first of its prefixes that cannot be held back, and
if all of them can then it does not overflow. -/
theorem overflow_iff_of_read_eq_error {e : DecodeError} {o : Nat}
    (hheld : held = before * t.format.extendMultiplier) (hfits : held < offsetLimit)
    (h : read t lines start pos held line opcode tail = .error e) :
    e = .operandOverflow o ↔ ∃ u,
      (t.unitsFrom pos before (opcode :: tail)).find? (fun u => u.Overflows t) = some u ∧
        u.offset = o := by
  fun_induction read t lines start pos held line opcode tail generalizing before with
  | case1 pos held line opcode tail kind size available =>
    rename_i hlen
    cases h
    rw [OpcodeTable.unitsFrom_of_cut hlen]
    simp
  | case2 pos held line opcode tail kind size available hlen hk value =>
    rename_i hsum
    subst hheld
    exact absurd hsum (Nat.not_le_of_lt
      (OpcodeTable.sum_lt_offsetLimit (t.littleEndian_lt_extendMultiplier hk tail) hfits))
  | case3 pos held line tail available kind size hlen hk value hv =>
    rename_i hover
    cases h
    subst hheld
    rw [OpcodeTable.unitsFrom_of_operand hk hlen rfl, List.find?_cons_of_pos ?_]
    · simp
    · exact decide_eq_true ⟨rfl, hover⟩
  | case4 => cases h
  | case5 pos held line tail line' available next rest kind size hlen hk value hv =>
    rename_i hfits' hrest ih
    subst hheld
    rw [OpcodeTable.unitsFrom_of_operand hk hlen rfl, if_pos rfl, hrest, List.find?_cons_of_neg ?_]
    · exact ih rfl (Nat.lt_of_not_le hfits') h
    · exact fun hover => hfits' (of_decide_eq_true hover).2
  | case6 => cases h
  | case7 => cases h

/-- Reading a stream overflows exactly at the first prefix that cannot be held back. -/
theorem failure_readAll_iff {bytes : List UInt8} {o : Nat} :
    (readAll t lines pos bytes).failure = some (.operandOverflow o) ↔
      ∃ u, (t.unitsFrom pos 0 bytes).find? (fun u => u.Overflows t) = some u ∧ u.offset = o := by
  fun_induction readAll t lines pos bytes with
  | case1 pos =>
    rw [OpcodeTable.unitsFrom_nil]
    simp
  | case2 pos opcode tail e hread =>
    rw [← overflow_iff_of_read_eq_error (Nat.zero_mul _).symm (by decide) hread]
    exact Option.some_inj
  | case3 pos opcode tail s hread ih =>
    obtain ⟨us, hunits, hspells, -⟩ := exists_spells_of_read (Nat.zero_mul _).symm hread
    have hnone : us.find? (fun u => u.Overflows t) = none := by
      rw [List.find?_eq_none]
      exact fun u hu => by simpa using hspells.not_overflows u hu
    rw [hunits, List.find?_append, hnone, Option.none_or]
    exact ih

end Step

/-! ## Operands of instructions -/

/-- The units of an instruction are prefixes and, behind them, the unit that it has its opcode from.
Its operand is what the operands of its units come to over unbounded numbers, if that last unit has
one, and it fits 64 bits. Only at the end of the stream is the last unit a prefix too. -/
structure Instruction.WidenedBy (d : Disassembly) (i : Instruction) (prefixes : List CodeUnit)
    (last : CodeUnit) : Prop where
  units_eq : d.unitsWithin i.offset i.stop = prefixes ++ [last]
  opcode_of_mem : ∀ p ∈ prefixes, p.opcode = d.table.extendedArg
  opcode_eq : last.opcode = i.opcode
  stop_eq : i.opcode = d.table.extendedArg → i.stop = d.code.size
  value_eq : i.operandValue = last.operand.map fun _ => last.total
  total_eq : last.total =
    (prefixes ++ [last]).foldl (fun total u => d.table.totalAfter total u.operand) 0
  value_lt : ∀ v ∈ i.operandValue, v < offsetLimit

namespace Disassembly

variable {d : Disassembly} {targets : List Nat} {line : Option Nat} {s : Step}
  {r : Option ResolvedOperand}

/-- The instruction of a step is widened as the step is. -/
theorem widenedBy_instructionOf (hs : s ∈ d.steps.items) :
    ∃ prefixes last, (d.instructionOf targets line s r).WidenedBy d prefixes last := by
  obtain ⟨hspells, hend⟩ := spells_of_mem_steps hs
  have hstop : (d.instructionOf targets line s r).stop = s.stop := stop_instructionOf hs
  obtain ⟨prefixes, last, hunits, hprefixes, hopcode, hvalue, htotal, hfits⟩ := hspells.exists_last
  refine ⟨prefixes, last, ?_, hprefixes, hopcode, ?_, hvalue, hunits ▸ htotal, hfits⟩
  · rw [hstop]
    exact hunits
  · rw [hstop]
    exact hend

/-- In a stream that decodes, every unit belongs to an instruction. -/
theorem exists_instruction_of_mem_units (hnone : d.instructions.failure = none) {u : CodeUnit}
    (hu : u ∈ d.units) : ∃ i ∈ d.instructions.items, u ∈ d.unitsWithin i.offset i.stop := by
  have htiles := d.instructions_spans.tiles_of_failure_eq_none hnone
  obtain ⟨reached, hreached, hunits⟩ := d.table.unitsFrom_tiles 0 0 d.code.code
  have hlt := hunits.first_lt_next hu
  have hle := hunits.next_le_stop hu
  have hsize : 0 + d.code.code.length = d.code.size := Nat.zero_add _
  obtain ⟨i, hi, hstart, hstop⟩ := htiles.exists_contains (Nat.zero_le u.offset) (by omega)
  refine ⟨i, hi, List.mem_filter.2 ⟨hu, ?_⟩⟩
  simp [hstart, hstop]

/-- Operands are exact and never wrap. The operand of every instruction of every range is what its
units come to over unbounded numbers, and it fits 64 bits; in a stream that decodes, every unit is
one of those of an instruction. Reading the stream overflows exactly at the first prefix whose
total, moved up by one digit, does not fit 64 bits, and no sum of an operand and what is held back
ever fails to fit. Decoding fails as reading does, unless it fails before at a step whose operand
refers to nothing. -/
theorem operands_exact (d : Disassembly) :
    (∀ range, ∀ i ∈ (d.instructionsIn range).items,
      ∃ prefixes last, i.WidenedBy d prefixes last) ∧
    (d.instructions.failure = none →
      ∀ u ∈ d.units, ∃ i ∈ d.instructions.items, u ∈ d.unitsWithin i.offset i.stop) ∧
    (∀ o, d.steps.failure = some (.operandOverflow o) ↔
      ∃ u, d.units.find? (fun u => u.Overflows d.table) = some u ∧ u.offset = o) ∧
    (d.instructions.failure = d.steps.failure ∨
      ∃ s ∈ d.steps.items, ∃ e, d.reference s = .error e ∧ d.instructions.failure = some e) ∧
    Step.readAllSummed? d.table d.code.lineTable 0 d.code.code = some d.steps := by
  refine ⟨fun range i hi => ?_, fun hnone u => exists_instruction_of_mem_units hnone,
    fun o => Step.failure_readAll_iff, failure_decode_all _,
    Step.readAllSummed?_eq_some d.table d.code.lineTable 0 d.code.code⟩
  obtain ⟨front, s, back, r, hsteps, -, rfl⟩ := exists_split_of_mem_decode hi
  exact widenedBy_instructionOf (hsteps ▸ List.mem_append_cons_self)

/-- A call with an operand widened to 65538, and a prefix with the operand 7 at the end of the
stream. Four prefixes are too many if the first one is not zero: what they come to, moved up by one
digit, does not fit 64 bits. -/
theorem operands_exact_widened_call :
    let d := classicStream [145, 1, 0, 131, 2, 0, 145, 7, 0]
    let long := classicStream [145, 1, 0, 145, 0, 0, 145, 0, 0, 145, 0, 0, 131, 2, 0]
    d.instructions.items.map (·.operandValue) = [some 65538, some 7] ∧
      (∀ i ∈ d.instructions.items, ∃ prefixes last, i.WidenedBy d prefixes last) ∧
      d.units.map (fun u => (u.offset, u.total)) = [(0, 1), (3, 65538), (6, 7)] ∧
      (∀ u ∈ d.units, ∃ i ∈ d.instructions.items, u ∈ d.unitsWithin i.offset i.stop) ∧
      long.steps.failure = some (.operandOverflow 9) ∧
      long.instructions.items = [] := by
  intro d long
  obtain ⟨hwidened, hunits, -, -, -⟩ := operands_exact d
  obtain ⟨-, -, hoverflow, -, -⟩ := operands_exact long
  have hfound : long.units.find? (fun u => u.Overflows long.table) =
      some ⟨9, 12, 145, some 0, 2 ^ 48⟩ := by decide +kernel
  exact ⟨by decide +kernel, hwidened .all, by decide +kernel, hunits (by decide +kernel),
    (hoverflow 9).2 ⟨_, hfound, rfl⟩, by decide +kernel⟩

end Disassembly

end BytecodeDebugger
