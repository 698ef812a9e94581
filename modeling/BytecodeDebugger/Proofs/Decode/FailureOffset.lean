import BytecodeDebugger.Proofs.Decode.Widening

/-!
# Where decoding fails

An instruction that does not decode starts where the ones before it end. Either it can be read and
its operand refers to nothing, and then it fails where it starts. Or one of its units cannot be
read, and then it fails where this unit stands: behind prefixes, if there are any, and so not where
the instruction starts.

Main facts: `failure_cases` (the two ways to fail), `Step.offset_eq_iff_of_read_eq_error` (a step
that cannot be read) and `failure_offset_eq_iff`.
-/

namespace BytecodeDebugger

open Text (offsetLimit)

/-! ## Steps that cannot be read -/

namespace Step

variable {t : OpcodeTable} {lines : LineTable} {start pos held before : Nat} {line : Option Nat}
  {opcode : UInt8} {tail bytes : List UInt8} {e : DecodeError}

/-- What the first prefix of a step holds back always fits. -/
theorem littleEndian_mul_lt_offsetLimit (t : OpcodeTable) {unit : List UInt8}
    (hunit : unit.length = t.format.operandWidth) :
    littleEndian unit * t.format.extendMultiplier < offsetLimit := by
  have hlt := littleEndian_lt unit
  rw [hunit] at hlt
  have hw := t.width_le
  have hlimit : offsetLimit = 256 ^ 4 * 256 ^ 4 := by decide
  rw [t.extendMultiplier_eq, hlimit]
  exact Nat.lt_of_lt_of_le (Nat.mul_lt_mul_of_pos_right hlt (Nat.pow_pos (by decide)))
    (Nat.mul_le_mul (Nat.pow_le_pow_right (by decide) hw) (Nat.pow_le_pow_right (by decide) hw))

/-- A step that cannot be read fails where it starts, unless a prefix stands there with something
behind it. -/
theorem offset_eq_iff_of_read_eq_error
    (h : read t lines start pos 0 line opcode tail = .error e) :
    e.offset = pos ↔ ¬(opcode = t.extendedArg ∧ t.format.operandWidth < tail.length) := by
  constructor
  · rintro heq ⟨rfl, hlen⟩
    -- the prefix is read, so what fails lies behind it
    obtain ⟨next, rest, hsplit⟩ := List.exists_cons_of_length_pos
      (l := tail.drop t.format.operandWidth) (by rw [List.length_drop]; omega)
    have hunit : (tail.take t.format.operandWidth).length = t.format.operandWidth := by
      rw [List.length_take]
      omega
    have hmul := littleEndian_mul_lt_offsetLimit t hunit
    have hv : littleEndian (tail.take t.format.operandWidth) + 0 < offsetLimit :=
      Nat.lt_of_le_of_lt (Nat.le_mul_of_pos_right _ t.extendMultiplier_pos) hmul
    rw [← List.take_append_drop t.format.operandWidth tail, hsplit,
      read_of_extendedArg hunit hv hmul] at h
    have := (offset_of_read_eq_error h).1
    omega
  · intro hne
    rw [read_eq] at h
    dsimp only at h
    by_cases hcut : tail.length + 1 < t.format.instructionSize (t.kind opcode)
    · rw [if_pos hcut] at h
      cases h
      rfl
    rw [if_neg hcut] at h
    by_cases hk : (t.kind opcode).hasOperand = true
    · rw [if_pos hk] at h
      split at h
      · cases h
        rfl
      · split at h
        · next hext =>
          split at h
          · cases h
            rfl
          · -- nothing stands behind the prefix, so it ends the step
            have hend : tail.drop (t.format.instructionSize (t.kind opcode) - 1) = [] := by
              rw [t.format.instructionSize_of_hasOperand hk, List.drop_eq_nil_iff]
              have hle : tail.length ≤ t.format.operandWidth :=
                Nat.not_lt.1 fun hlen => hne ⟨hext, hlen⟩
              omega
            rw [hend] at h
            cases h
        · cases h
    · rw [if_neg hk] at h
      cases h

/-- An index beyond its table is no failure of reading. -/
theorem read_ne_operandOutOfRange {o : Nat} {kind : OperandKind} {index length : Nat} :
    read t lines start pos held line opcode tail ≠
      .error (.operandOutOfRange o kind index length) := by
  intro h
  fun_induction read t lines start pos held line opcode tail with
  | case5 => rename_i ih; exact ih h
  | _ => cases h

/-- Up to where a step cannot be read, there are prefixes and nothing else. -/
theorem exists_prefixes_of_read_eq_error
    (h : read t lines start pos held line opcode tail = .error e) (before : Nat) :
    ∃ us rest, t.unitsFrom pos before (opcode :: tail) = us ++ rest ∧
      Tiles CodeUnit.offset CodeUnit.stop pos us e.offset ∧ ∀ u ∈ us, u.opcode = t.extendedArg := by
  fun_induction read t lines start pos held line opcode tail generalizing before with
  | case1 => cases h; exact ⟨[], _, rfl, rfl, List.forall_mem_nil _⟩
  | case2 => cases h; exact ⟨[], _, rfl, rfl, List.forall_mem_nil _⟩
  | case3 => cases h; exact ⟨[], _, rfl, rfl, List.forall_mem_nil _⟩
  | case5 pos held line tail line' available next rest kind size hlen hk value hv =>
    rename_i hfits hrest ih
    have hpos : 0 < size := t.format.instructionSize_pos _
    rw [OpcodeTable.unitsFrom_of_operand hk hlen rfl, if_pos rfl, hrest]
    obtain ⟨us, back, hunits, htiles, hprefixes⟩ := ih h _
    refine ⟨_ :: us, back, congrArg _ hunits, ⟨rfl, Nat.lt_add_of_pos_right hpos, htiles⟩, ?_⟩
    exact List.forall_mem_cons.2 ⟨rfl, hprefixes⟩
  | case4 => cases h
  | case6 => cases h
  | case7 => cases h

/-- Where a stream cannot be read, its steps end at a step that cannot be read. -/
theorem exists_read_of_failure_readAll (h : (readAll t lines pos bytes).failure = some e) :
    ∃ stop opcode tail front,
      Tiles Step.start Step.stop pos (readAll t lines pos bytes).items stop ∧
      bytes.drop (stop - pos) = opcode :: tail ∧
      t.unitsFrom pos 0 bytes = front ++ t.unitsFrom stop 0 (opcode :: tail) ∧
      read t lines stop stop 0 none opcode tail = .error e := by
  fun_induction readAll t lines pos bytes with
  | case1 => cases h
  | case2 pos opcode tail e' hread =>
    cases h
    exact ⟨pos, opcode, tail, [], rfl, by rw [Nat.sub_self, List.drop_zero], rfl, hread⟩
  | case3 pos opcode tail s hread ih =>
    obtain ⟨hstart, hlt⟩ := start_eq_and_lt_stop_of_read hread
    obtain ⟨us, hunits, -, -⟩ := exists_spells_of_read (Nat.zero_mul _).symm hread
    obtain ⟨stop, opcode', tail', front, htiles, hdrop, hfront, hfails⟩ := ih h
    have hle := htiles.le
    refine ⟨stop, opcode', tail', us ++ front, ⟨hstart, hlt, htiles⟩, ?_, ?_, hfails⟩
    · rw [← hdrop, List.drop_drop]
      obtain ⟨n, hn⟩ : ∃ n, stop - pos = n + 1 := ⟨stop - pos - 1, by omega⟩
      rw [hn, List.drop_succ_cons]
      congr 1
      omega
    · rw [hunits, hfront, List.append_assoc]

end Step

namespace Disassembly

variable {d : Disassembly} {targets : List Nat} {failure : Option DecodeError} {line : Option Nat}
  {pos stop : Nat} {steps : List Step} {e : DecodeError}

/-- Where the instructions that decode end. If one does not decode, this is where it starts. -/
def reached (d : Disassembly) : Nat :=
  (d.instructions.items.getLast?.map Instruction.stop).getD 0

/-- A step whose operand refers to nothing fails where it starts. -/
theorem offset_of_reference_eq_error {s : Step} (h : d.reference s = .error e) :
    e.offset = s.start := by
  have hfails : d.instruction [] none s = .error e := by
    rw [instruction_eq, h]
    rfl
  exact offset_of_instruction_eq_error hfails

/-- Decoding everything fails at a step whose operand refers to nothing, or behind all steps, as
reading them does. The instructions that decode end there. -/
theorem failure_decode_all_cases (hsteps : Tiles Step.start Step.stop pos steps stop)
    (h : (d.decode targets ⟨0, none, none⟩ failure line steps).failure = some e) :
    (∃ s ∈ steps, d.reference s = .error e ∧ Tiles Instruction.offset Instruction.stop pos
        (d.decode targets ⟨0, none, none⟩ failure line steps).items s.start) ∨
      failure = some e ∧ Tiles Instruction.offset Instruction.stop pos
        (d.decode targets ⟨0, none, none⟩ failure line steps).items stop := by
  induction steps generalizing pos line with
  | nil => exact .inr ⟨h, hsteps⟩
  | cons s rest ih =>
    obtain ⟨hstart, hlt, hrest⟩ := hsteps
    rw [decode_all_cons, instruction_eq] at h ⊢
    cases hr : d.reference s with
    | error e' =>
      rw [hr] at h
      cases h
      exact .inl ⟨s, List.mem_cons_self, hr, hstart.symm⟩
    | ok r =>
      rw [hr] at h
      have hstop : (d.instructionOf targets (d.lineAfter line s) s r).stop = s.stop :=
        Nat.add_sub_cancel' (hstart ▸ Nat.le_of_lt hlt : s.start ≤ s.stop)
      rcases ih hrest h with ⟨s', hs', he, htiles⟩ | ⟨hfailure, htiles⟩
      · exact .inl ⟨s', List.mem_cons_of_mem s hs', he, hstart, hstop ▸ hlt, hstop ▸ htiles⟩
      · exact .inr ⟨hfailure, hstart, hstop ▸ hlt, hstop ▸ htiles⟩

/-- Decoding a code object fails at a step whose operand refers to nothing, or behind all steps, as
reading them does. Either way the instruction that fails starts where the others end. -/
theorem failure_cases (h : d.instructions.failure = some e) :
    (∃ s ∈ d.steps.items, s.start = d.reached ∧ d.reference s = .error e) ∨
      d.steps.failure = some e ∧ Tiles Step.start Step.stop 0 d.steps.items d.reached := by
  obtain ⟨stop, hsteps, -⟩ := d.steps_spans
  rcases failure_decode_all_cases hsteps h with ⟨s, hs, he, htiles⟩ | ⟨hfailure, htiles⟩
  · exact .inl ⟨s, hs, htiles.stop_eq, he⟩
  · have hreached : stop = d.reached := htiles.stop_eq
    exact .inr ⟨hfailure, hreached ▸ hsteps⟩

/-- The instructions that decode lie one behind the other up to where they end. -/
theorem tiles_reached (d : Disassembly) :
    Tiles Instruction.offset Instruction.stop 0 d.instructions.items d.reached := by
  obtain ⟨stop, htiles, -⟩ := d.instructions_spans
  have hreached : stop = d.reached := htiles.stop_eq
  exact hreached ▸ htiles

/-- A prefix stands at an offset, and it is whole and has something behind it. -/
def WidensAt (d : Disassembly) (offset : Nat) : Prop :=
  d.code.code[offset]? = some d.table.extendedArg ∧
    offset + (1 + d.table.format.operandWidth) < d.code.size

instance (offset : Nat) : Decidable (d.WidensAt offset) := inferInstanceAs (Decidable (_ ∧ _))

/-- Where the instruction that fails stands at the end of all steps, it cannot be read. -/
theorem exists_read_of_failure_steps (h : d.steps.failure = some e)
    (htiles : Tiles Step.start Step.stop 0 d.steps.items d.reached) :
    ∃ opcode tail front, d.code.code.drop d.reached = opcode :: tail ∧
      d.units = front ++ d.table.unitsFrom d.reached 0 (opcode :: tail) ∧
      Step.read d.table d.code.lineTable d.reached d.reached 0 none opcode tail = .error e := by
  obtain ⟨stop, opcode, tail, front, htiles', hdrop, hunits, hread⟩ :=
    Step.exists_read_of_failure_readAll h
  obtain rfl : stop = d.reached := htiles'.stop_unique htiles
  exact ⟨opcode, tail, front, hdrop, hunits, hread⟩

/-- The bytes from an offset on tell whether a whole prefix stands there with something behind
it. -/
theorem widensAt_iff_of_drop {offset : Nat} {opcode : UInt8} {tail : List UInt8}
    (hdrop : d.code.code.drop offset = opcode :: tail) :
    d.WidensAt offset ↔
      opcode = d.table.extendedArg ∧ d.table.format.operandWidth < tail.length := by
  have hlen := congrArg List.length hdrop
  have hget : d.code.code[offset]? = some opcode := by
    rw [← List.head?_drop, hdrop, List.head?_cons]
  rw [List.length_drop, List.length_cons] at hlen
  rw [WidensAt, hget, Option.some_inj, CodeObject.size]
  exact and_congr_right fun _ => by omega

theorem unitsWithin_self (d : Disassembly) (offset : Nat) : d.unitsWithin offset offset = [] := by
  refine List.filter_eq_nil_iff.2 fun u _ => ?_
  simp

/-- The units that stand in front of others, one behind the other, are those within their bounds. -/
theorem unitsWithin_eq_of_tiles {front us rest : List CodeUnit} {start stop : Nat}
    (hunits : d.units = front ++ (us ++ rest))
    (htiles : Tiles CodeUnit.offset CodeUnit.stop start us stop) :
    d.unitsWithin start stop = us := by
  cases us with
  | nil =>
    obtain rfl : start = stop := htiles
    exact d.unitsWithin_self start
  | cons u more =>
    obtain ⟨reached, -, hall⟩ := d.table.unitsFrom_tiles 0 0 d.code.code
    rw [← units, hunits] at hall
    rw [unitsWithin, hunits]
    exact hall.filter_eq htiles (List.cons_ne_nil u more)

/-- Where decoding fails. The instruction that fails starts where those before it end. The failure
has this offset exactly if the instruction can be read, so that its operand refers to nothing, or if
no whole prefix stands there with something behind it. In any case the failure has the offset of a
unit of this instruction, behind prefixes only; and an index that lies beyond its table always has
the offset of its instruction. -/
theorem failure_offset_eq_iff (h : d.instructions.failure = some e) :
    (e.offset = d.reached ↔
      (∃ s ∈ d.steps.items, s.start = d.reached) ∨ ¬d.WidensAt d.reached) ∧
    Tiles CodeUnit.offset CodeUnit.stop d.reached (d.unitsWithin d.reached e.offset) e.offset ∧
    (∀ u ∈ d.unitsWithin d.reached e.offset, u.opcode = d.table.extendedArg) ∧
    ∀ o kind index length, e = .operandOutOfRange o kind index length → o = d.reached := by
  rcases failure_cases h with ⟨s, hs, hstart, he⟩ | ⟨hfailure, htiles⟩
  · have hoffset : e.offset = d.reached := (offset_of_reference_eq_error he).trans hstart
    rw [hoffset, d.unitsWithin_self]
    refine ⟨⟨fun _ => .inl ⟨s, hs, hstart⟩, fun _ => rfl⟩, rfl, List.forall_mem_nil _, ?_⟩
    rintro o kind index length rfl
    exact hoffset
  · obtain ⟨opcode, tail, front, hdrop, hunits, hread⟩ :=
      exists_read_of_failure_steps hfailure htiles
    have hnostep : ¬∃ s ∈ d.steps.items, s.start = d.reached := by
      rintro ⟨s, hs, hstart⟩
      have := htiles.first_lt_next hs
      have := htiles.next_le_stop hs
      omega
    obtain ⟨us, rest, hsplit, husTiles, hprefixes⟩ :=
      Step.exists_prefixes_of_read_eq_error hread 0
    rw [hsplit] at hunits
    rw [unitsWithin_eq_of_tiles hunits husTiles, or_iff_right hnostep, widensAt_iff_of_drop hdrop]
    refine ⟨Step.offset_eq_iff_of_read_eq_error hread, husTiles, hprefixes, ?_⟩
    rintro o kind index length rfl
    exact absurd hread Step.read_ne_operandOutOfRange

/-- Behind a return, a prefix and the index of a constant that is not there: the instruction that
fails starts with the prefix, at offset 1, and so does its failure. -/
theorem failure_offset_eq_missing_constant :
    let d := classicStream [83, 145, 0, 0, 100, 5, 0]
    let e := DecodeError.operandOutOfRange 1 .constIndex 5 0
    d.instructions.failure = some e ∧
      (e.offset = d.reached ↔
        (∃ s ∈ d.steps.items, s.start = d.reached) ∨ ¬d.WidensAt d.reached) ∧
      Tiles CodeUnit.offset CodeUnit.stop d.reached (d.unitsWithin d.reached e.offset) e.offset ∧
      (∀ u ∈ d.unitsWithin d.reached e.offset, u.opcode = d.table.extendedArg) ∧
      ∀ o kind index length, e = .operandOutOfRange o kind index length → o = d.reached := by
  intro d e
  have hfailure : d.instructions.failure = some e := by decide +kernel
  exact ⟨hfailure, failure_offset_eq_iff hfailure⟩

/-- A prefix, and an instruction behind it that is cut off: nothing comes before them, so the
instruction that fails starts at offset 0, and its failure has offset 3. -/
theorem failure_offset_ne_behind_prefix :
    (classicStream [145, 1, 0, 100]).instructions = ⟨[], some (.truncated 3 3 1)⟩ ∧
      (classicStream [145, 1, 0, 100]).reached = 0 ∧
      ¬∀ (d : Disassembly) (e : DecodeError), d.instructions.failure = some e →
        e.offset = d.reached := by
  have hfails : (classicStream [145, 1, 0, 100]).instructions =
      ⟨[], some (.truncated 3 3 1)⟩ := by decide +kernel
  have hreached : (classicStream [145, 1, 0, 100]).reached = 0 := by decide +kernel
  refine ⟨hfails, hreached, fun h => ?_⟩
  have hoffset := h (classicStream [145, 1, 0, 100]) (.truncated 3 3 1) (by rw [hfails])
  rw [hreached] at hoffset
  cases hoffset

end Disassembly

end BytecodeDebugger
