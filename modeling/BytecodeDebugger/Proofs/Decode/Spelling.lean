import BytecodeDebugger.Decode.Instruction
import BytecodeDebugger.Proofs.Decode.Tiles
import BytecodeDebugger.Proofs.Decode.Units

/-!
# Units that spell a step

A stream can be cut into units by its opcodes alone, without a look at lines or at what prefixes
hold back. Each unit comes to a total over unbounded numbers: its operand, added to the total of the
prefix before it times the multiplier of the format. A step is spelled by units: prefixes whose
totals can be held back, and behind them the unit that the step has its opcode and operand from.

Main facts: `unitsFrom_tiles` (the units follow each other without a gap), `exists_spells_of_read`
(a step is spelled by the units that it is read from) and `spells_of_mem_steps` (every step of a
code object is spelled by the units that begin in it).
-/

namespace BytecodeDebugger

open Text (offsetLimit)

/-- One unit of a stream: an opcode, and the operand behind it if it takes one. -/
structure CodeUnit where
  offset : Nat
  /-- The offset just past the unit. -/
  stop : Nat
  opcode : UInt8
  operand : Option Nat
  /-- What the operands come to from the first prefix of the instruction on, this one included. -/
  total : Nat
  deriving DecidableEq, Repr

/-- What an operand comes to behind others: the operand, and their total moved up by one digit. -/
def OpcodeTable.totalAfter (t : OpcodeTable) (before : Nat) (operand : Option Nat) : Nat :=
  operand.getD 0 + before * t.format.extendMultiplier

/-- The units of a stream that starts at an offset, up to its end or to a unit that is cut off,
after a total that goes over into the first of them. Only a prefix hands its total on. -/
def OpcodeTable.unitsFrom (t : OpcodeTable) (pos before : Nat) : List UInt8 → List CodeUnit
  | [] => []
  | opcode :: tail =>
    let size := t.format.instructionSize (t.kind opcode)
    let operand :=
      if (t.kind opcode).hasOperand then some (littleEndian (tail.take (size - 1))) else none
    let total := t.totalAfter before operand
    if tail.length + 1 < size then []
    else
      ⟨pos, pos + size, opcode, operand, total⟩ ::
        unitsFrom t (pos + size) (if opcode = t.extendedArg then total else 0)
          (tail.drop (size - 1))
termination_by bytes => bytes.length

/-- The unit is a prefix whose total, moved up by one digit, does not fit 64 bits. -/
def CodeUnit.Overflows (t : OpcodeTable) (u : CodeUnit) : Prop :=
  u.opcode = t.extendedArg ∧ offsetLimit ≤ u.total * t.format.extendMultiplier

instance (t : OpcodeTable) (u : CodeUnit) : Decidable (u.Overflows t) :=
  inferInstanceAs (Decidable (_ ∧ _))

namespace Disassembly

/-- The units of a code object. -/
def units (d : Disassembly) : List CodeUnit := d.table.unitsFrom 0 0 d.code.code

/-- The units that begin in a stretch of offsets. -/
def unitsWithin (d : Disassembly) (start stop : Nat) : List CodeUnit :=
  d.units.filter fun u => start ≤ u.offset && u.offset < stop

end Disassembly

/-- The unit stands at an offset, behind a total that goes over into it, and if it is a prefix then
its own total can be held back. -/
structure CodeUnit.Stands (t : OpcodeTable) (pos before : Nat) (u : CodeUnit) : Prop where
  offset_eq : u.offset = pos
  lt_stop : pos < u.stop
  total_eq : u.total = t.totalAfter before u.operand
  not_overflows : ¬u.Overflows t

namespace OpcodeTable

variable {t : OpcodeTable} {pos before : Nat} {opcode : UInt8} {tail : List UInt8}

theorem unitsFrom_nil (t : OpcodeTable) (pos before : Nat) : t.unitsFrom pos before [] = [] := by
  rw [unitsFrom]

theorem unitsFrom_of_cut (hlen : tail.length + 1 < t.format.instructionSize (t.kind opcode)) :
    t.unitsFrom pos before (opcode :: tail) = [] := by
  rw [unitsFrom, if_pos hlen]

/-- The first unit is whole and has an operand. -/
theorem unitsFrom_of_operand (hk : (t.kind opcode).hasOperand = true)
    (hlen : ¬tail.length + 1 < t.format.instructionSize (t.kind opcode)) {v : Nat}
    (hv : littleEndian (tail.take (t.format.instructionSize (t.kind opcode) - 1)) = v) :
    t.unitsFrom pos before (opcode :: tail) =
      ⟨pos, pos + t.format.instructionSize (t.kind opcode), opcode, some v,
        t.totalAfter before (some v)⟩ ::
      t.unitsFrom (pos + t.format.instructionSize (t.kind opcode))
        (if opcode = t.extendedArg then t.totalAfter before (some v) else 0)
        (tail.drop (t.format.instructionSize (t.kind opcode) - 1)) := by
  rw [unitsFrom, if_neg hlen, if_pos hk, hv]

/-- The first unit is whole and has no operand. -/
theorem unitsFrom_of_plain (hk : ¬(t.kind opcode).hasOperand = true)
    (hlen : ¬tail.length + 1 < t.format.instructionSize (t.kind opcode)) :
    t.unitsFrom pos before (opcode :: tail) =
      ⟨pos, pos + t.format.instructionSize (t.kind opcode), opcode, none,
        t.totalAfter before none⟩ ::
      t.unitsFrom (pos + t.format.instructionSize (t.kind opcode)) 0
        (tail.drop (t.format.instructionSize (t.kind opcode) - 1)) := by
  have hne : opcode ≠ t.extendedArg := by
    rintro rfl
    exact hk t.hasOperand_kind_extendedArg
  rw [unitsFrom, if_neg hlen, if_neg hk, if_neg hne]

/-- The units follow each other without a gap, and do not go beyond the bytes. -/
theorem unitsFrom_tiles (t : OpcodeTable) (pos before : Nat) (bytes : List UInt8) :
    ∃ reached, reached ≤ pos + bytes.length ∧
      Tiles CodeUnit.offset CodeUnit.stop pos (t.unitsFrom pos before bytes) reached := by
  fun_induction unitsFrom t pos before bytes with
  | case1 pos => exact ⟨pos, Nat.le_add_right _ _, rfl⟩
  | case2 pos => exact ⟨pos, Nat.le_add_right _ _, rfl⟩
  | case3 pos before opcode tail size operand total hlen ih =>
    obtain ⟨reached, hreached, htiles⟩ := ih
    have hpos : 0 < size := t.format.instructionSize_pos (t.kind opcode)
    rw [List.length_drop] at hreached
    refine ⟨reached, ?_, rfl, Nat.lt_add_of_pos_right hpos, htiles⟩
    rw [List.length_cons]
    omega

end OpcodeTable

/-! ## Steps -/

/-- Units spell the rest of a step from an offset on, after a total that goes over into the first of
them and a line that the units before them started. -/
inductive Spells (t : OpcodeTable) (lines : LineTable) (start : Nat) :
    (pos before : Nat) → (line : Option Nat) → List CodeUnit → Step → Prop
  /-- The unit that the step ends with. -/
  | last {pos before : Nat} {line : Option Nat} {u : CodeUnit} (hu : u.Stands t pos before)
      (hvalue : u.operand.isSome = true → u.total < offsetLimit) :
      Spells t lines start pos before line [u]
        ⟨start, u.stop, u.opcode, u.operand.map fun _ => u.total, (lines.lineStart? pos).or line⟩
  /-- A prefix in front of other units. -/
  | widen {pos before : Nat} {line : Option Nat} {u : CodeUnit} {us : List CodeUnit} {s : Step}
      (hu : u.Stands t pos before) (hextended : u.opcode = t.extendedArg)
      (h : Spells t lines start u.stop u.total ((lines.lineStart? pos).or line) us s) :
      Spells t lines start pos before line (u :: us) s

namespace Step

variable {t : OpcodeTable} {lines : LineTable} {start pos held before : Nat} {line : Option Nat}
  {opcode : UInt8} {tail : List UInt8} {s : Step}

/-- A step is spelled by the units that it is read from, and the units behind them are those of the
bytes that it leaves. A prefix ends a step only at the end of the stream. -/
theorem exists_spells_of_read (hheld : held = before * t.format.extendMultiplier)
    (h : read t lines start pos held line opcode tail = .ok s) :
    ∃ us, t.unitsFrom pos before (opcode :: tail) =
        us ++ t.unitsFrom s.stop 0 (tail.drop (s.stop - pos - 1)) ∧
      Spells t lines start pos before line us s ∧
      (s.opcode = t.extendedArg → s.stop = pos + (tail.length + 1)) := by
  fun_induction read t lines start pos held line opcode tail generalizing before with
  | case1 => cases h
  | case2 => cases h
  | case3 => cases h
  | case4 pos held line tail line' available kind size hlen hk value hv hfits =>
    -- a prefix with nothing behind it
    rename_i hrest
    subst hheld
    cases h
    have hpos : 0 < size := t.format.instructionSize_pos _
    have hstop : pos + size - pos - 1 = size - 1 := by omega
    have hcount := congrArg List.length hrest
    rw [List.length_drop, List.length_nil] at hcount
    refine ⟨[⟨pos, pos + size, t.extendedArg, some (littleEndian (tail.take (size - 1))), value⟩],
      ?_, .last ⟨rfl, Nat.lt_add_of_pos_right hpos, rfl, fun hover => hfits hover.2⟩
        fun _ => Nat.lt_of_not_le hv, fun _ => ?_⟩
    · rw [OpcodeTable.unitsFrom_of_operand hk hlen rfl, hstop, hrest, OpcodeTable.unitsFrom_nil,
        OpcodeTable.unitsFrom_nil]
      rfl
    · show pos + size = pos + (tail.length + 1)
      omega
  | case5 pos held line tail line' available next rest kind size hlen hk value hv =>
    rename_i hfits hrest ih
    subst hheld
    have hpos : 0 < size := t.format.instructionSize_pos _
    have hlt := (start_eq_and_lt_stop_of_read h).2
    have hcount := congrArg List.length hrest
    rw [List.length_drop, List.length_cons] at hcount
    -- the bytes behind the step are counted from the next unit on
    have hbehind : tail.drop (s.stop - pos - 1) = rest.drop (s.stop - (pos + size) - 1) := by
      have hsplit : s.stop - pos - 1 = size - 1 + (s.stop - (pos + size) - 1 + 1) := by omega
      rw [hsplit, ← List.drop_drop, hrest, List.drop_succ_cons]
    obtain ⟨us, hunits, hspells, hend⟩ := ih rfl h
    refine ⟨⟨pos, pos + size, t.extendedArg, some (littleEndian (tail.take (size - 1))), value⟩ ::
      us, ?_, .widen ⟨rfl, Nat.lt_add_of_pos_right hpos, rfl, fun hover => hfits hover.2⟩ rfl
        hspells, fun hopcode => ?_⟩
    · rw [OpcodeTable.unitsFrom_of_operand hk hlen rfl, if_pos rfl, hrest, hbehind]
      exact congrArg _ hunits
    · rw [hend hopcode]
      omega
  | case6 pos held line opcode tail line' kind size available hlen hk value hv =>
    rename_i hne
    subst hheld
    cases h
    have hpos : 0 < size := t.format.instructionSize_pos _
    have hstop : pos + size - pos - 1 = size - 1 := by omega
    refine ⟨[⟨pos, pos + size, opcode, some (littleEndian (tail.take (size - 1))), value⟩],
      ?_, .last ⟨rfl, Nat.lt_add_of_pos_right hpos, rfl, fun hover => hne hover.1⟩
        fun _ => Nat.lt_of_not_le hv, fun hopcode => absurd hopcode hne⟩
    rw [OpcodeTable.unitsFrom_of_operand hk hlen rfl, hstop, if_neg hne]
    rfl
  | case7 pos held line opcode tail line' kind size available hlen =>
    rename_i hk
    cases h
    have hpos : 0 < size := t.format.instructionSize_pos _
    have hstop : pos + size - pos - 1 = size - 1 := by omega
    have hne : opcode ≠ t.extendedArg := by
      rintro rfl
      exact hk t.hasOperand_kind_extendedArg
    refine ⟨[⟨pos, pos + size, opcode, none, t.totalAfter before none⟩],
      ?_, .last ⟨rfl, Nat.lt_add_of_pos_right hpos, rfl, fun hover => hne hover.1⟩
        (fun hsome => absurd hsome Bool.false_ne_true), fun hopcode => absurd hopcode hne⟩
    rw [OpcodeTable.unitsFrom_of_plain hk hlen, hstop]
    rfl

/-- Every step of a stream is spelled by units of the stream, with nothing carried over into the
first of them. Only the last step can be a prefix. -/
theorem exists_spells_of_mem_readAll {bytes : List UInt8}
    (hs : s ∈ (readAll t lines pos bytes).items) :
    ∃ front us back, t.unitsFrom pos 0 bytes = front ++ (us ++ back) ∧
      Spells t lines s.start s.start 0 none us s ∧
      (s.opcode = t.extendedArg → s.stop = pos + bytes.length) := by
  fun_induction readAll t lines pos bytes with
  | case1 => exact absurd hs List.not_mem_nil
  | case2 => exact absurd hs List.not_mem_nil
  | case3 pos opcode tail r hread ih =>
    obtain ⟨us, hunits, hspells, hend⟩ := exists_spells_of_read (Nat.zero_mul _).symm hread
    obtain ⟨hstart, hlt⟩ := start_eq_and_lt_stop_of_read hread
    rcases List.mem_cons.1 hs with rfl | hs
    · rw [hstart]
      exact ⟨[], us, _, hunits, hspells, hend⟩
    · obtain ⟨front, us', back, hunits', hspells', hend'⟩ := ih hs
      refine ⟨us ++ front, us', back, ?_, hspells', fun hopcode => ?_⟩
      · rw [hunits, hunits', List.append_assoc]
      · have hle := stop_le_of_read hread
        rw [hend' hopcode, List.length_drop, List.length_cons]
        omega

end Step

namespace Spells

variable {t : OpcodeTable} {lines : LineTable} {start pos before : Nat} {line : Option Nat}
  {us : List CodeUnit} {s : Step}

theorem tiles (h : Spells t lines start pos before line us s) :
    Tiles CodeUnit.offset CodeUnit.stop pos us s.stop := by
  induction h with
  | last hu _ => exact ⟨hu.offset_eq, hu.lt_stop, rfl⟩
  | widen hu _ _ ih => exact ⟨hu.offset_eq, hu.lt_stop, ih⟩

theorem not_overflows (h : Spells t lines start pos before line us s) :
    ∀ u ∈ us, ¬u.Overflows t := by
  induction h with
  | last hu _ => exact fun u hmem => List.mem_singleton.1 hmem ▸ hu.not_overflows
  | widen hu _ _ ih => exact List.forall_mem_cons.2 ⟨hu.not_overflows, ih⟩

/-- The line that a step starts is that of the last of its units where one starts. -/
theorem lineStart_eq (h : Spells t lines start pos before line us s) :
    s.lineStart = us.foldl (fun line u => (lines.lineStart? u.offset).or line) line := by
  induction h with
  | last hu _ => rw [List.foldl_cons, List.foldl_nil, hu.offset_eq]
  | widen hu _ _ ih => rw [List.foldl_cons, hu.offset_eq, ih]

/-- A step has its opcode and its operand from the last of its units, and the others are prefixes.
The operand is what all of them come to, and it fits 64 bits. -/
theorem exists_last (h : Spells t lines start pos before line us s) :
    ∃ prefixes last, us = prefixes ++ [last] ∧ (∀ p ∈ prefixes, p.opcode = t.extendedArg) ∧
      last.opcode = s.opcode ∧ s.value = last.operand.map (fun _ => last.total) ∧
      last.total = us.foldl (fun total u => t.totalAfter total u.operand) before ∧
      ∀ v ∈ s.value, v < offsetLimit := by
  induction h with
  | @last pos before line u hu hvalue =>
    refine ⟨[], u, rfl, nofun, rfl, rfl, hu.total_eq, fun v hv => ?_⟩
    obtain ⟨w, hw, rfl⟩ := Option.map_eq_some_iff.1 hv
    exact hvalue (Option.isSome_of_eq_some hw)
  | @widen pos before line u us s hu hextended _ ih =>
    obtain ⟨prefixes, last, rfl, hprefixes, hopcode, hvalue, htotal, hlt⟩ := ih
    refine ⟨u :: prefixes, last, rfl, List.forall_mem_cons.2 ⟨hextended, hprefixes⟩, hopcode,
      hvalue, ?_, hlt⟩
    rw [List.foldl_cons, ← hu.total_eq]
    exact htotal

theorem ne_nil (h : Spells t lines start pos before line us s) : us ≠ [] := by
  cases h <;> exact List.cons_ne_nil _ _

end Spells

namespace Disassembly

variable {d : Disassembly} {s : Step}

/-- Every step of a code object is spelled by the units that begin in it. Only a step at the end of
the stream can be a prefix. -/
theorem spells_of_mem_steps (hs : s ∈ d.steps.items) :
    Spells d.table d.code.lineTable s.start s.start 0 none (d.unitsWithin s.start s.stop) s ∧
      (s.opcode = d.table.extendedArg → s.stop = d.code.size) := by
  obtain ⟨front, us, back, hunits, hspells, hend⟩ := Step.exists_spells_of_mem_readAll hs
  obtain ⟨reached, -, htiles⟩ := d.table.unitsFrom_tiles 0 0 d.code.code
  have hwithin : d.unitsWithin s.start s.stop = us := by
    rw [unitsWithin, units, hunits]
    rw [hunits] at htiles
    exact htiles.filter_eq hspells.tiles hspells.ne_nil
  rw [hwithin]
  refine ⟨hspells, fun hopcode => ?_⟩
  rw [hend hopcode, Nat.zero_add]
  rfl

end Disassembly

end BytecodeDebugger
