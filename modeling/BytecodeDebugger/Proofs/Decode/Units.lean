import BytecodeDebugger.Decode.Step
import Mathlib.Tactic.Common

/-!
# Units of a step

A step is read unit by unit: an opcode with its operand, if it takes one. The unit at hand either
ends the step or is a prefix, and then the step goes on at the next unit with what the prefix holds
back.

Main facts: `read_eq` (one unit is read), `read_of_extendedArg`, `read_of_operand` and
`read_of_plain` (the ways in which a unit that is in order is read).
-/

namespace BytecodeDebugger.Step

open Text (offsetLimit)

variable {table : OpcodeTable} {lines : LineTable} {start pos held : Nat} {line : Option Nat}
  {opcode : UInt8} {unit tail rest : List UInt8}

/-- One unit is read: it is cut off or too large, it ends the step, or it is a prefix and the next
unit is read. -/
theorem read_eq (table : OpcodeTable) (lines : LineTable) (start pos held : Nat)
    (line : Option Nat) (opcode : UInt8) (tail : List UInt8) :
    read table lines start pos held line opcode tail =
      let line := (lines.lineStart? pos).or line
      let kind := table.kind opcode
      let size := table.format.instructionSize kind
      if tail.length + 1 < size then .error (.truncated pos size (tail.length + 1))
      else if kind.hasOperand then
        let value := littleEndian (tail.take (size - 1)) + held
        if offsetLimit ≤ value then .error (.operandOverflow pos)
        else if opcode = table.extendedArg then
          if offsetLimit ≤ value * table.format.extendMultiplier then .error (.operandOverflow pos)
          else
            match tail.drop (size - 1) with
            | [] => .ok ⟨start, pos + size, opcode, some value, line⟩
            | next :: rest =>
              read table lines start (pos + size) (value * table.format.extendMultiplier) line next
                rest
        else .ok ⟨start, pos + size, opcode, some value, line⟩
      else .ok ⟨start, pos + size, opcode, none, line⟩ := by
  rw [read]
  dsimp only
  congr 5
  split <;> simp only [*]

/-- A unit without an operand ends the step. -/
theorem read_of_plain (hk : (table.kind opcode).hasOperand = false)
    (hlen : table.format.instructionSize (table.kind opcode) ≤ tail.length + 1) :
    read table lines start pos held line opcode tail =
      .ok ⟨start, pos + table.format.instructionSize (table.kind opcode), opcode, none,
        (lines.lineStart? pos).or line⟩ := by
  rw [read_eq]
  dsimp only
  rw [if_neg (Nat.not_lt_of_le hlen), if_neg (by rw [hk]; decide)]

/-- A unit with an operand ends the step, unless it is a prefix. -/
theorem read_of_operand (hk : (table.kind opcode).hasOperand = true)
    (hne : opcode ≠ table.extendedArg) (hunit : unit.length = table.format.operandWidth)
    (hv : littleEndian unit + held < offsetLimit) :
    read table lines start pos held line opcode (unit ++ rest) =
      .ok ⟨start, pos + (1 + table.format.operandWidth), opcode, some (littleEndian unit + held),
        (lines.lineStart? pos).or line⟩ := by
  have hlen : ¬(unit ++ rest).length + 1 < 1 + table.format.operandWidth := by
    rw [List.length_append, hunit]
    omega
  rw [read_eq]
  dsimp only
  rw [table.format.instructionSize_of_hasOperand hk, Nat.add_sub_cancel_left, ← hunit,
    List.take_left, hunit, if_neg hlen, if_pos hk, if_neg (Nat.not_le_of_lt hv), if_neg hne]

/-- A prefix holds its operand back, and the step goes on at the unit behind it. -/
theorem read_of_extendedArg {next : UInt8} (hunit : unit.length = table.format.operandWidth)
    (hv : littleEndian unit + held < offsetLimit)
    (hm : (littleEndian unit + held) * table.format.extendMultiplier < offsetLimit) :
    read table lines start pos held line table.extendedArg (unit ++ next :: rest) =
      read table lines start (pos + (1 + table.format.operandWidth))
        ((littleEndian unit + held) * table.format.extendMultiplier)
        ((lines.lineStart? pos).or line) next rest := by
  have hk : (table.kind table.extendedArg).hasOperand = true := table.hasOperand_kind_extendedArg
  have hlen : ¬(unit ++ next :: rest).length + 1 < 1 + table.format.operandWidth := by
    rw [List.length_append, hunit]
    omega
  rw [read_eq]
  dsimp only
  rw [table.format.instructionSize_of_hasOperand hk, Nat.add_sub_cancel_left, ← hunit,
    List.take_left, List.drop_left, hunit, if_neg hlen, if_pos hk, if_neg (Nat.not_le_of_lt hv),
    if_pos rfl, if_neg (Nat.not_le_of_lt hm)]

/-- A step that cannot be read fails at one of its units, so in the bytes that are left. -/
theorem offset_of_read_eq_error {e : DecodeError}
    (h : read table lines start pos held line opcode tail = .error e) :
    pos ≤ e.offset ∧ e.offset < pos + (tail.length + 1) := by
  fun_induction read table lines start pos held line opcode tail with
  | case1 =>
    cases h
    exact ⟨Nat.le_refl _, by simp only [DecodeError.offset]; omega⟩
  | case2 =>
    cases h
    exact ⟨Nat.le_refl _, by simp only [DecodeError.offset]; omega⟩
  | case3 =>
    cases h
    exact ⟨Nat.le_refl _, by simp only [DecodeError.offset]; omega⟩
  | case4 => simp at h
  | case5 =>
    rename_i hrest ih
    obtain ⟨hle, hlt⟩ := ih h
    have hlen := congrArg List.length hrest
    have hsize := table.format.instructionSize_pos (table.kind table.extendedArg)
    rw [List.length_drop, List.length_cons] at hlen
    omega
  | case6 => simp at h
  | case7 => simp at h

end BytecodeDebugger.Step
