import BytecodeDebugger.Code.LineTable
import BytecodeDebugger.Decode.Trace
import BytecodeDebugger.Opcode.Table
import BytecodeDebugger.Text.Unsigned

/-!
# Steps of an instruction stream

A stream is cut into steps. A step is one instruction together with the widening prefixes before it:
each prefix holds its operand back, and the next operand is added to what is held back, times the
multiplier of the format. A prefix at the very end of the stream is a step of its own.

Main facts: `start_eq_and_lt_stop_of_read` (a step takes a byte) and `stop_le_of_read` (no step goes
beyond the end of the stream).
-/

namespace BytecodeDebugger

open Text (offsetLimit)

/-- The number that bytes spell, lowest byte first. -/
def littleEndian : List UInt8 → Nat
  | [] => 0
  | b :: rest => b.toNat + 256 * littleEndian rest

/-- An instruction with its prefixes: where it starts and stops, its opcode, its operand, and the
line of the last statement that starts at one of its units. -/
structure Step where
  start : Nat
  stop : Nat
  opcode : UInt8
  value : Option Nat
  lineStart : Option Nat
  deriving DecidableEq, Repr

namespace Step

/-- Reads the step that starts at `start`. The unit at hand has its first byte at `pos`, `held` is
what the prefixes before it held back, and `line` is the line that the earlier units started. -/
def read (table : OpcodeTable) (lines : LineTable) (start pos held : Nat) (line : Option Nat)
    (opcode : UInt8) (tail : List UInt8) : Except DecodeError Step :=
  let line := (lines.lineStart? pos).or line
  let kind := table.kind opcode
  let size := table.format.instructionSize kind
  let available := tail.length + 1
  if available < size then .error (.truncated pos size available)
  else if kind.hasOperand then
    let value := littleEndian (tail.take (size - 1)) + held
    if offsetLimit ≤ value then .error (.operandOverflow pos)
    else if opcode = table.extendedArg then
      if offsetLimit ≤ value * table.format.extendMultiplier then .error (.operandOverflow pos)
      else
        match _h : tail.drop (size - 1) with
        | [] => .ok ⟨start, pos + size, opcode, some value, line⟩
        | next :: rest =>
          read table lines start (pos + size) (value * table.format.extendMultiplier) line next rest
    else .ok ⟨start, pos + size, opcode, some value, line⟩
  else .ok ⟨start, pos + size, opcode, none, line⟩
termination_by tail.length
decreasing_by
  have := congrArg List.length _h
  simp at this
  omega

/-- The steps of a stream that starts at an offset. -/
def readAll (table : OpcodeTable) (lines : LineTable) (pos : Nat) : List UInt8 → Trace Step
  | [] => ⟨[], none⟩
  | opcode :: tail =>
    match read table lines pos pos 0 none opcode tail with
    | .error e => ⟨[], some e⟩
    | .ok s => (readAll table lines s.stop (tail.drop (s.stop - pos - 1))).cons s
termination_by bytes => bytes.length
decreasing_by
  rw [List.length_drop, List.length_cons]
  omega

/-! ## How far a step goes -/

/-- A step starts where it was asked to, and goes beyond the first byte of the unit at hand. -/
theorem start_eq_and_lt_stop_of_read {table : OpcodeTable} {lines : LineTable}
    {start pos held : Nat} {line : Option Nat} {opcode : UInt8} {tail : List UInt8} {s : Step}
    (h : read table lines start pos held line opcode tail = .ok s) :
    s.start = start ∧ pos < s.stop := by
  fun_induction read table lines start pos held line opcode tail with
  | case1 => simp at h
  | case2 => simp at h
  | case3 => simp at h
  | case4 pos held line opcode tail l kind size =>
    have := table.format.instructionSize_pos kind
    cases h
    exact ⟨rfl, by simp only; omega⟩
  | case5 =>
    rename_i ih
    obtain ⟨h7, h8⟩ := ih h
    exact ⟨h7, by omega⟩
  | case6 pos held line opcode tail l kind size =>
    have := table.format.instructionSize_pos kind
    cases h
    exact ⟨rfl, by simp only; omega⟩
  | case7 pos held line opcode tail l kind size =>
    have := table.format.instructionSize_pos kind
    cases h
    exact ⟨rfl, by simp only; omega⟩

/-- No step goes beyond the end of the stream. -/
theorem stop_le_of_read {table : OpcodeTable} {lines : LineTable}
    {start pos held : Nat} {line : Option Nat} {opcode : UInt8} {tail : List UInt8} {s : Step}
    (h : read table lines start pos held line opcode tail = .ok s) :
    s.stop ≤ pos + (tail.length + 1) := by
  fun_induction read table lines start pos held line opcode tail with
  | case1 => simp at h
  | case2 => simp at h
  | case3 => simp at h
  | case4 => cases h; simp only; omega
  | case5 =>
    rename_i rest_eq ih
    have h7 := ih h
    have h8 := congrArg List.length rest_eq
    have := table.format.instructionSize_pos (table.kind table.extendedArg)
    simp at h8
    omega
  | case6 => cases h; simp only; omega
  | case7 => cases h; simp only; omega

end Step

end BytecodeDebugger
