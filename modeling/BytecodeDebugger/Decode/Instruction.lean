import BytecodeDebugger.Decode.Operand

/-!
# Decoded instructions

A code object seen through an opcode table. Each step of its stream becomes an instruction that
knows its line, whether anything in the stream jumps to it and whether the program stands there. The
jumps are collected before anything is decoded, so a jump back and a jump ahead are marked alike.

A range selects instructions by offset or by line. Decoding always begins at the start of the
stream, since widening prefixes and lines depend on what comes before, and ends as soon as a step
starts beyond the range, so a fault further on does no harm.

Main facts: `mem_insertOffset_iff` and `pairwise_jumpTargets` (the jump targets form an ascending
list).
-/

namespace BytecodeDebugger

/-- One decoded instruction, its prefixes included. -/
structure Instruction where
  offset : Nat
  size : Nat
  opcode : UInt8
  name : String
  operandValue : Option Nat
  resolvedOperand : Option ResolvedOperand
  /-- The line in effect, if the line table covers the offset. -/
  lineNumber : Option Nat
  /-- Whether a statement starts here. -/
  startsLine : Bool
  isJumpTarget : Bool
  isCurrent : Bool
  deriving DecidableEq, Repr

/-- The offset just past the instruction. -/
def Instruction.stop (i : Instruction) : Nat := i.offset + i.size

/-- Which instructions are asked for. -/
inductive DecodeRange where
  | all
  /-- Those that start at or after an offset, up to and with another one if it is given. -/
  | offsets (first : Nat) (last : Option Nat)
  /-- Those whose line lies between two lines, ends included. -/
  | lines (first last : Nat)
  deriving DecidableEq, Repr

/-- A range in terms of decoding: the first offset, the last offset, and the lines. -/
structure Window where
  first : Nat
  last : Option Nat
  lines : Option (Nat × Nat)
  deriving DecidableEq, Repr

namespace Window

/-- Whether a step that starts at an offset ends decoding. -/
def isPast (w : Window) (offset : Nat) : Bool :=
  match w.last with
  | none => false
  | some last => last < offset

/-- Whether a step that starts at an offset, with a line in effect, is asked for. -/
def selects (w : Window) (offset : Nat) (line : Option Nat) : Bool :=
  w.first ≤ offset &&
    match w.lines, line with
    | none, _ => true
    | some _, none => false
    | some (first, last), some l => first ≤ l && l ≤ last

end Window

/-! ## Offsets in ascending order -/

/-- The offsets with one more. -/
def insertOffset (offset : Nat) : List Nat → List Nat
  | [] => [offset]
  | o :: rest =>
    if offset = o then o :: rest
    else if offset < o then offset :: o :: rest
    else o :: insertOffset offset rest

/-- An offset of the new list is the new one or one of the old ones. -/
theorem mem_insertOffset_iff {offset o : Nat} {os : List Nat} :
    o ∈ insertOffset offset os ↔ o = offset ∨ o ∈ os := by
  induction os with
  | nil => simp [insertOffset]
  | cons a rest ih =>
    simp only [insertOffset]
    split
    · simp only [List.mem_cons]; grind
    · split
      · simp only [List.mem_cons]
      · simp only [List.mem_cons, ih]; grind

/-- Inserting keeps the offsets in ascending order. -/
theorem pairwise_insertOffset {offset : Nat} {os : List Nat} (h : os.Pairwise (· < ·)) :
    (insertOffset offset os).Pairwise (· < ·) := by
  induction os with
  | nil => simp [insertOffset]
  | cons a rest ih =>
    have h' := List.pairwise_cons.1 h
    simp only [insertOffset]
    split
    · exact h
    · split
      · next hlt =>
        rw [List.pairwise_cons]
        refine ⟨fun b hb => ?_, h⟩
        rcases List.mem_cons.1 hb with rfl | hb
        · exact hlt
        · have := h'.1 b hb; omega
      · rw [List.pairwise_cons]
        refine ⟨fun b hb => ?_, ih h'.2⟩
        rcases mem_insertOffset_iff.1 hb with rfl | hb
        · omega
        · exact h'.1 b hb

/-! ## Disassembling a code object -/

/-- A code object with the table that decodes it, and the offset where the program stands. -/
structure Disassembly where
  code : CodeObject
  table : OpcodeTable
  current : Option Nat
  deriving DecidableEq

namespace Disassembly

/-- The steps of the stream. -/
def steps (d : Disassembly) : Trace Step := Step.readAll d.table d.code.lineTable 0 d.code.code

/-- The offset that a step jumps to. -/
def jumpOf? (d : Disassembly) (s : Step) : Option Nat :=
  let kind := d.table.kind s.opcode
  if kind.isJump then s.value.bind fun v => jumpTarget? kind v s.stop else none

/-- The offsets that some step jumps to, in ascending order. -/
def jumpTargets (d : Disassembly) : List Nat :=
  (d.steps.items.filterMap d.jumpOf?).foldl (fun os o => insertOffset o os) []

/-- A range in terms of decoding. A range of lines that no statement has selects nothing. -/
def window (d : Disassembly) : DecodeRange → Window
  | .all => ⟨0, none, none⟩
  | .offsets first last => ⟨first, last, none⟩
  | .lines first last =>
    match d.code.lineTable.offsetSpan? first last d.code.size with
    | some (start, stop) => ⟨start, some (stop - 1), some (first, last)⟩
    | none => ⟨Text.offsetLimit - 1, some 0, some (first, last)⟩

/-- The instruction of a step. -/
def instruction (d : Disassembly) (targets : List Nat) (line : Option Nat) (s : Step) :
    Except DecodeError Instruction :=
  let resolved :=
    match s.value with
    | some v => resolveOperand d.code d.table (d.table.kind s.opcode) v s.start s.stop
    | none => .ok none
  resolved.map fun r =>
    { offset := s.start
      size := s.stop - s.start
      opcode := s.opcode
      name := d.table.name s.opcode
      operandValue := s.value
      resolvedOperand := r
      lineNumber := line
      startsLine := s.lineStart.isSome
      isJumpTarget := targets.any fun t => s.start ≤ t && t < s.stop
      isCurrent := d.current.any fun c => s.start ≤ c && c < s.stop }

/-- The line in effect from a step on, after a line before it. -/
def lineAfter (d : Disassembly) (line : Option Nat) (s : Step) : Option Nat :=
  match s.lineStart with
  | some l => some l
  | none =>
    match line with
    | some l => some l
    | none => d.code.lineTable.lineAt? s.start

/-- The instructions of steps within a window, after a line. -/
def decode (d : Disassembly) (targets : List Nat) (w : Window) (failure : Option DecodeError)
    (line : Option Nat) : List Step → Trace Instruction
  | [] => ⟨[], failure⟩
  | s :: rest =>
    if w.isPast s.start then ⟨[], none⟩
    else
      let line := d.lineAfter line s
      if w.selects s.start line then
        match d.instruction targets line s with
        | .error e => ⟨[], some e⟩
        | .ok i => (decode d targets w failure line rest).cons i
      else decode d targets w failure line rest

/-- The instructions of a range. -/
def instructionsIn (d : Disassembly) (range : DecodeRange) : Trace Instruction :=
  let steps := d.steps
  decode d d.jumpTargets (d.window range) steps.failure none steps.items

/-- All instructions. -/
def instructions (d : Disassembly) : Trace Instruction := d.instructionsIn .all

/-- The jump targets form an ascending list. -/
theorem pairwise_jumpTargets (d : Disassembly) : d.jumpTargets.Pairwise (· < ·) := by
  unfold jumpTargets
  generalize d.steps.items.filterMap d.jumpOf? = found
  suffices h : ∀ os : List Nat, os.Pairwise (· < ·) →
      (found.foldl (fun os o => insertOffset o os) os).Pairwise (· < ·) from h [] .nil
  induction found with
  | nil => intro os h; exact h
  | cons o rest ih => intro os h; exact ih _ (pairwise_insertOffset h)

end Disassembly

end BytecodeDebugger
