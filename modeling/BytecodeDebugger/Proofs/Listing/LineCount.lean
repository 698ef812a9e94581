import BytecodeDebugger.Proofs.Decode.Ranges
import BytecodeDebugger.Proofs.Listing.Agreement

/-!
# End lines given as a count

A policy may give its end line as a count of lines from its start line on. The end is computed
within the 32 bits of a line number and is the last line of the listing. At the top of these numbers
it falls short of the last of them, and no lines from line 0 on still end at line 0. On all other
lines a selection has exactly the instructions on the counted lines.

Main facts: `countEnd_iff_counted` (where the end is right), `selectedInstructions_of_lines` (what
is selected) and `selectedInstructions_counts_lines_iff`.
-/

namespace BytecodeDebugger

open Text (lineLimit)

/-! ## The end of a count -/

/-- The last line of so many lines from a line on, as it is computed. -/
def countEnd (first count : Nat) : Nat := min (first + count) (lineLimit - 1) - 1

/-- The line is counted wrongly: it is the last of all line numbers, and left out although it is one
of so many lines from a line on, or it is line 0, and taken although there are none. -/
def IsMiscounted (first count line : Nat) : Prop :=
  (lineLimit - 1 ≤ line ∧ first ≤ line ∧ line < first + count) ∨
    (line = 0 ∧ first = 0 ∧ count = 0)

instance (first count line : Nat) : Decidable (IsMiscounted first count line) :=
  inferInstanceAs (Decidable (_ ∨ _))

/-- The lines up to the end are the counted lines, but for those counted wrongly. -/
theorem countEnd_iff_counted {first count line : Nat} :
    (first ≤ line ∧ line ≤ countEnd first count ↔ first ≤ line ∧ line < first + count) ↔
      ¬IsMiscounted first count line := by
  have hlimit : lineLimit = 4294967296 := rfl
  unfold countEnd IsMiscounted
  omega

/-- The first line of a count that is not zero comes before its end, but for the last of all line
numbers. -/
theorem le_countEnd_self_iff {first count : Nat} (h : 1 ≤ count) :
    first ≤ countEnd first count ↔ first < lineLimit - 1 := by
  have hlimit : lineLimit = 4294967296 := rfl
  unfold countEnd
  omega

/-- The instruction has one of so many lines from a line on. -/
def Instruction.isOnLines (first count : Nat) (i : Instruction) : Bool :=
  i.lineNumber.any fun l => first ≤ l && l < first + count

/-- An instruction has a line up to the end exactly if it has one of the counted lines, unless its
line is counted wrongly. -/
theorem Instruction.hasLineWithin_countEnd_iff {first count : Nat} {i : Instruction} :
    i.hasLineWithin first (countEnd first count) = i.isOnLines first count ↔
      ∀ l ∈ i.lineNumber, ¬IsMiscounted first count l := by
  unfold hasLineWithin isOnLines
  cases i.lineNumber with
  | none => simp
  | some line =>
    rw [Option.any_some, Option.any_some, Bool.eq_iff_iff]
    simpa using countEnd_iff_counted

/-! ## Selections -/

namespace ListingPolicy

variable {p : ListingPolicy} {i : Instruction} {first last count : Nat}

/-- The instruction starts between the offsets of the policy, ends included. -/
def isWithinOffsets (p : ListingPolicy) (i : Instruction) : Bool :=
  p.startOffset ≤ i.offset && !p.isPastEnd i

/-- A count from the start line on ends at the end of the count. -/
theorem resolvedEndLine_of_count (hstart : p.startLine = some first)
    (hcount : p.endLine = some (.relative count)) :
    p.resolvedEndLine = some (countEnd first count) := by
  simp [resolvedEndLine, hstart, hcount, countEnd]

/-- With a start line and an end line, an instruction is asked for if it has a line between them and
does not start too early. -/
theorem takes_of_lines (hstart : p.startLine = some first) (hend : p.resolvedEndLine = some last)
    (i : Instruction) :
    p.takes i = (i.hasLineWithin first last && decide (p.startOffset ≤ i.offset)) := by
  unfold takes Instruction.hasLineWithin
  rw [hstart, hend]
  cases i.lineNumber <;> simp

end ListingPolicy

namespace Disassembly

variable {d : Disassembly} {p : ListingPolicy} {first last count : Nat}

/-- With a start line and an end line, a selection has the instructions with a line between them
that start between the offsets. -/
theorem selectedInstructions_of_lines (hdecodes : d.instructions.failure = none)
    (hcheck : checkStartLine d.code p = .ok ()) (hstart : p.startLine = some first)
    (hend : p.resolvedEndLine = some last) :
    selectedInstructions d p =
      .ok (d.instructions.items.filter fun i =>
        p.isWithinOffsets i && i.hasLineWithin first last) := by
  have hpast := ListingPolicy.pairwise_isPastEnd (p := p) d.pairwise_offset_instructions
  rw [selectedInstructions_eq_ok hdecodes hcheck, takeWhile_eq_filter_of_pairwise hpast,
    List.filter_filter]
  refine congrArg Except.ok (List.filter_congr fun i _ => ?_)
  rw [ListingPolicy.takes_of_lines hstart hend, ListingPolicy.isWithinOffsets]
  ac_rfl

/-- What a selection has if its policy gives the end line as a count from the start line: exactly
the instructions on the counted lines that start between the offsets, if and only if none of those
that do is on a line that is counted wrongly. A count that is not zero takes in the start line
itself, but for the last of all line numbers. -/
theorem selectedInstructions_counts_lines_iff (hdecodes : d.instructions.failure = none)
    (hcheck : checkStartLine d.code p = .ok ()) (hstart : p.startLine = some first)
    (hcount : p.endLine = some (.relative count)) :
    ∃ is, selectedInstructions d p = .ok is ∧
      (is = d.instructions.items.filter
          (fun i => p.isWithinOffsets i && i.isOnLines first count) ↔
        ∀ i ∈ d.instructions.items, p.isWithinOffsets i = true →
          ∀ l ∈ i.lineNumber, ¬IsMiscounted first count l) ∧
      (1 ≤ count → ∀ i ∈ d.instructions.items, p.isWithinOffsets i = true →
        i.lineNumber = some first → (i ∈ is ↔ first < lineLimit - 1)) := by
  refine ⟨_, selectedInstructions_of_lines hdecodes hcheck hstart
    (ListingPolicy.resolvedEndLine_of_count hstart hcount), ?_, ?_⟩
  · rw [filter_eq_filter_iff]
    refine forall₂_congr fun i _ => ?_
    rw [← Instruction.hasLineWithin_countEnd_iff]
    cases p.isWithinOffsets i <;> simp
  · intro hpos i hi hwithin hline
    rw [List.mem_filter, hwithin, Instruction.hasLineWithin, hline, ← le_countEnd_self_iff hpos]
    simp [hi]

/-- So many lines from a line on, without colours. -/
def countFrom (first count : Nat) : ListingPolicy :=
  { ListingPolicy.unbounded with
    highlight := .plain, startLine := some first, endLine := some (.relative count) }

/-- Two lines that end right before the last of all line numbers. -/
theorem selectedInstructions_counts_lines_before_last :
    let d := returnsOn 4294967292 4294967293 4294967294
    d.instructions.failure = none ∧
      checkStartLine d.code (countFrom 4294967293 2) = .ok () ∧
      selectedInstructions d (countFrom 4294967293 2) =
        .ok (d.instructions.items.filter fun i =>
          (countFrom 4294967293 2).isWithinOffsets i && i.isOnLines 4294967293 2) := by
  intro d
  have hdecodes : d.instructions.failure = none := by decide +kernel
  have hcheck : checkStartLine d.code (countFrom 4294967293 2) = .ok () := by decide +kernel
  have hlines : ∀ i ∈ d.instructions.items, ∀ l ∈ i.lineNumber,
      ¬IsMiscounted 4294967293 2 l := by
    decide +kernel
  obtain ⟨is, hselected, hexact, -⟩ :=
    selectedInstructions_counts_lines_iff hdecodes hcheck rfl rfl
  rw [hexact.2 fun i hi _ => hlines i hi] at hselected
  exact ⟨hdecodes, hcheck, hselected⟩

/-- One line from the last of all line numbers on is none, although a return has it, and no lines
from line 0 on are line 0. -/
theorem selectedInstructions_miscounts_outermost_lines :
    let top := returnsOn 1 2 4294967295
    let bottom := returnsOn 0 1 2
    (top.instructions.failure = none ∧ checkStartLine top.code (countFrom 4294967295 1) = .ok () ∧
      selectedInstructions top (countFrom 4294967295 1) = .ok [] ∧
      (top.instructions.items.filter (Instruction.isOnLines 4294967295 1)).map Instruction.offset =
        [2]) ∧
    (bottom.instructions.failure = none ∧ checkStartLine bottom.code (countFrom 0 0) = .ok () ∧
      (selectedInstructions bottom (countFrom 0 0)).map (·.map Instruction.offset) = .ok [0] ∧
      bottom.instructions.items.filter (Instruction.isOnLines 0 0) = []) := by
  decide +kernel

end Disassembly

end BytecodeDebugger
