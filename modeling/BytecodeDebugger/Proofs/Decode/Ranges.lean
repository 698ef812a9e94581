import BytecodeDebugger.Proofs.Code.LineTable
import BytecodeDebugger.Proofs.Decode.LineInEffect
import BytecodeDebugger.Proofs.Decode.Windows

/-!
# Ranges of a decoded stream

Where a stream decodes, the offsets of its instructions ascend, so a range yields exactly the
instructions that its window holds. For a range of offsets these are the instructions between the
offsets. The window of a range of lines is the span of the statements of these lines, so an
instruction that starts before the span is lost even if it has one of the lines. This happens where
an entry stands behind the prefixes of an instruction.

Main facts: `instructionsIn_eq_filter` (what a range yields), `instructionsIn_offsets_eq`,
`instructionsIn_lines_eq` and `instructionsIn_lines_iff`.
-/

namespace BytecodeDebugger

/-- The instruction has a line between two lines, ends included. -/
def Instruction.hasLineWithin (first last : Nat) (i : Instruction) : Bool :=
  i.lineNumber.any fun l => first ≤ l && l ≤ last

/-- A step that starts at an offset, with a line in effect, is asked for and does not end decoding.
-/
def Window.holds (w : Window) (offset : Nat) (line : Option Nat) : Bool :=
  !w.isPast offset && w.selects offset line

/-- A window holds what starts between its offsets and has one of its lines. -/
theorem Window.holds_iff {w : Window} {offset : Nat} {line : Option Nat} :
    w.holds offset line = true ↔
      w.first ≤ offset ∧ (∀ last ∈ w.last, offset ≤ last) ∧
        ∀ p ∈ w.lines, (line.any fun l => p.1 ≤ l && l ≤ p.2) = true := by
  obtain ⟨first, last, lines⟩ := w
  unfold holds isPast selects
  cases last <;> cases lines <;> cases line <;> simp [and_comm, and_left_comm]

namespace Disassembly

variable {d : Disassembly} {i : Instruction}

/-- Where the stream decodes, a range yields the instructions that its window holds. -/
theorem instructionsIn_eq_filter (hnone : d.instructions.failure = none) (range : DecodeRange) :
    d.instructionsIn range =
      ⟨d.instructions.items.filter fun i => (d.window range).holds i.offset i.lineNumber,
        none⟩ := by
  have hpast : d.instructions.items.Pairwise fun i j =>
      (!(d.window range).isPast j.offset) = true → (!(d.window range).isPast i.offset) = true := by
    obtain ⟨reached, htiles, -⟩ := d.instructions_spans
    refine htiles.pairwise_first.imp fun {i j} hlt => ?_
    unfold Window.isPast
    cases (d.window range).last with
    | none => simp
    | some last =>
      simp
      omega
  rw [instructionsIn_eq hnone range, takeWhile_eq_filter_of_pairwise hpast, List.filter_filter]
  simp only [Window.holds, Bool.and_comm]

/-! ## Offsets -/

/-- Where the stream decodes, a range of offsets yields the instructions that start between them. -/
theorem instructionsIn_offsets_eq (hnone : d.instructions.failure = none) (first : Nat)
    (last : Option Nat) :
    d.instructionsIn (.offsets first last) =
      ⟨d.instructions.items.filter fun i => first ≤ i.offset && last.all (i.offset ≤ ·), none⟩ := by
  rw [instructionsIn_eq_filter hnone]
  congr 1
  refine List.filter_congr fun i _ => ?_
  rw [Bool.eq_iff_iff, Window.holds_iff]
  cases last <;> simp [window]

/-- The call of `callThenReturn` lies before offset 1, and the return from there on. -/
theorem instructionsIn_offsets_behind_call :
    (callThenReturn 3).instructions.failure = none ∧
      (callThenReturn 3).instructionsIn (.offsets 1 none) =
        ⟨(callThenReturn 3).instructions.items.filter fun i =>
          1 ≤ i.offset && (none : Option Nat).all (i.offset ≤ ·), none⟩ ∧
      ((callThenReturn 3).instructionsIn (.offsets 1 none)).items.map Instruction.offset = [3] :=
  ⟨by decide +kernel, instructionsIn_offsets_eq (by decide +kernel) 1 none, by decide +kernel⟩

/-! ## Lines -/

/-- In code that is not empty, the window of a range of lines holds what has one of the lines and
what their statements cover. -/
theorem holds_window_lines (hpos : 0 < d.code.size) (first last offset : Nat)
    (line : Option Nat) :
    (d.window (.lines first last)).holds offset line =
      (line.any (fun l => first ≤ l && l ≤ last) &&
        decide (d.code.lineTable.Covers first last d.code.size offset)) := by
  rw [Bool.eq_iff_iff, Window.holds_iff, Bool.and_eq_true, decide_eq_true_eq, LineTable.covers_iff,
    window]
  cases hspan : d.code.lineTable.offsetSpan? first last d.code.size with
  | none =>
    -- the window begins at the last offset of all and ends at the first one
    constructor
    · rintro ⟨hstart, hstop, -⟩
      have hlimit : 2 ^ 64 - 1 ≤ offset := hstart
      have := hstop 0 rfl
      omega
    · rintro ⟨-, s, e, hp, -⟩
      cases hp
  | some p =>
    have hpos := LineTable.offsetSpan?_stop_pos hpos hspan
    constructor
    · rintro ⟨hstart, hstop, hline⟩
      have := hstop (p.2 - 1) rfl
      exact ⟨hline (first, last) rfl, p.1, p.2, rfl, hstart, by omega⟩
    · rintro ⟨hline, s, e, hp, hstart, hstop⟩
      cases hp
      refine ⟨hstart, fun l hl => ?_, fun q hq => ?_⟩
      · cases hl
        omega
      · cases hq
        exact hline

/-- Where the stream decodes, a range of lines yields the instructions that have one of the lines
and start in what their statements cover. -/
theorem instructionsIn_lines_eq (hnone : d.instructions.failure = none) (first last : Nat) :
    d.instructionsIn (.lines first last) =
      ⟨d.instructions.items.filter fun i => i.hasLineWithin first last &&
        decide (d.code.lineTable.Covers first last d.code.size i.offset), none⟩ := by
  rw [instructionsIn_eq_filter hnone]
  congr 1
  refine List.filter_congr fun i hi => ?_
  have hlt := d.instructions_spans.first_lt_next hi
  have hle := d.instructions_spans.next_le_stop hi
  exact holds_window_lines (by omega) first last i.offset i.lineNumber

/-- If all entries in the stream stand where an instruction starts, then every instruction starts in
what the statements of its line cover. -/
theorem covers_of_hasLineWithin
    (hstarts : ∀ e ∈ d.code.lineTable.entries, e.1 < d.code.size →
      ∃ i ∈ d.instructions.items, i.offset = e.1)
    (hi : i ∈ d.instructions.items) {first last : Nat}
    (hline : i.hasLineWithin first last = true) :
    d.code.lineTable.Covers first last d.code.size i.offset := by
  obtain ⟨reached, htiles, -⟩ := d.instructions_spans
  have hlt := htiles.first_lt_next hi
  have hle := d.instructions_spans.next_le_stop hi
  have hwhole : d.IsWhole i := by
    rintro e he ⟨hbehind, hbefore⟩
    obtain ⟨j, hj, hstart⟩ := hstarts e he (by omega)
    have := htiles.first_lt_next hj
    obtain rfl : i = j := htiles.eq_of_contains hi hj (c := e.1) (by omega) (by omega)
    omega
  rcases d.code.lineTable.lineAt?_cases i.offset with ⟨-, hall⟩ | ⟨e, he, -⟩
  · rw [Instruction.hasLineWithin, lineNumber_eq_none hi hwhole hall] at hline
    cases hline
  · have hbefore := he.le
    obtain ⟨j, hj, hstart⟩ := hstarts e he.mem (by omega)
    obtain ⟨s, hs, hsstart, -⟩ := exists_step_at hj
    obtain ⟨u, hu, hoffset⟩ := exists_unit_start hs
    rw [Instruction.hasLineWithin,
      lineNumber_eq_of_unit hi hwhole he ⟨u, hu, by omega⟩] at hline
    obtain ⟨hfirst, hlast⟩ : first ≤ e.2 ∧ e.2 ≤ last := by simpa using hline
    exact he.covers (by omega) hfirst hlast

/-- Where the stream decodes, a range of lines yields exactly the instructions with these lines if
and only if the statements of the lines cover all of them. -/
theorem instructionsIn_lines_eq_iff (hnone : d.instructions.failure = none) (first last : Nat) :
    d.instructionsIn (.lines first last) =
        ⟨d.instructions.items.filter (Instruction.hasLineWithin first last), none⟩ ↔
      ∀ i ∈ d.instructions.items, i.hasLineWithin first last = true →
        d.code.lineTable.Covers first last d.code.size i.offset := by
  rw [instructionsIn_lines_eq hnone, Trace.mk.injEq, and_iff_left rfl, filter_eq_filter_iff]
  refine forall₂_congr fun i _ => ?_
  cases i.hasLineWithin first last <;> simp

/-- When a range of lines yields exactly the instructions with these lines: where the stream
decodes, exactly when the statements of the lines cover all of those instructions. So all ranges do
if all entries in the stream stand where an instruction starts. -/
theorem instructionsIn_lines_iff (hnone : d.instructions.failure = none) :
    (∀ first last, d.instructionsIn (.lines first last) =
        ⟨d.instructions.items.filter (Instruction.hasLineWithin first last), none⟩ ↔
      ∀ i ∈ d.instructions.items, i.hasLineWithin first last = true →
        d.code.lineTable.Covers first last d.code.size i.offset) ∧
    ((∀ e ∈ d.code.lineTable.entries, e.1 < d.code.size →
        ∃ i ∈ d.instructions.items, i.offset = e.1) →
      ∀ first last, d.instructionsIn (.lines first last) =
        ⟨d.instructions.items.filter (Instruction.hasLineWithin first last), none⟩) :=
  ⟨instructionsIn_lines_eq_iff hnone, fun hstarts first last =>
    (instructionsIn_lines_eq_iff hnone first last).2 fun _ hi hline =>
      covers_of_hasLineWithin hstarts hi hline⟩

/-- A step that does nothing, a call with a prefix and a return, with line 1 from the start on and
line 2 from an offset on. -/
def prefixedCall (offset : Nat) : Disassembly where
  code := { CodeObject.empty with
    code := [9, 145, 0, 0, 131, 3, 0, 83]
    lineTable := .ofPairs [(0, 1), (offset, 2)] }
  table := RuntimeVersion.classic.table
  current := none

/-- With an entry at the prefix, every range of lines yields the instructions with these lines. -/
theorem instructionsIn_lines_entry_at_call :
    (prefixedCall 1).instructions.failure = none ∧
      (∀ e ∈ (prefixedCall 1).code.lineTable.entries, e.1 < (prefixedCall 1).code.size →
        ∃ i ∈ (prefixedCall 1).instructions.items, i.offset = e.1) ∧
      ∀ first last, (prefixedCall 1).instructionsIn (.lines first last) =
        ⟨(prefixedCall 1).instructions.items.filter (Instruction.hasLineWithin first last),
          none⟩ := by
  have hnone : (prefixedCall 1).instructions.failure = none := by decide +kernel
  have hstarts : ∀ e ∈ (prefixedCall 1).code.lineTable.entries, e.1 < (prefixedCall 1).code.size →
      ∃ i ∈ (prefixedCall 1).instructions.items, i.offset = e.1 := by
    decide +kernel
  exact ⟨hnone, hstarts, (instructionsIn_lines_iff hnone).2 hstarts⟩

/-- With an entry behind the prefix, the call and the return have line 2, and the range of this line
yields the return only. -/
theorem instructionsIn_lines_loses_call :
    (prefixedCall 4).instructions.failure = none ∧
      ((prefixedCall 4).instructions.items.filter (Instruction.hasLineWithin 2 2)).map
        Instruction.offset = [1, 7] ∧
      ((prefixedCall 4).instructionsIn (.lines 2 2)).items.map Instruction.offset = [7] := by
  decide +kernel

end Disassembly

end BytecodeDebugger
