import BytecodeDebugger.Debuggee
import BytecodeDebugger.Proofs.Code.LineTable
import BytecodeDebugger.Proofs.Decode.Lines
import BytecodeDebugger.Proofs.Decode.Spelling
import BytecodeDebugger.Proofs.Decode.Windows

/-!
# The line in effect

A line table looks for the last entry at or before an offset. Decoding carries a line along: it
takes note of an entry where a unit begins, and looks into the table only as long as it knows no
line. So an entry that stands inside the operand of a unit is passed over once a line is known, and
the instructions behind it keep the line from before.

Main facts: `lineNumber_eq_lineUpTo` (what decoding carries along), `lineNumber_eq_or` (the line of
an instruction that no entry cuts in two) and `lineNumber_eq_lineAt?_iff` (when it is the one that
the table finds).
-/

namespace BytecodeDebugger

/-! ## Lines that steps start -/

/-- Where no line starts, the one before is kept. -/
theorem foldl_or_of_none {us : List CodeUnit} {starts : Nat → Option Nat} {line : Option Nat}
    (h : ∀ u ∈ us, starts u.offset = none) :
    us.foldl (fun line u => (starts u.offset).or line) line = line := by
  induction us generalizing line with
  | nil => rfl
  | cons u rest ih =>
    obtain ⟨hu, hrest⟩ := List.forall_mem_cons.1 h
    rw [List.foldl_cons, hu, Option.none_or]
    exact ih hrest

namespace Disassembly

variable {d : Disassembly} {i j : Instruction} {s : Step} {line : Option Nat} {e : Nat × Nat}

/-- A step starts the line of the last entry that stands at one of its units. -/
theorem lineStart_eq_of_unit {u : CodeUnit} (hs : s ∈ d.steps.items)
    (hu : u ∈ d.unitsWithin s.start s.stop) (he : e ∈ d.code.lineTable.entries)
    (hoffset : u.offset = e.1)
    (hlast : ∀ e' ∈ d.code.lineTable.entries, e.1 < e'.1 → s.stop ≤ e'.1) :
    s.lineStart = some e.2 := by
  have hspells := (spells_of_mem_steps hs).1
  rw [hspells.lineStart_eq]
  have htiles := hspells.tiles
  obtain ⟨front, back, hsplit⟩ := List.append_of_mem hu
  rw [hsplit] at htiles ⊢
  obtain ⟨mid, -, hback⟩ := Tiles.append_iff.1 htiles
  -- no line starts at the units behind the one with the entry
  have hnone : ∀ v ∈ back, d.code.lineTable.lineStart? v.offset = none := by
    intro v hv
    by_contra hsome
    obtain ⟨l, hl⟩ := Option.ne_none_iff_exists'.1 hsome
    have hentry := LineTable.lineStart?_eq_some_iff.1 hl
    have hfront := hback.2.2.start_le_first hv
    have hlt := hback.2.1
    have hfirst := hback.1
    have hnext := hback.2.2.first_lt_next hv
    have hstop := hback.2.2.next_le_stop hv
    have hle := hlast _ hentry (by dsimp only; omega)
    dsimp only at hle
    omega
  rw [List.foldl_append, List.foldl_cons, foldl_or_of_none hnone, hoffset,
    LineTable.lineStart?_eq_some_iff.2 he, Option.some_or]

/-- A step without entries starts no line. -/
theorem lineStart_eq_none (hs : s ∈ d.steps.items)
    (hnone : ∀ e ∈ d.code.lineTable.entries, ¬(s.start ≤ e.1 ∧ e.1 < s.stop)) :
    s.lineStart = none := by
  by_contra hsome
  obtain ⟨l, hl⟩ := Option.ne_none_iff_exists'.1 hsome
  obtain ⟨o, hle, hlt, hentry⟩ := Step.mem_entries_of_mem_readAll hs hl
  exact hnone _ hentry ⟨hle, hlt⟩

/-- A unit begins where a step does. -/
theorem exists_unit_start (hs : s ∈ d.steps.items) : ∃ u ∈ d.units, u.offset = s.start := by
  have hspells := (spells_of_mem_steps hs).1
  have htiles := hspells.tiles
  obtain ⟨u, rest, hunits⟩ := List.exists_cons_of_ne_nil hspells.ne_nil
  have hu : u ∈ d.unitsWithin s.start s.stop := hunits ▸ List.mem_cons_self
  rw [hunits] at htiles
  exact ⟨u, (List.mem_filter.1 hu).1, htiles.1⟩

/-! ## What decoding carries along -/

/-- The line that decoding knows after the steps that start at or before an offset. -/
def lineUpTo (d : Disassembly) (offset : Nat) : Option Nat :=
  (d.steps.items.filter fun s => s.start ≤ offset).foldl d.lineAfter none

/-- The steps that start at or before an offset are those up to an earlier one, and those behind. -/
theorem filter_steps_append (d : Disassembly) {offset offset' : Nat} (hle : offset ≤ offset') :
    (d.steps.items.filter fun s => s.start ≤ offset') =
      (d.steps.items.filter fun s => s.start ≤ offset) ++
        d.steps.items.filter fun s => offset < s.start && s.start ≤ offset' := by
  obtain ⟨reached, htiles, -⟩ := d.steps_spans
  have hpair := htiles.pairwise_first
  generalize d.steps.items = steps at hpair
  induction steps with
  | nil => rfl
  | cons s rest ih =>
    obtain ⟨hs, hrest⟩ := List.pairwise_cons.1 hpair
    by_cases hstart : s.start ≤ offset
    · rw [List.filter_cons_of_pos (by simpa using Nat.le_trans hstart hle),
        List.filter_cons_of_pos (by simpa using hstart),
        List.filter_cons_of_neg (by simp; omega), ih hrest]
      rfl
    · -- all steps from here on lie behind the earlier offset
      have hbehind : ∀ s' ∈ s :: rest, offset < s'.start :=
        List.forall_mem_cons.2 ⟨by omega, fun s' hs' => by have := hs s' hs'; omega⟩
      have hnone : ((s :: rest).filter fun s' => s'.start ≤ offset) = [] :=
        List.filter_eq_nil_iff.2 fun s' hs' => by simpa using hbehind s' hs'
      rw [hnone, List.nil_append]
      exact List.filter_congr fun s' hs' => by simp [hbehind s' hs']

/-- The line of an instruction is what decoding knows after the steps up to its own one. -/
theorem lineNumber_eq_lineUpTo (hi : i ∈ d.instructions.items) :
    i.lineNumber = d.lineUpTo i.offset := by
  obtain ⟨front, s, back, r, hsteps, -, rfl⟩ := exists_split_of_mem_decode hi
  obtain ⟨reached, htiles, -⟩ := d.steps_spans
  rw [hsteps] at htiles
  have hpair := List.pairwise_append.1 htiles.pairwise_first
  have hfront : front.filter (fun s' => s'.start ≤ s.start) = front :=
    List.filter_eq_self.2 fun s' hs' => by
      simpa using Nat.le_of_lt (hpair.2.2 s' hs' s List.mem_cons_self)
  have hback : back.filter (fun s' => s'.start ≤ s.start) = [] :=
    List.filter_eq_nil_iff.2 fun s' hs' => by
      simpa using (List.pairwise_cons.1 hpair.2.1).1 s' hs'
  show List.foldl d.lineAfter none (front ++ [s]) =
    (d.steps.items.filter fun s' => s'.start ≤ s.start).foldl d.lineAfter none
  rw [hsteps, List.filter_append, List.filter_cons_of_pos (by simp), hfront, hback]

/-- Over steps that start no line, what is known stays known, and what is not known is looked up. -/
theorem foldl_lineAfter_of_silent {steps : List Step} {found : Option Nat}
    (h : ∀ s ∈ steps, s.lineStart = none ∧ d.code.lineTable.lineAt? s.start = found)
    (hne : steps ≠ []) : steps.foldl d.lineAfter line = line.or found := by
  induction steps generalizing line with
  | nil => exact absurd rfl hne
  | cons s rest ih =>
    obtain ⟨⟨hstart, hfound⟩, hrest⟩ := List.forall_mem_cons.1 h
    have hafter : d.lineAfter line s = line.or found := by
      unfold lineAfter
      rw [hstart]
      cases line with
      | none => exact hfound
      | some l => rfl
    rw [List.foldl_cons, hafter]
    cases rest with
    | nil => rfl
    | cons s' rest =>
      rw [ih hrest (List.cons_ne_nil s' rest)]
      cases line <;> cases found <;> rfl

/-! ## Both sides -/

/-- No entry cuts the instruction in two. -/
def IsWhole (d : Disassembly) (i : Instruction) : Prop :=
  ∀ e ∈ d.code.lineTable.entries, ¬(i.offset < e.1 ∧ e.1 < i.stop)

instance (d : Disassembly) (i : Instruction) : Decidable (d.IsWhole i) :=
  inferInstanceAs (Decidable (∀ e ∈ d.code.lineTable.entries, ¬(i.offset < e.1 ∧ e.1 < i.stop)))

/-- The entry in effect at an instruction stands in some instruction. -/
theorem exists_instruction_contains (hi : i ∈ d.instructions.items)
    (he : d.code.lineTable.InEffect i.offset e) :
    ∃ j ∈ d.instructions.items, j.offset ≤ e.1 ∧ e.1 < j.stop := by
  obtain ⟨reached, htiles, -⟩ := d.instructions_spans
  have hbefore := he.le
  have hlt := htiles.first_lt_next hi
  have hstop := htiles.next_le_stop hi
  exact htiles.exists_contains (Nat.zero_le e.1) (by omega)

/-- The instruction of a step that starts a line has this line. -/
theorem lineNumber_eq_of_lineStart {l : Nat} (hi : i ∈ d.instructions.items)
    (hs : s ∈ d.steps.items) (hstart : s.start = i.offset) (hl : s.lineStart = some l) :
    i.lineNumber = some l := by
  obtain ⟨front, s', back, r, hsteps, -, rfl⟩ := exists_split_of_mem_decode hi
  obtain ⟨reached, htiles, -⟩ := d.steps_spans
  have hs' : s' ∈ d.steps.items := hsteps ▸ List.mem_append_cons_self
  have hstart' : s.start = s'.start := hstart
  have hlt := htiles.first_lt_next hs
  have hlt' := htiles.first_lt_next hs'
  obtain rfl : s = s' := htiles.eq_of_contains hs hs' (c := s.start) (by omega) (by omega)
  show (front ++ [s]).foldl d.lineAfter none = some l
  rw [List.foldl_append, List.foldl_cons, List.foldl_nil]
  unfold lineAfter
  rw [hl]

/-- Up to an instruction that no entry cuts in two, a step starts no line if all entries from its
start on lie behind the start of the instruction. -/
theorem lineStart_eq_none_of_isWhole (hi : i ∈ d.instructions.items) (hwhole : d.IsWhole i)
    (hs : s ∈ d.steps.items) (hle : s.start ≤ i.offset)
    (hnone : ∀ e ∈ d.code.lineTable.entries, s.start ≤ e.1 → i.offset < e.1) :
    s.lineStart = none := by
  refine lineStart_eq_none hs fun e he ⟨hstart, hstop⟩ => ?_
  have hlt := hnone e he hstart
  -- the entry would cut the instruction, since both lie in one step
  obtain ⟨s', hs', hstart', hstop'⟩ := exists_step_at hi
  obtain ⟨reached, htiles, -⟩ := d.steps_spans
  have hlt' := htiles.first_lt_next hs'
  obtain rfl : s = s' := htiles.eq_of_contains hs hs' (c := i.offset) (by omega) (by omega)
  exact hwhole e he ⟨hlt, by omega⟩

/-- Up to an instruction that no entry cuts in two, the steps behind the one where the entry in
effect stands start no line, and this entry is in effect there. -/
theorem silent_of_inEffect (hi : i ∈ d.instructions.items) (hwhole : d.IsWhole i)
    (he : d.code.lineTable.InEffect i.offset e) (hs : s ∈ d.steps.items) (hbefore : e.1 < s.start)
    (hle : s.start ≤ i.offset) :
    s.lineStart = none ∧ d.code.lineTable.lineAt? s.start = some e.2 := by
  refine ⟨lineStart_eq_none_of_isWhole hi hwhole hs hle fun e' he' hafter => ?_,
    (he.of_le (Nat.le_of_lt hbefore) hle).lineAt?_eq⟩
  by_contra hnot
  have := he.last e' he' (Nat.not_lt.1 hnot)
  omega

/-- If the entry in effect at an instruction that no entry cuts in two stands at a unit then the
step of this unit starts its line. -/
theorem lineStart_eq_of_inEffect {u : CodeUnit} (hi : i ∈ d.instructions.items)
    (hwhole : d.IsWhole i) (he : d.code.lineTable.InEffect i.offset e) (hs : s ∈ d.steps.items)
    (hu : u ∈ d.units) (hoffset : u.offset = e.1) (hin : s.start ≤ e.1 ∧ e.1 < s.stop) :
    s.lineStart = some e.2 := by
  have hwithin : u ∈ d.unitsWithin s.start s.stop := by
    refine List.mem_filter.2 ⟨hu, ?_⟩
    rw [Bool.and_eq_true, decide_eq_true_eq, decide_eq_true_eq]
    omega
  refine lineStart_eq_of_unit hs hwithin he.mem hoffset fun e' he' hafter => ?_
  have hbefore := he.le
  have hbehind : i.offset < e'.1 := by
    by_contra hnot
    have := he.last e' he' (Nat.not_lt.1 hnot)
    omega
  -- the later entry lies behind the start of the instruction, so in this step it would cut it
  by_contra hnot
  obtain ⟨s', hs', hstart', hstop'⟩ := exists_step_at hi
  obtain ⟨reached, htiles, -⟩ := d.steps_spans
  have hlt := htiles.first_lt_next hs'
  obtain rfl : s = s' := htiles.eq_of_contains hs hs' (c := i.offset) (by omega) (by omega)
  exact hwhole e' he' ⟨hbehind, by omega⟩

/-- An instruction that no entry cuts in two has the line of the instruction where the entry in
effect stands, or the line of this entry if that one has none. -/
theorem lineNumber_eq_or (hi : i ∈ d.instructions.items) (hj : j ∈ d.instructions.items)
    (hwhole : d.IsWhole i) (he : d.code.lineTable.InEffect i.offset e)
    (hle : j.offset ≤ e.1) (hlt : e.1 < j.stop) :
    i.lineNumber = j.lineNumber.or (some e.2) := by
  obtain ⟨s, hs, hstart, hstop⟩ := exists_step_at hi
  rcases Nat.lt_or_eq_of_le he.le with hbefore | hat
  · obtain ⟨t, ht, htstart, htstop⟩ := exists_step_at hj
    obtain ⟨reached, htiles, -⟩ := d.steps_spans
    have hmid : ∀ u ∈ d.steps.items.filter fun u => j.offset < u.start && u.start ≤ i.offset,
        u.lineStart = none ∧ d.code.lineTable.lineAt? u.start = some e.2 := by
      intro u hmem
      obtain ⟨hu, hbounds⟩ := List.mem_filter.1 hmem
      rw [Bool.and_eq_true, decide_eq_true_eq, decide_eq_true_eq] at hbounds
      have hbehind := htiles.next_le_of_first_lt ht hu (by omega)
      exact silent_of_inEffect hi hwhole he hu (by omega) hbounds.2
    have hne : (d.steps.items.filter fun u => j.offset < u.start && u.start ≤ i.offset) ≠ [] := by
      refine List.ne_nil_of_mem (List.mem_filter.2 ⟨hs, ?_⟩)
      rw [Bool.and_eq_true, decide_eq_true_eq, decide_eq_true_eq]
      omega
    calc i.lineNumber = d.lineUpTo i.offset := lineNumber_eq_lineUpTo hi
      _ = (d.steps.items.filter fun u => j.offset < u.start && u.start ≤ i.offset).foldl
            d.lineAfter (d.lineUpTo j.offset) := by
          rw [lineUpTo, d.filter_steps_append (show j.offset ≤ i.offset by omega),
            List.foldl_append]
          rfl
      _ = (d.lineUpTo j.offset).or (some e.2) := foldl_lineAfter_of_silent hmid hne
      _ = j.lineNumber.or (some e.2) := by rw [lineNumber_eq_lineUpTo hj]
  · -- the entry stands where the instruction starts, so it is the instruction's own
    obtain ⟨reached, htiles, -⟩ := d.instructions_spans
    have hnext := htiles.first_lt_next hi
    obtain rfl : i = j := htiles.eq_of_contains hi hj (c := e.1) (by omega) ⟨hle, hlt⟩
    obtain ⟨u, hu, hoffset⟩ := exists_unit_start hs
    have hl : s.lineStart = some e.2 :=
      lineStart_eq_of_inEffect hi hwhole he hs hu (by omega) (by omega)
    rw [lineNumber_eq_of_lineStart hi hs hstart hl]
    rfl

/-- Without an entry at or before it, an instruction that no entry cuts in two has no line. -/
theorem lineNumber_eq_none (hi : i ∈ d.instructions.items) (hwhole : d.IsWhole i)
    (hnone : ∀ e ∈ d.code.lineTable.entries, i.offset < e.1) : i.lineNumber = none := by
  obtain ⟨s, hs, hstart, -⟩ := exists_step_at hi
  have hall : ∀ u ∈ d.steps.items.filter fun u => u.start ≤ i.offset,
      u.lineStart = none ∧ d.code.lineTable.lineAt? u.start = none := by
    intro u hmem
    obtain ⟨hu, hle⟩ := List.mem_filter.1 hmem
    replace hle : u.start ≤ i.offset := of_decide_eq_true hle
    refine ⟨lineStart_eq_none_of_isWhole hi hwhole hu hle fun e he _ => hnone e he, ?_⟩
    rcases d.code.lineTable.lineAt?_cases u.start with ⟨hat, -⟩ | ⟨e, he, -⟩
    · exact hat
    · have := hnone e he.mem
      have := he.le
      omega
  have hne : (d.steps.items.filter fun u => u.start ≤ i.offset) ≠ [] :=
    List.ne_nil_of_mem (List.mem_filter.2 ⟨hs, decide_eq_true (Nat.le_of_eq hstart)⟩)
  calc i.lineNumber = d.lineUpTo i.offset := lineNumber_eq_lineUpTo hi
    _ = none := foldl_lineAfter_of_silent hall hne

/-- If the entry in effect stands at a unit then an instruction that no entry cuts in two has its
line. -/
theorem lineNumber_eq_of_unit (hi : i ∈ d.instructions.items) (hwhole : d.IsWhole i)
    (he : d.code.lineTable.InEffect i.offset e) (hunit : ∃ u ∈ d.units, u.offset = e.1) :
    i.lineNumber = some e.2 := by
  obtain ⟨j, hj, hle, hlt⟩ := exists_instruction_contains hi he
  obtain ⟨s, hs, hstart, hstop⟩ := exists_step_at hj
  obtain ⟨u, hu, hoffset⟩ := hunit
  have hl : s.lineStart = some e.2 :=
    lineStart_eq_of_inEffect hi hwhole he hs hu hoffset (by omega)
  rw [lineNumber_eq_or hi hj hwhole he hle hlt, lineNumber_eq_of_lineStart hj hs hstart hl]
  rfl

/-- When an instruction that no entry cuts in two has the line that the table finds: exactly when
the instruction where the entry in effect stands has the line of this entry, or has no line. So it
has that line at any rate if the entry in effect stands at a unit, and not inside an operand. -/
theorem lineNumber_eq_lineAt?_iff (hi : i ∈ d.instructions.items) (hwhole : d.IsWhole i) :
    (i.lineNumber = d.code.lineTable.lineAt? i.offset ↔
      ∀ e, d.code.lineTable.InEffect i.offset e → ∀ j ∈ d.instructions.items,
        j.offset ≤ e.1 → e.1 < j.stop → j.lineNumber = none ∨ j.lineNumber = some e.2) ∧
    ((∀ e, d.code.lineTable.InEffect i.offset e → ∃ u ∈ d.units, u.offset = e.1) →
      i.lineNumber = d.code.lineTable.lineAt? i.offset) := by
  rcases d.code.lineTable.lineAt?_cases i.offset with ⟨hat, hnone⟩ | ⟨e, he, hat⟩
  · -- no entry is in effect, so there is nothing to disagree about
    have hline := lineNumber_eq_none hi hwhole hnone
    rw [hat]
    refine ⟨⟨fun _ e he => ?_, fun _ => hline⟩, fun _ => hline⟩
    have := hnone e he.mem
    have := he.le
    omega
  · rw [hat]
    refine ⟨⟨fun hline e' he' j hj hle hlt => ?_, fun h => ?_⟩, fun h => ?_⟩
    · obtain rfl := he.unique he'
      have hor := lineNumber_eq_or hi hj hwhole he hle hlt
      rw [hline] at hor
      cases hl : j.lineNumber with
      | none => exact .inl rfl
      | some l =>
        rw [hl] at hor
        exact .inr hor.symm
    · obtain ⟨j, hj, hle, hlt⟩ := exists_instruction_contains hi he
      rw [lineNumber_eq_or hi hj hwhole he hle hlt]
      rcases h e he j hj hle hlt with hl | hl
      · rw [hl, Option.none_or]
      · rw [hl, Option.some_or]
    · exact lineNumber_eq_of_unit hi hwhole he (h e he)

/-- A call and a return, with line 1 from the start on and line 5 from an offset on. -/
def callThenReturn (offset : Nat) : Disassembly where
  code := { CodeObject.empty with
    code := [131, 0, 0, 83]
    lineTable := .ofPairs [(0, 1), (offset, 5)] }
  table := RuntimeVersion.classic.table
  current := none

/-- With an entry at the return, the return has the line that the table finds. -/
theorem lineNumber_eq_lineAt?_at_return :
    ∃ i ∈ (callThenReturn 3).instructions.items, (callThenReturn 3).IsWhole i ∧ i.offset = 3 ∧
      i.lineNumber = (callThenReturn 3).code.lineTable.lineAt? i.offset := by
  obtain ⟨i, hi, hwhole, hoffset⟩ : ∃ i ∈ (callThenReturn 3).instructions.items,
      (callThenReturn 3).IsWhole i ∧ i.offset = 3 := by
    decide +kernel
  have hunits : ∀ e ∈ (callThenReturn 3).code.lineTable.entries,
      ∃ u ∈ (callThenReturn 3).units, u.offset = e.1 := by
    decide +kernel
  exact ⟨i, hi, hwhole, hoffset,
    (lineNumber_eq_lineAt?_iff hi hwhole).2 fun e he => hunits e he.mem⟩

/-- With an entry inside the operand of the call, the return keeps the line of the call, and the
table finds the line of the entry, as a frame does that stands there. -/
theorem lineNumber_ne_lineAt?_behind_operand :
    ∃ i ∈ (callThenReturn 1).instructions.items, (callThenReturn 1).IsWhole i ∧ i.offset = 3 ∧
      i.lineNumber = some 1 ∧ (callThenReturn 1).code.lineTable.lineAt? 3 = some 5 ∧
      (StoppedFrame.mk (callThenReturn 1).code 3).line? = some 5 := by
  decide +kernel

end Disassembly

end BytecodeDebugger
