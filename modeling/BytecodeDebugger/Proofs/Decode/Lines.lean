import BytecodeDebugger.Proofs.Decode.Coverage

/-!
# The lines of instructions

A step starts a line if an entry of the line table stands at one of its units, and an instruction
that starts none has the line of the one before it. So where the lines of the table ascend, those of
the instructions do, and they change only where a statement starts.

Main facts: `mem_entries_of_mem_readAll` (where the line of a step comes from) and
`instructions_ascendFrom`.
-/

namespace BytecodeDebugger

/-! ## Lines that steps start -/

namespace Step

variable {table : OpcodeTable} {lines : LineTable} {s : Step} {l : Nat}

/-- The line at a unit is that of an entry, or the one before. -/
theorem mem_entries_of_or {pos : Nat} {line : Option Nat}
    (h : (lines.lineStart? pos).or line = some l) : line = some l ∨ (pos, l) ∈ lines.entries := by
  rcases Option.or_eq_some_iff.1 h with hstart | ⟨-, hline⟩
  · exact .inr (LineTable.lineStart?_eq_some_iff.1 hstart)
  · exact .inl hline

/-- The line that a step starts is the one before its unit at hand, or that of an entry at this unit
or behind it in the step. -/
theorem mem_entries_of_read {start pos held : Nat} {line : Option Nat} {opcode : UInt8}
    {tail : List UInt8} (h : read table lines start pos held line opcode tail = .ok s)
    (hl : s.lineStart = some l) :
    line = some l ∨ ∃ o, pos ≤ o ∧ o < s.stop ∧ (o, l) ∈ lines.entries := by
  have hlt := (start_eq_and_lt_stop_of_read h).2
  fun_induction read table lines start pos held line opcode tail with
  | case1 => cases h
  | case2 => cases h
  | case3 => cases h
  | case5 pos held line opcode tail line' kind size =>
    rename_i ih
    have hlt' := (start_eq_and_lt_stop_of_read h).2
    rcases ih h hlt' with hline | ⟨o, hle, hstop, hentry⟩
    · exact (mem_entries_of_or hline).imp id fun hentry => ⟨pos, Nat.le_refl pos, hlt, hentry⟩
    · exact .inr ⟨o, by omega, hstop, hentry⟩
  | case4 pos | case6 pos | case7 pos =>
    cases h
    exact (mem_entries_of_or hl).imp id fun hentry => ⟨pos, Nat.le_refl pos, hlt, hentry⟩

/-- A step starts a line if one came before its unit at hand or starts there. -/
theorem isSome_lineStart_of_read {start pos held : Nat} {line : Option Nat} {opcode : UInt8}
    {tail : List UInt8} (h : read table lines start pos held line opcode tail = .ok s)
    (hline : ((lines.lineStart? pos).or line).isSome = true) : s.lineStart.isSome = true := by
  fun_induction read table lines start pos held line opcode tail with
  | case1 => cases h
  | case2 => cases h
  | case3 => cases h
  | case5 =>
    rename_i ih
    refine ih h ?_
    rw [Option.isSome_or, Bool.or_eq_true]
    exact .inr hline
  | case4 | case6 | case7 =>
    cases h
    exact hline

/-- The line that a step of a stream starts is that of an entry in the step. -/
theorem mem_entries_of_mem_readAll {pos : Nat} {bytes : List UInt8}
    (hs : s ∈ (readAll table lines pos bytes).items) (hl : s.lineStart = some l) :
    ∃ o, s.start ≤ o ∧ o < s.stop ∧ (o, l) ∈ lines.entries := by
  fun_induction readAll table lines pos bytes with
  | case1 => exact absurd hs List.not_mem_nil
  | case2 => exact absurd hs List.not_mem_nil
  | case3 pos opcode tail t hread ih =>
    rcases List.mem_cons.1 hs with rfl | hs
    · have hstart := (start_eq_and_lt_stop_of_read hread).1
      rcases mem_entries_of_read hread hl with hnone | ⟨o, hle, hstop, hentry⟩
      · cases hnone
      · exact ⟨o, by omega, hstop, hentry⟩
    · exact ih hs

/-- The first step of a stream starts a line if an entry stands at its start. -/
theorem isSome_lineStart_of_readAll {pos : Nat} {bytes : List UInt8} {rest : List Step}
    (hitems : (readAll table lines pos bytes).items = s :: rest)
    (hfirst : (lines.lineStart? pos).isSome = true) : s.lineStart.isSome = true := by
  cases bytes with
  | nil =>
    rw [readAll] at hitems
    exact absurd hitems.symm (List.cons_ne_nil s rest)
  | cons opcode tail =>
    rw [readAll] at hitems
    cases hread : read table lines pos pos 0 none opcode tail with
    | error e =>
      rw [hread] at hitems
      exact absurd hitems.symm (List.cons_ne_nil s rest)
    | ok t =>
      rw [hread] at hitems
      obtain ⟨rfl, -⟩ := List.cons.inj hitems
      refine isSome_lineStart_of_read hread ?_
      rwa [Option.or_none]

end Step

/-- Where the lines of a table ascend, an entry further on has no lower line. -/
theorem LineTable.line_le_of_offset_lt {lines : LineTable}
    (h : lines.entries.Pairwise (·.2 ≤ ·.2)) {e e' : Nat × Nat} (he : e ∈ lines.entries)
    (he' : e' ∈ lines.entries) (hlt : e.1 < e'.1) : e.2 ≤ e'.2 := by
  have hsorted := lines.sorted
  generalize lines.entries = es at h he he' hsorted
  induction es with
  | nil => exact absurd he List.not_mem_nil
  | cons a rest ih =>
    obtain ⟨hle, hrest⟩ := List.pairwise_cons.1 h
    obtain ⟨hbehind, hsortedRest⟩ := List.pairwise_cons.1 hsorted
    rcases List.mem_cons.1 he with rfl | hmem
    · rcases List.mem_cons.1 he' with rfl | hmem'
      · exact absurd hlt (Nat.lt_irrefl _)
      · exact hle e' hmem'
    · rcases List.mem_cons.1 he' with rfl | hmem'
      · exact absurd hlt (Nat.lt_asymm (hbehind e hmem))
      · exact ih hrest hmem hmem' hsortedRest

/-! ## Lines of instructions -/

/-- The lines ascend from a line on: every instruction has a line, which is not lower than the one
before, and the same unless a statement starts. -/
def AscendFrom : (line : Nat) → List Instruction → Prop
  | _, [] => True
  | line, i :: rest =>
    ∃ l, i.lineNumber = some l ∧ line ≤ l ∧ (i.startsLine = false → l = line) ∧ AscendFrom l rest

/-- Where lines ascend, all of them are at or above the one at the start. -/
theorem AscendFrom.exists_line {line : Nat} {is : List Instruction} (h : AscendFrom line is)
    {i : Instruction} (hi : i ∈ is) : ∃ l, i.lineNumber = some l ∧ line ≤ l := by
  induction is generalizing line with
  | nil => exact absurd hi List.not_mem_nil
  | cons j rest ih =>
    obtain ⟨l, hl, hle, -, hrest⟩ := h
    rcases List.mem_cons.1 hi with rfl | hi
    · exact ⟨l, hl, hle⟩
    · obtain ⟨l', hl', hle'⟩ := ih hrest hi
      exact ⟨l', hl', Nat.le_trans hle hle'⟩

namespace Disassembly

variable {d : Disassembly} {targets : List Nat} {failure : Option DecodeError}

/-- Where the lines that the steps start ascend, those of the instructions do. -/
theorem decode_ascendFrom {line : Nat} {steps : List Step}
    (hline : ∀ s ∈ steps, ∀ l, s.lineStart = some l → line ≤ l)
    (hsteps : steps.Pairwise
      fun s t => ∀ a b, s.lineStart = some a → t.lineStart = some b → a ≤ b) :
    AscendFrom line (d.decode targets ⟨0, none, none⟩ failure (some line) steps).items := by
  induction steps generalizing line with
  | nil => trivial
  | cons s rest ih =>
    obtain ⟨hs, hrest⟩ := List.pairwise_cons.1 hsteps
    rw [decode_all_cons, instruction_eq]
    cases d.reference s with
    | error e => trivial
    | ok r =>
      cases hstart : s.lineStart with
      | none =>
        have hafter : d.lineAfter (some line) s = some line := by simp [lineAfter, hstart]
        rw [hafter]
        refine ⟨line, rfl, Nat.le_refl line, fun _ => rfl, ih ?_ hrest⟩
        exact fun t ht => hline t (List.mem_cons_of_mem s ht)
      | some l =>
        have hafter : d.lineAfter (some line) s = some l := by simp [lineAfter, hstart]
        rw [hafter]
        refine ⟨l, rfl, hline s List.mem_cons_self l hstart, ?_, ih ?_ hrest⟩
        · intro hnone
          simp [instructionOf, hstart] at hnone
        · exact fun t ht b hb => hs t ht l b hstart hb

/-- Where the lines of a code object ascend from the start of its stream on, those of its
instructions do. -/
theorem instructions_ascendFrom (d : Disassembly)
    (hfirst : (d.code.lineTable.lineStart? 0).isSome = true)
    (hlines : d.code.lineTable.entries.Pairwise (·.2 ≤ ·.2)) :
    AscendFrom 0 d.instructions.items := by
  show AscendFrom 0
    (d.decode d.jumpTargets ⟨0, none, none⟩ d.steps.failure none d.steps.items).items
  have hsteps : d.steps.items.Pairwise
      fun s t => ∀ a b, s.lineStart = some a → t.lineStart = some b → a ≤ b := by
    obtain ⟨reached, htiles, -⟩ := d.steps_spans
    refine htiles.pairwise_next_le.imp_of_mem ?_
    intro s t hs ht hle a b ha hb
    obtain ⟨o, -, hstop, hentry⟩ := Step.mem_entries_of_mem_readAll hs ha
    obtain ⟨o', hstart, -, hentry'⟩ := Step.mem_entries_of_mem_readAll ht hb
    exact LineTable.line_le_of_offset_lt hlines hentry hentry' (by dsimp only; omega)
  cases hitems : d.steps.items with
  | nil => trivial
  | cons s rest =>
    -- the first step starts a line, so no line has to be known before it
    have hsome : s.lineStart.isSome = true := Step.isSome_lineStart_of_readAll hitems hfirst
    have hafter : d.lineAfter none s = d.lineAfter (some 0) s := by
      obtain ⟨l, hl⟩ := Option.isSome_iff_exists.1 hsome
      simp [lineAfter, hl]
    rw [hitems] at hsteps
    have hascend : AscendFrom 0 (d.decode d.jumpTargets ⟨0, none, none⟩ d.steps.failure (some 0)
        (s :: rest)).items := decode_ascendFrom (fun _ _ l _ => Nat.zero_le l) hsteps
    rw [decode_all_cons] at hascend ⊢
    rwa [hafter]

end Disassembly

end BytecodeDebugger
