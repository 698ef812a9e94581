import BytecodeDebugger.Proofs.Decode.FailureOffset
import BytecodeDebugger.Proofs.Listing.Agreement

/-!
# Failures beyond an end offset

A stream that fails to decode can still be asked for what comes before the failure. A range of
offsets ends at the first step beyond its last offset, before the operand of this step is looked at;
but the step has to be read, so a range fails if the very first step beyond it cannot be. A listing
and a selection look at whole instructions, and so they also fail if the operand of the first
instruction beyond the end offset refers to nothing.

Main facts: `instructionsIn_offsets_of_failure`, `selectedInstructions_upToOffset`,
`outcome_renderListing_upToOffset` (what each of the three comes to) and `failure_beyond_endOffset`.
-/

namespace BytecodeDebugger

/-! ## Ranges of offsets -/

namespace Disassembly

variable {d : Disassembly} {targets : List Nat} {failure : Option DecodeError} {line : Option Nat}
  {pos stop reached first last : Nat} {steps : List Step} {e : DecodeError}

/-- What lies beyond an offset is left out by a range that ends there. -/
theorem filter_offsets_eq_nil {is : List Instruction} (hfar : ∀ i ∈ is, last < i.offset) :
    is.filter (fun i => first ≤ i.offset && i.offset ≤ last) = [] := by
  refine List.filter_eq_nil_iff.2 fun i hi => ?_
  have := hfar i hi
  simp
  omega

/-- Where decoding everything fails beyond an offset, a range that ends there yields the
instructions in it, and does not fail if a step beyond the offset can be read. -/
theorem decode_offsets_of_failure (hsteps : Tiles Step.start Step.stop pos steps stop)
    (hfailure : (d.decode targets ⟨0, none, none⟩ failure line steps).failure = some e)
    (hreached : Tiles Instruction.offset Instruction.stop pos
      (d.decode targets ⟨0, none, none⟩ failure line steps).items reached)
    (hlast : last < reached) :
    d.decode targets ⟨first, some last, none⟩ failure line steps =
      ⟨(d.decode targets ⟨0, none, none⟩ failure line steps).items.filter
          fun i => first ≤ i.offset && i.offset ≤ last,
        if steps.any (fun s => last < s.start) then none else some e⟩ := by
  induction steps generalizing pos line with
  | nil => exact congrArg (Trace.mk []) hfailure
  | cons s rest ih =>
    obtain ⟨hstart, hlt, hrest⟩ := hsteps
    rw [decode]
    by_cases hpast : last < s.start
    · -- the first step beyond the offset ends decoding
      have hfar : ∀ i ∈ (d.decode targets ⟨0, none, none⟩ failure line (s :: rest)).items,
          last < i.offset := fun i hi =>
        Nat.lt_of_lt_of_le (hstart ▸ hpast) (hreached.start_le_first hi)
      rw [filter_offsets_eq_nil hfar, List.any_cons, decide_eq_true hpast]
      exact if_pos (decide_eq_true hpast)
    · have hnot : ¬Window.isPast ⟨first, some last, none⟩ s.start = true := by
        simpa [Window.isPast] using hpast
      rw [decode_all_cons] at hfailure hreached ⊢
      rw [if_neg hnot, List.any_cons, decide_eq_false hpast, Bool.false_or]
      dsimp only
      cases hi : d.instruction targets (d.lineAfter line s) s with
      | error e' =>
        -- what fails beyond the offset cannot be the step at hand
        rw [hi] at hreached
        have heq : pos = reached := hreached
        omega
      | ok i =>
        rw [hi] at hfailure hreached
        obtain ⟨-, -, hreached⟩ := hreached
        obtain ⟨hoffset, hstop, -⟩ := place_of_instruction_eq_ok (hstart ▸ hlt) hi
        have hitems := ih hrest hfailure (hstop ▸ hreached)
        have hselects : Window.selects ⟨first, some last, none⟩ s.start (d.lineAfter line s) =
            (first ≤ i.offset && i.offset ≤ last) := by
          simp only [Window.selects, hoffset, Bool.and_true]
          simp
          omega
        rw [hselects, hitems]
        dsimp only [Trace.cons]
        rw [List.filter_cons]
        split <;> rfl

/-- Where decoding fails beyond an offset, a range that ends there yields the instructions in it,
and does not fail if a step beyond the offset can be read. -/
theorem instructionsIn_offsets_of_failure (hfailure : d.instructions.failure = some e)
    (hlast : last < d.reached) (first : Nat) :
    d.instructionsIn (.offsets first (some last)) =
      ⟨d.instructions.items.filter fun i => first ≤ i.offset && i.offset ≤ last,
        if d.steps.items.any (fun s => last < s.start) then none else some e⟩ := by
  obtain ⟨stop, hsteps, -⟩ := d.steps_spans
  exact decode_offsets_of_failure hsteps hfailure d.tiles_reached hlast

end Disassembly

/-! ## Selections and listings -/

namespace ListingPolicy

/-- No bound but an end offset. -/
def upToOffset (style : HighlightStyle) (last : Nat) : ListingPolicy where
  highlight := style
  startLine := none
  endLine := none
  startOffset := 0
  endOffset := some last
  statementCap := none

variable {style : HighlightStyle} {last : Nat} {i : Instruction}

theorem endsBefore_upToOffset (style : HighlightStyle) (last : Nat) (i : Instruction) :
    (upToOffset style last).endsBefore i = decide (last < i.offset) := by
  simp [endsBefore, upToOffset, resolvedEndLine]

theorem hasBegun_upToOffset (style : HighlightStyle) (last : Nat) (i : Instruction) :
    (upToOffset style last).hasBegun i = true := by
  simp [hasBegun, upToOffset]

theorem takes_upToOffset (style : HighlightStyle) (last : Nat) (i : Instruction) :
    (upToOffset style last).takes i = true := by
  rw [takes_eq, hasBegun_upToOffset]
  rfl

end ListingPolicy

/-- A selection that meets an instruction past the end offset takes no notice of a failure. -/
theorem selectFrom_of_isPastEnd {p : ListingPolicy} {failure : Option DecodeError}
    {is : List Instruction} (h : ∃ i ∈ is, p.isPastEnd i = true) :
    selectFrom p failure is = selectFrom p none is := by
  induction is with
  | nil =>
    obtain ⟨i, hi, -⟩ := h
    exact absurd hi List.not_mem_nil
  | cons i rest ih =>
    rw [selectFrom, selectFrom]
    split
    · rfl
    · next hnot =>
      rw [ih]
      obtain ⟨j, hj, hpast⟩ := h
      rcases List.mem_cons.1 hj with rfl | hj
      · exact absurd hpast hnot
      · exact ⟨j, hj, hpast⟩

/-- A selection that meets none fails as decoding does. -/
theorem selectFrom_eq_error {p : ListingPolicy} {e : DecodeError} {is : List Instruction}
    (h : ∀ i ∈ is, p.isPastEnd i = false) : selectFrom p (some e) is = .error e := by
  induction is with
  | nil => rfl
  | cons i rest ih =>
    obtain ⟨hi, hrest⟩ := List.forall_mem_cons.1 h
    rw [selectFrom, ih hrest]
    exact if_neg (Bool.eq_false_iff.1 hi)

namespace Disassembly

variable {d : Disassembly} {last : Nat} {e : DecodeError}

/-- Up to an end offset come the instructions that start at or before it. -/
theorem takeWhile_upToOffset (d : Disassembly) (last : Nat) :
    (d.instructions.items.takeWhile fun i => !decide (last < i.offset)) =
      d.instructions.items.filter fun i => i.offset ≤ last := by
  have hbefore : d.instructions.items.Pairwise fun i j =>
      (!decide (last < j.offset)) = true → (!decide (last < i.offset)) = true := by
    refine d.pairwise_offset_instructions.imp fun {i j} hlt => ?_
    simp
    omega
  rw [takeWhile_eq_filter_of_pairwise hbefore]
  refine List.filter_congr fun i _ => ?_
  rw [Bool.eq_iff_iff]
  simp

/-- A selection up to an end offset fails as decoding does, unless an instruction beyond the end
offset decodes. -/
theorem selectedInstructions_upToOffset (hfailure : d.instructions.failure = some e)
    (style : HighlightStyle) (last : Nat) :
    selectedInstructions d (.upToOffset style last) =
      if ∃ i ∈ d.instructions.items, last < i.offset then
        .ok (d.instructions.items.filter fun i => i.offset ≤ last)
      else .error (.decode e) := by
  have hstart : checkStartLine d.code (.upToOffset style last) = .ok () := rfl
  have hpast : ∀ i, (ListingPolicy.upToOffset style last).isPastEnd i =
      decide (last < i.offset) := fun _ => rfl
  rw [selectedInstructions, hstart, hfailure]
  by_cases hbeyond : ∃ i ∈ d.instructions.items, last < i.offset
  · have hmeets : ∃ i ∈ d.instructions.items,
        (ListingPolicy.upToOffset style last).isPastEnd i = true := by
      simpa only [hpast, decide_eq_true_eq] using hbeyond
    rw [if_pos hbeyond, selectFrom_of_isPastEnd hmeets, selectFrom_eq_ok]
    refine congrArg Except.ok ?_
    rw [← takeWhile_upToOffset]
    exact List.filter_eq_self.2 fun i _ => ListingPolicy.takes_upToOffset style last i
  · have hnone : ∀ i ∈ d.instructions.items,
        (ListingPolicy.upToOffset style last).isPastEnd i = false := by
      simpa only [hpast, decide_eq_false_iff_not, not_exists, not_and] using hbeyond
    rw [if_neg hbeyond, selectFrom_eq_error hnone]

/-- A listing up to an end offset fails as decoding does, unless an instruction beyond the end
offset decodes. -/
theorem outcome_renderListing_upToOffset (hfailure : d.instructions.failure = some e)
    (style : HighlightStyle) (last : Nat) :
    (renderListing d (.upToOffset style last)).outcome =
      if ∃ i ∈ d.instructions.items, last < i.offset then
        .ok (ListingSummary.counting ⟨0, 0, false⟩
          (d.instructions.items.filter fun i => i.offset ≤ last))
      else .error (.decode e) := by
  have hshown : (ListingPolicy.upToOffset style last).shown d.instructions.items =
      d.instructions.items.filter fun i => i.offset ≤ last := by
    rw [ListingPolicy.shown, ← takeWhile_upToOffset]
    simp only [ListingPolicy.endsBefore_upToOffset]
    exact List.filter_eq_self.2 fun i _ => ListingPolicy.hasBegun_upToOffset style last i
  rw [renderListing_of_start rfl, hfailure]
  by_cases hbeyond : ∃ i ∈ d.instructions.items, last < i.offset
  · have hfinishes :
        (ListingPolicy.upToOffset style last).Finishes (some e) d.instructions.items := by
      refine .inr ?_
      simpa only [ListingPolicy.endsBefore_upToOffset, decide_eq_true_eq] using hbeyond
    rw [if_pos hbeyond, outcome_listRows_eq_ok rfl rfl hfinishes, hshown]
  · have hnone : ∀ i ∈ d.instructions.items,
        (ListingPolicy.upToOffset style last).endsBefore i = false := by
      simpa only [ListingPolicy.endsBefore_upToOffset, decide_eq_false_iff_not, not_exists,
        not_and] using hbeyond
    rw [if_neg hbeyond, outcome_listRows_eq_error rfl hnone]

/-- When an end offset shields from a failure beyond it. A range of offsets that ends there yields
the instructions in it, and fails unless a step beyond the end offset can be read. A selection and a
listing without another bound come to the instructions up to there, and fail unless an instruction
beyond the end offset decodes; if one does, then its step can be read. -/
theorem failure_beyond_endOffset (hfailure : d.instructions.failure = some e)
    (hlast : last < d.reached) :
    (∀ first, d.instructionsIn (.offsets first (some last)) =
      ⟨d.instructions.items.filter fun i => first ≤ i.offset && i.offset ≤ last,
        if ∃ s ∈ d.steps.items, last < s.start then none else some e⟩) ∧
    (∀ style, selectedInstructions d (.upToOffset style last) =
      if ∃ i ∈ d.instructions.items, last < i.offset then
        .ok (d.instructions.items.filter fun i => i.offset ≤ last)
      else .error (.decode e)) ∧
    (∀ style, (renderListing d (.upToOffset style last)).outcome =
      if ∃ i ∈ d.instructions.items, last < i.offset then
        .ok (ListingSummary.counting ⟨0, 0, false⟩
          (d.instructions.items.filter fun i => i.offset ≤ last))
      else .error (.decode e)) ∧
    ((∃ i ∈ d.instructions.items, last < i.offset) → ∃ s ∈ d.steps.items, last < s.start) := by
  refine ⟨fun first => ?_, fun style => selectedInstructions_upToOffset hfailure style last,
    fun style => outcome_renderListing_upToOffset hfailure style last, ?_⟩
  · rw [instructionsIn_offsets_of_failure hfailure hlast]
    simp only [List.any_eq_true, decide_eq_true_eq]
  · rintro ⟨i, hi, hbeyond⟩
    obtain ⟨s, hs, hstart, -⟩ := exists_step_at hi
    exact ⟨s, hs, by omega⟩

/-- A return up to offset 0, another one behind it, and then a load that is cut off: the second
return shields from the load. -/
theorem failure_beyond_endOffset_second_return :
    let d := classicStream [83, 83, 100]
    let e := DecodeError.truncated 2 3 1
    d.instructions.failure = some e ∧ 0 < d.reached ∧
      (∀ first, d.instructionsIn (.offsets first (some 0)) =
        ⟨d.instructions.items.filter fun i => first ≤ i.offset && i.offset ≤ 0,
          if ∃ s ∈ d.steps.items, 0 < s.start then none else some e⟩) ∧
      (∀ style, selectedInstructions d (.upToOffset style 0) =
        if ∃ i ∈ d.instructions.items, 0 < i.offset then
          .ok (d.instructions.items.filter fun i => i.offset ≤ 0)
        else .error (.decode e)) ∧
      (∀ style, (renderListing d (.upToOffset style 0)).outcome =
        if ∃ i ∈ d.instructions.items, 0 < i.offset then
          .ok (ListingSummary.counting ⟨0, 0, false⟩
            (d.instructions.items.filter fun i => i.offset ≤ 0))
        else .error (.decode e)) ∧
      ((∃ i ∈ d.instructions.items, 0 < i.offset) → ∃ s ∈ d.steps.items, 0 < s.start) := by
  intro d e
  have hfailure : d.instructions.failure = some e := by decide +kernel
  have hlast : 0 < d.reached := by decide +kernel
  exact ⟨hfailure, hlast, failure_beyond_endOffset hfailure hlast⟩

/-- Right behind a return at offset 0, a load that is cut off is a failure of the range up to offset
0 too. A load of a constant that is not there is none of the range, but one of the listing and the
selection. -/
theorem endOffset_does_not_shield :
    let cutOff := classicStream [83, 100]
    let missing := classicStream [83, 100, 5, 0]
    (cutOff.instructions.failure = some (.truncated 1 3 1) ∧ cutOff.reached = 1 ∧
      (cutOff.instructionsIn (.offsets 0 (some 0))).failure = some (.truncated 1 3 1)) ∧
    (missing.instructions.failure = some (.operandOutOfRange 1 .constIndex 5 0) ∧
      missing.reached = 1 ∧ (missing.instructionsIn (.offsets 0 (some 0))).failure = none ∧
      selectedInstructions missing (.upToOffset .plain 0) =
        .error (.decode (.operandOutOfRange 1 .constIndex 5 0)) ∧
      (renderListing missing (.upToOffset .plain 0)).outcome =
        .error (.decode (.operandOutOfRange 1 .constIndex 5 0))) ∧
    ¬∀ (d : Disassembly) (e : DecodeError) (first last : Nat),
      d.instructions.failure = some e → last < d.reached →
        (d.instructionsIn (.offsets first (some last))).failure = none := by
  intro cutOff missing
  have hfailure : cutOff.instructions.failure = some (.truncated 1 3 1) := by decide +kernel
  have hreached : cutOff.reached = 1 := by decide +kernel
  have hrange : (cutOff.instructionsIn (.offsets 0 (some 0))).failure =
      some (.truncated 1 3 1) := by decide +kernel
  refine ⟨⟨hfailure, hreached, hrange⟩, ?_, fun h => ?_⟩
  · decide +kernel
  · have hnone := h cutOff (.truncated 1 3 1) 0 0 hfailure (by rw [hreached]; decide)
    cases hrange.symm.trans hnone

end Disassembly

end BytecodeDebugger
