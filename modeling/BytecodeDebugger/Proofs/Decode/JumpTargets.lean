import BytecodeDebugger.Opcode.Builtin
import BytecodeDebugger.Proofs.Decode.Windows
import Mathlib.Data.List.Forall2

/-!
# Jump targets

The targets of jumps are collected from the steps of a stream before anything is decoded, and what a
jump refers to is found when its step is decoded. Where the stream decodes, both come to the same
offsets. So an instruction is marked as a jump target exactly if some instruction of the stream,
before it or behind it, jumps into it.

Main facts: `mem_jumpTargets_iff` (steps), `jumpOf?_eq_some_iff` (one step and its reference) and
`jumpTargets_agree`.
-/

namespace BytecodeDebugger

namespace ResolvedOperand

/-- A reference found in a table is no jump. -/
theorem pickOperand_map_ne_jump {items : List String} {kind : OperandKind} {value offset t : Nat}
    {f : String → ResolvedOperand} (hf : ∀ text, f text ≠ .jump t) :
    (pickOperand items kind value offset).map (some ∘ f) ≠ .ok (some (.jump t)) := by
  unfold pickOperand
  split
  · next text _ =>
    intro h
    exact hf text (Option.some.inj (Except.ok.inj h))
  · intro h
    cases h

end ResolvedOperand

namespace Disassembly

variable {d : Disassembly} {targets : List Nat} {s : Step} {i : Instruction} {t : Nat}

/-! ## Targets of steps -/

/-- Offsets inserted one after the other join those that were there. -/
theorem mem_foldl_insertOffset_iff {found os : List Nat} :
    t ∈ found.foldl (fun os o => insertOffset o os) os ↔ t ∈ found ∨ t ∈ os := by
  induction found generalizing os with
  | nil => simp
  | cons o rest ih =>
    rw [List.foldl_cons, ih, mem_insertOffset_iff, List.mem_cons, or_left_comm, or_assoc]

/-- The jump targets are the offsets that some step jumps to. -/
theorem mem_jumpTargets_iff : t ∈ d.jumpTargets ↔ ∃ s ∈ d.steps.items, d.jumpOf? s = some t := by
  unfold jumpTargets
  rw [mem_foldl_insertOffset_iff, List.mem_filterMap]
  simp

/-- A step jumps to an offset exactly if its operand refers to it as a jump. -/
theorem jumpOf?_eq_some_iff {r : Option ResolvedOperand} (hr : d.reference s = .ok r) :
    d.jumpOf? s = some t ↔ r = some (.jump t) := by
  unfold jumpOf?
  unfold reference at hr
  cases hv : s.value with
  | none =>
    -- without an operand there is neither a jump nor a reference
    rw [hv] at hr
    cases hr
    simp
  | some v =>
    rw [hv] at hr
    replace hr : resolveOperand d.code d.table (d.table.kind s.opcode) v s.start s.stop = .ok r := hr
    generalize d.table.kind s.opcode = kind at hr
    have htable : ∀ {items : List String} {f : String → ResolvedOperand},
        (∀ text, f text ≠ .jump t) → (pickOperand items kind v s.start).map (some ∘ f) = .ok r →
          r ≠ some (.jump t) := by
      rintro items f hf hpick rfl
      exact ResolvedOperand.pickOperand_map_ne_jump hf hpick
    cases kind with
    | none | immediate =>
      cases hr
      simp [OperandKind.isJump]
    | constIndex | nameIndex | localIndex | compareIndex | freeIndex =>
      simpa [OperandKind.isJump] using htable (fun _ h => by cases h) hr
    | jumpRelative | jumpAbsolute =>
      dsimp only [resolveOperand] at hr
      cases htarget : jumpTarget? _ v s.stop with
      | none =>
        rw [htarget] at hr
        cases hr
      | some target =>
        rw [htarget] at hr
        cases hr
        simp [OperandKind.isJump, htarget]

/-! ## Targets of instructions -/

/-- What a step becomes jumps where the step does. -/
theorem Becomes.jump_iff (h : d.Becomes targets s i) :
    i.resolvedOperand = some (.jump t) ↔ d.jumpOf? s = some t := by
  obtain ⟨line, r, hr, rfl⟩ := h
  exact (jumpOf?_eq_some_iff hr).symm

/-- What a step becomes is marked exactly if a target lies in it. -/
theorem Becomes.isJumpTarget_iff (h : d.Becomes targets s i) (hs : s.start < s.stop) :
    i.isJumpTarget = true ↔ ∃ t ∈ targets, i.offset ≤ t ∧ t < i.stop := by
  obtain ⟨line, r, -, rfl⟩ := h
  have hstop : (d.instructionOf targets line s r).stop = s.stop :=
    Nat.add_sub_cancel' (Nat.le_of_lt hs)
  rw [hstop]
  show (targets.any fun t => s.start ≤ t && t < s.stop) = true ↔ _
  simp only [List.any_eq_true, Bool.and_eq_true, decide_eq_true_eq]
  rfl

theorem forall₂_becomes (hnone : d.instructions.failure = none) :
    List.Forall₂ (d.Becomes d.jumpTargets) d.steps.items d.instructions.items :=
  decode_forall₂ hnone

/-- Every instruction of a stream that decodes is what one of its steps becomes. -/
theorem exists_step_of_mem_instructions (hnone : d.instructions.failure = none)
    (hi : i ∈ d.instructions.items) : ∃ s ∈ d.steps.items, d.Becomes d.jumpTargets s i :=
  exists_of_mem_left (R := flip (d.Becomes d.jumpTargets)) (forall₂_becomes hnone).flip hi

/-- Where the stream decodes, the jump targets are the offsets that its instructions jump to. -/
theorem mem_jumpTargets_iff_exists_jump (hnone : d.instructions.failure = none) :
    t ∈ d.jumpTargets ↔ ∃ j ∈ d.instructions.items, j.resolvedOperand = some (.jump t) := by
  rw [mem_jumpTargets_iff]
  constructor
  · rintro ⟨s, hs, hjump⟩
    obtain ⟨j, hj, hsj⟩ := exists_of_mem_left (forall₂_becomes hnone) hs
    exact ⟨j, hj, hsj.jump_iff.2 hjump⟩
  · rintro ⟨j, hj, hjump⟩
    obtain ⟨s, hs, hsj⟩ := exists_step_of_mem_instructions hnone hj
    exact ⟨s, hs, hsj.jump_iff.1 hjump⟩

/-- Some instruction of the stream jumps into an instruction, to its first byte or further in, and
so into its prefixes too. -/
def JumpsInto (d : Disassembly) (i : Instruction) : Prop :=
  ∃ j ∈ d.instructions.items, ∃ t, j.resolvedOperand = some (.jump t) ∧
    i.offset ≤ t ∧ t < i.offset + i.size

/-- Where the stream decodes, an instruction is marked exactly if some instruction jumps into it. -/
theorem isJumpTarget_iff_jumpsInto (hnone : d.instructions.failure = none)
    (hi : i ∈ d.instructions.items) : i.isJumpTarget = true ↔ d.JumpsInto i := by
  obtain ⟨s, hs, hsi⟩ := exists_step_of_mem_instructions hnone hi
  rw [hsi.isJumpTarget_iff (d.steps_spans.first_lt_next hs)]
  constructor
  · rintro ⟨t, ht, hinto⟩
    obtain ⟨j, hj, hjump⟩ := (mem_jumpTargets_iff_exists_jump hnone).1 ht
    exact ⟨j, hj, t, hjump, hinto⟩
  · rintro ⟨j, hj, t, hjump, hinto⟩
    exact ⟨t, (mem_jumpTargets_iff_exists_jump hnone).2 ⟨j, hj, hjump⟩, hinto⟩

/-- The jumps collected beforehand are those that decoding finds. Where the stream decodes, the jump
targets are the offsets that its instructions jump to, an instruction is marked as a jump target
exactly if some instruction of the stream jumps into it, and every range yields instructions of the
stream as they are, with the same marks. -/
theorem jumpTargets_agree (d : Disassembly) (hnone : d.instructions.failure = none) :
    (∀ t, t ∈ d.jumpTargets ↔
      ∃ j ∈ d.instructions.items, j.resolvedOperand = some (.jump t)) ∧
    (∀ i ∈ d.instructions.items, i.isJumpTarget = true ↔ d.JumpsInto i) ∧
    ∀ range, (d.instructionsIn range).items.Sublist d.instructions.items ∧
      ∀ i ∈ (d.instructionsIn range).items, i.isJumpTarget = true ↔ d.JumpsInto i := by
  refine ⟨fun t => mem_jumpTargets_iff_exists_jump hnone,
    fun i hi => isJumpTarget_iff_jumpsInto hnone hi, fun range => ?_⟩
  have hsublist := instructionsIn_sublist hnone range
  exact ⟨hsublist, fun i hi => isJumpTarget_iff_jumpsInto hnone (hsublist.subset hi)⟩

/-- A jump ahead into the operand of a prefix, a widened jump back to the start, and a return. -/
def loopUnit : Disassembly where
  code := { CodeObject.empty with code := [113, 4, 0, 145, 0, 0, 113, 0, 0, 83] }
  table := RuntimeVersion.classic.table
  current := none

/-- Its jumps lead to the offsets 0 and 4, so its first two instructions are marked. -/
theorem jumpTargets_agree_loop :
    loopUnit.instructions.failure = none ∧
      ((∀ t, t ∈ loopUnit.jumpTargets ↔
        ∃ j ∈ loopUnit.instructions.items, j.resolvedOperand = some (.jump t)) ∧
      (∀ i ∈ loopUnit.instructions.items, i.isJumpTarget = true ↔ loopUnit.JumpsInto i) ∧
      ∀ range, (loopUnit.instructionsIn range).items.Sublist loopUnit.instructions.items ∧
        ∀ i ∈ (loopUnit.instructionsIn range).items,
          i.isJumpTarget = true ↔ loopUnit.JumpsInto i) ∧
      loopUnit.jumpTargets = [0, 4] ∧
      loopUnit.instructions.items.map Instruction.isJumpTarget = [true, true, false] :=
  ⟨by decide +kernel, jumpTargets_agree loopUnit (by decide +kernel), by decide +kernel,
    by decide +kernel⟩

end Disassembly

end BytecodeDebugger
