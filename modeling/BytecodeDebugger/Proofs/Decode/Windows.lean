import BytecodeDebugger.Proofs.Decode.Coverage

/-!
# Windows on a decoded stream

Each step becomes an instruction that knows the line in effect, the jump targets of the whole stream
and where the program stands. A range leaves steps out but decodes the others in the same way: where
the whole stream decodes, a range yields the instructions of the stream that lie within its window,
up to the first one past it.

Main facts: `decode_forall₂` (which instructions the steps become), `instructionsIn_eq` (what a
range yields) and `instructionsIn_sublist`.
-/

namespace BytecodeDebugger

/-- Every element on the left is related to one on the right. -/
theorem exists_of_mem_left {α β : Type} {R : α → β → Prop} {as : List α} {bs : List β} {a : α}
    (h : List.Forall₂ R as bs) (ha : a ∈ as) : ∃ b ∈ bs, R a b := by
  induction h with
  | nil => exact absurd ha List.not_mem_nil
  | cons hr _ ih =>
    rcases List.mem_cons.1 ha with rfl | ha
    · exact ⟨_, List.mem_cons_self, hr⟩
    · obtain ⟨b, hb, hab⟩ := ih ha
      exact ⟨b, List.mem_cons_of_mem _ hb, hab⟩

namespace Disassembly

variable {d : Disassembly} {targets : List Nat} {failure : Option DecodeError} {line : Option Nat}
  {s : Step} {i : Instruction}

/-- An instruction is what a step becomes, given the line in effect and what its operand refers to.
-/
def Becomes (d : Disassembly) (targets : List Nat) (s : Step) (i : Instruction) : Prop :=
  ∃ line r, d.reference s = .ok r ∧ i = d.instructionOf targets line s r

/-- A step that makes an instruction becomes it, with the line in effect. -/
theorem exists_reference_of_instruction_eq_ok (h : d.instruction targets line s = .ok i) :
    ∃ r, d.reference s = .ok r ∧ i = d.instructionOf targets line s r := by
  rw [instruction_eq] at h
  cases hr : d.reference s with
  | error e =>
    rw [hr] at h
    cases h
  | ok r =>
    rw [hr] at h
    exact ⟨r, rfl, (Except.ok.inj h).symm⟩

/-- Every instruction of a window is what some step becomes, with the line in effect after the steps
up to it. -/
theorem exists_split_of_mem_decode {w : Window} {steps : List Step}
    (hi : i ∈ (d.decode targets w failure line steps).items) :
    ∃ front s back r, steps = front ++ s :: back ∧ d.reference s = .ok r ∧
      i = d.instructionOf targets ((front ++ [s]).foldl d.lineAfter line) s r := by
  induction steps generalizing line with
  | nil => exact absurd hi List.not_mem_nil
  | cons s rest ih =>
    -- what comes after the first step is decoded with the line in effect behind it
    have hrest : i ∈ (d.decode targets w failure (d.lineAfter line s) rest).items →
        ∃ front s' back r, s :: rest = front ++ s' :: back ∧ d.reference s' = .ok r ∧
          i = d.instructionOf targets ((front ++ [s']).foldl d.lineAfter line) s' r := by
      intro hmem
      obtain ⟨front, s', back, r, rfl, hr, rfl⟩ := ih hmem
      exact ⟨s :: front, s', back, r, rfl, hr, rfl⟩
    rw [decode] at hi
    dsimp only at hi
    split at hi
    · exact absurd hi List.not_mem_nil
    · split at hi
      · cases hj : d.instruction targets (d.lineAfter line s) s with
        | error e =>
          rw [hj] at hi
          exact absurd hi List.not_mem_nil
        | ok j =>
          rw [hj] at hi
          rcases List.mem_cons.1 hi with rfl | hmem
          · obtain ⟨r, hr, rfl⟩ := exists_reference_of_instruction_eq_ok hj
            exact ⟨[], s, rest, r, rfl, hr, rfl⟩
          · exact hrest hmem
      · exact hrest hi

/-- Every instruction of the stream is made of one of its steps. -/
theorem exists_step_at (hi : i ∈ d.instructions.items) :
    ∃ s ∈ d.steps.items, s.start = i.offset ∧ s.stop = i.stop := by
  obtain ⟨front, s, back, r, hsteps, -, rfl⟩ := exists_split_of_mem_decode hi
  have hs : s ∈ d.steps.items := hsteps ▸ List.mem_append_cons_self
  exact ⟨s, hs, rfl, (stop_instructionOf hs).symm⟩

/-- Decoding everything fails as its steps do, or at a step whose operand refers to nothing. -/
theorem failure_decode_all (steps : List Step) :
    (d.decode targets ⟨0, none, none⟩ failure line steps).failure = failure ∨
      ∃ s ∈ steps, ∃ e, d.reference s = .error e ∧
        (d.decode targets ⟨0, none, none⟩ failure line steps).failure = some e := by
  induction steps generalizing line with
  | nil => exact .inl rfl
  | cons s rest ih =>
    rw [decode_all_cons, instruction_eq]
    cases hr : d.reference s with
    | error e => exact .inr ⟨s, List.mem_cons_self, e, hr, rfl⟩
    | ok r =>
      rcases ih with hfailure | ⟨s', hs', e, he, hfailure⟩
      · exact .inl hfailure
      · exact .inr ⟨s', List.mem_cons_of_mem s hs', e, he, hfailure⟩

/-- Where everything decodes, each step becomes an instruction, in order. -/
theorem decode_forall₂ {steps : List Step}
    (hnone : (d.decode targets ⟨0, none, none⟩ failure line steps).failure = none) :
    List.Forall₂ (d.Becomes targets) steps
      (d.decode targets ⟨0, none, none⟩ failure line steps).items := by
  induction steps generalizing line with
  | nil => exact .nil
  | cons s rest ih =>
    rw [decode_all_cons] at hnone ⊢
    cases hi : d.instruction targets (d.lineAfter line s) s with
    | error e =>
      rw [hi] at hnone
      cases hnone
    | ok i =>
      rw [hi] at hnone
      obtain ⟨r, hr, rfl⟩ := exists_reference_of_instruction_eq_ok hi
      exact .cons ⟨_, r, hr, rfl⟩ (ih hnone)

/-- Where everything decodes, the instructions of a window are those that it selects, up to the
first one past it. -/
theorem decode_eq_filter (w : Window) {steps : List Step}
    (hnone : (d.decode targets ⟨0, none, none⟩ failure line steps).failure = none) :
    d.decode targets w failure line steps =
      ⟨((d.decode targets ⟨0, none, none⟩ failure line steps).items.takeWhile
        fun i => !w.isPast i.offset).filter fun i => w.selects i.offset i.lineNumber, none⟩ := by
  induction steps generalizing line with
  | nil =>
    have hfailure : failure = none := hnone
    rw [hfailure]
    rfl
  | cons s rest ih =>
    rw [decode_all_cons] at hnone ⊢
    cases hi : d.instruction targets (d.lineAfter line s) s with
    | error e =>
      rw [hi] at hnone
      cases hnone
    | ok i =>
      rw [hi] at hnone
      obtain ⟨r, -, hr⟩ := exists_reference_of_instruction_eq_ok hi
      have hoffset : i.offset = s.start := by rw [hr]; rfl
      have hline : i.lineNumber = d.lineAfter line s := by rw [hr]; rfl
      have hrest := ih hnone
      show d.decode targets w failure line (s :: rest) =
        ⟨List.filter _ (List.takeWhile _ (i :: _)), none⟩
      rw [decode]
      dsimp only
      by_cases hpast : w.isPast s.start = true
      · rw [if_pos hpast, List.takeWhile_cons_of_neg (by simpa [hoffset] using hpast)]
        rfl
      · rw [if_neg hpast, List.takeWhile_cons_of_pos (by simpa [hoffset] using hpast),
          List.filter_cons, hoffset, hline, hi]
        by_cases hselects : w.selects s.start (d.lineAfter line s) = true
        · rw [if_pos hselects, if_pos hselects, hrest]
          rfl
        · rw [if_neg hselects, if_neg hselects, hrest]

/-- Where the stream decodes, a range yields the instructions that its window selects, up to the
first one past it, and does not fail. -/
theorem instructionsIn_eq (hnone : d.instructions.failure = none) (range : DecodeRange) :
    d.instructionsIn range =
      ⟨(d.instructions.items.takeWhile fun i => !(d.window range).isPast i.offset).filter
        fun i => (d.window range).selects i.offset i.lineNumber, none⟩ :=
  decode_eq_filter (d.window range) hnone

/-- Where the stream decodes, the instructions of a range are instructions of the stream, in their
order. -/
theorem instructionsIn_sublist (hnone : d.instructions.failure = none) (range : DecodeRange) :
    (d.instructionsIn range).items.Sublist d.instructions.items := by
  rw [instructionsIn_eq hnone range]
  exact List.filter_sublist.trans (List.takeWhile_sublist _)

end Disassembly

end BytecodeDebugger
