import BytecodeDebugger.Decode.Instruction
import BytecodeDebugger.Opcode.Builtin
import BytecodeDebugger.Proofs.Decode.Cursor
import BytecodeDebugger.Proofs.Decode.Tiles

/-!
# Decoding covers the stream

The instructions of a code object begin at the start of its stream, follow each other without a gap
and end at the end of the stream. Where an instruction cannot be decoded, the failure lies behind
the last instruction, and nothing comes after it.

Main facts: `readAll_spans` (steps), `decode_spans` (instructions) and `instructions_cover_stream`.
-/

namespace BytecodeDebugger

/-- The steps of a stream tile it up to its end, or up to a failure. -/
theorem Step.readAll_spans (table : OpcodeTable) (lines : LineTable) (pos : Nat)
    (bytes : List UInt8) :
    (readAll table lines pos bytes).Spans Step.start Step.stop pos (pos + bytes.length) := by
  fun_induction readAll table lines pos bytes with
  | case1 pos => exact .done
  | case2 pos opcode tail e hread =>
    obtain ⟨hle, hlt⟩ := offset_of_read_eq_error hread
    exact .failed hle hlt
  | case3 pos opcode tail s hread ih =>
    obtain ⟨hstart, hlt⟩ := start_eq_and_lt_stop_of_read hread
    have hle := stop_le_of_read hread
    have hend : s.stop + (tail.drop (s.stop - pos - 1)).length = pos + (opcode :: tail).length := by
      rw [List.length_drop, List.length_cons]
      omega
    rw [hend] at ih
    exact .cons hstart hlt ih

namespace Disassembly

variable {d : Disassembly} {targets : List Nat} {line : Option Nat} {s : Step} {i : Instruction}

/-- An operand that refers to nothing is a failure of its instruction. -/
theorem offset_of_resolveOperand_eq_error {kind : OperandKind} {value offset next : Nat}
    {e : DecodeError} (h : resolveOperand d.code d.table kind value offset next = .error e) :
    e.offset = offset := by
  -- all tables are looked up in one way
  have hpick : ∀ (items : List String) (f : String → ResolvedOperand),
      (pickOperand items kind value offset).map (some ∘ f) = .error e → e.offset = offset := by
    intro items f hf
    unfold pickOperand at hf
    split at hf
    · simp [Except.map] at hf
    · cases hf
      rfl
  cases kind with
  | none => simp [resolveOperand] at h
  | immediate => simp [resolveOperand] at h
  | constIndex => exact hpick _ _ h
  | nameIndex => exact hpick _ _ h
  | localIndex => exact hpick _ _ h
  | compareIndex => exact hpick _ _ h
  | freeIndex => exact hpick _ _ h
  | jumpRelative =>
    dsimp only [resolveOperand] at h
    split at h
    · cases h
    · cases h
      rfl
  | jumpAbsolute => simp [resolveOperand, jumpTarget?] at h

/-- What the operand of a step refers to. -/
def reference (d : Disassembly) (s : Step) : Except DecodeError (Option ResolvedOperand) :=
  match s.value with
  | some v => resolveOperand d.code d.table (d.table.kind s.opcode) v s.start s.stop
  | none => .ok none

/-- The instruction of a step whose operand refers to something given. -/
def instructionOf (d : Disassembly) (targets : List Nat) (line : Option Nat) (s : Step)
    (r : Option ResolvedOperand) : Instruction where
  offset := s.start
  size := s.stop - s.start
  opcode := s.opcode
  name := d.table.name s.opcode
  operandValue := s.value
  resolvedOperand := r
  lineNumber := line
  startsLine := s.lineStart.isSome
  isJumpTarget := targets.any fun t => s.start ≤ t && t < s.stop
  isCurrent := d.current.any fun c => s.start ≤ c && c < s.stop

theorem instruction_eq (d : Disassembly) (targets : List Nat) (line : Option Nat) (s : Step) :
    d.instruction targets line s = (d.reference s).map (d.instructionOf targets line s) := rfl

/-- A step that makes no instruction fails where it starts. -/
theorem offset_of_instruction_eq_error {e : DecodeError}
    (h : d.instruction targets line s = .error e) : e.offset = s.start := by
  rw [instruction_eq] at h
  cases hr : d.reference s with
  | ok r =>
    rw [hr] at h
    simp [Except.map] at h
  | error e' =>
    rw [hr] at h
    cases h
    unfold reference at hr
    split at hr
    · exact offset_of_resolveOperand_eq_error hr
    · simp at hr

/-- An instruction stands where its step does, and is current if the program stands in its step. -/
theorem place_of_instruction_eq_ok (hs : s.start < s.stop)
    (h : d.instruction targets line s = .ok i) :
    i.offset = s.start ∧ i.stop = s.stop ∧
      i.isCurrent = d.current.any fun c => i.offset ≤ c && c < i.stop := by
  rw [instruction_eq] at h
  cases hr : d.reference s with
  | error e =>
    rw [hr] at h
    simp [Except.map] at h
  | ok r =>
    rw [hr] at h
    cases h
    have hstop : s.start + (s.stop - s.start) = s.stop := Nat.add_sub_cancel' (Nat.le_of_lt hs)
    refine ⟨rfl, hstop, ?_⟩
    show (d.current.any fun c => s.start ≤ c && c < s.stop) =
      d.current.any fun c => s.start ≤ c && c < s.start + (s.stop - s.start)
    rw [hstop]

/-- Decoding everything makes the first step into an instruction, and goes on unless that fails. -/
theorem decode_all_cons {failure : Option DecodeError} {rest : List Step} :
    d.decode targets ⟨0, none, none⟩ failure line (s :: rest) =
      match d.instruction targets (d.lineAfter line s) s with
      | .error e => ⟨[], some e⟩
      | .ok i => (d.decode targets ⟨0, none, none⟩ failure (d.lineAfter line s) rest).cons i := by
  have hpast : ¬Window.isPast ⟨0, none, none⟩ s.start = true := Bool.false_ne_true
  have hselects : Window.selects ⟨0, none, none⟩ s.start (d.lineAfter line s) = true := by
    simp [Window.selects]
  rw [decode, if_neg hpast]
  dsimp only
  refine (if_pos hselects).trans ?_
  cases d.instruction targets (d.lineAfter line s) s <;> rfl

/-- If steps span a stretch, so do the instructions made of them. -/
theorem decode_spans {failure : Option DecodeError} {steps : List Step} {pos stop : Nat}
    (h : (Trace.mk steps failure).Spans Step.start Step.stop pos stop) :
    (d.decode targets ⟨0, none, none⟩ failure line steps).Spans
      Instruction.offset Instruction.stop pos stop := by
  induction steps generalizing pos line with
  | nil =>
    obtain ⟨reached, hreached, hend⟩ := h
    exact ⟨reached, hreached, hend⟩
  | cons s rest ih =>
    obtain ⟨hstart, hlt, hrest⟩ := Trace.Spans.tail (t := ⟨rest, failure⟩) h
    rw [decode_all_cons]
    cases hi : d.instruction targets (d.lineAfter line s) s with
    | error e =>
      -- the failure stands where the step starts, which is before the end of the stretch
      have he := offset_of_instruction_eq_error hi
      have hle := hrest.le
      exact .failed (by omega) (by omega)
    | ok i =>
      obtain ⟨hoffset, hstop, -⟩ := place_of_instruction_eq_ok (hstart ▸ hlt) hi
      exact .cons (hoffset.trans hstart) (hstop ▸ hlt) (hstop ▸ ih hrest)

/-- The current instruction is the one that holds the offset where the program stands. -/
theorem isCurrent_of_mem_decode {failure : Option DecodeError} {steps : List Step}
    (hs : ∀ s ∈ steps, s.start < s.stop)
    (h : i ∈ (d.decode targets ⟨0, none, none⟩ failure line steps).items) :
    i.isCurrent = d.current.any fun c => i.offset ≤ c && c < i.stop := by
  induction steps generalizing line with
  | nil => exact absurd h List.not_mem_nil
  | cons s rest ih =>
    rw [decode_all_cons] at h
    cases hi : d.instruction targets (d.lineAfter line s) s with
    | error e =>
      rw [hi] at h
      exact absurd h List.not_mem_nil
    | ok j =>
      rw [hi] at h
      rcases List.mem_cons.1 h with rfl | h
      · exact (place_of_instruction_eq_ok (hs s List.mem_cons_self) hi).2.2
      · exact ih (fun t ht => hs t (List.mem_cons_of_mem s ht)) h

/-- The steps of a code object tile its stream up to its end, or up to a failure. -/
theorem steps_spans (d : Disassembly) : d.steps.Spans Step.start Step.stop 0 d.code.size := by
  have h := Step.readAll_spans d.table d.code.lineTable 0 d.code.code
  rwa [Nat.zero_add] at h

/-- The instructions of a code object tile its stream up to its end, or up to a failure. -/
theorem instructions_spans (d : Disassembly) :
    d.instructions.Spans Instruction.offset Instruction.stop 0 d.code.size :=
  decode_spans d.steps_spans

theorem stop_instructionOf {r : Option ResolvedOperand} (hs : s ∈ d.steps.items) :
    (d.instructionOf targets line s r).stop = s.stop :=
  Nat.add_sub_cancel' (Nat.le_of_lt (d.steps_spans.first_lt_next hs))

/-- The stream is read without looking outside it and without standing still. Its instructions
follow each other from offset 0 to the end of the stream, or to a failure behind the last of them;
there are no more of them than bytes, so an empty stream has none. Asked for longer than there are
instructions, decoding yields them, then the failure if there is one, and then nothing any more.
If there is no failure, an offset of the stream lies in exactly one current instruction when the
program stands there, and in none when it stands beyond the stream. -/
theorem instructions_cover_stream (d : Disassembly) :
    Step.readAllAt? d.table d.code.lineTable d.code.code 0 = some d.steps ∧
      d.instructions.Spans Instruction.offset Instruction.stop 0 d.code.size ∧
      d.instructions.items.length ≤ d.code.size ∧
      (d.code.code = [] → d.instructions = ⟨[], none⟩) ∧
      (∀ count, d.instructions.items.length < count → d.instructions.drain count =
        (d.instructions.items.map .ok ++ (d.instructions.failure.map .error).toList, ⟨[], none⟩)) ∧
      (d.instructions.failure = none → ∀ c, d.current = some c →
        d.instructions.items.countP Instruction.isCurrent = if c < d.code.size then 1 else 0) := by
  have hspans := d.instructions_spans
  refine ⟨?_, hspans, hspans.length_le, ?_, ?_, ?_⟩
  · exact Step.readAllAt?_eq_some d.table d.code.lineTable d.code.code 0
  · intro hempty
    have hsize : d.code.size = 0 := congrArg List.length hempty
    rw [hsize] at hspans
    exact hspans.eq_nil
  · intro count hcount
    exact Trace.drain_of_length_lt hcount
  · intro hnone c hc
    have htiles := hspans.tiles_of_failure_eq_none hnone
    have hsteps : ∀ s ∈ d.steps.items, s.start < s.stop := by
      obtain ⟨reached, hreached, -⟩ := d.steps_spans
      exact fun s hs => hreached.first_lt_next hs
    -- to be current is to hold the offset, and exactly one piece of a tiling does
    have hcurrent : ∀ i ∈ d.instructions.items,
        i.isCurrent = true ↔ (i.offset ≤ c && c < i.stop) = true := by
      intro i hi
      rw [isCurrent_of_mem_decode hsteps hi, hc, Option.any_some]
    rw [List.countP_congr hcurrent, htiles.countP_contains c]
    simp only [Nat.zero_le, true_and]

/-- A unit of the classic runtime that has a stream and nothing else. -/
def classicStream (bytes : List UInt8) : Disassembly where
  code := { CodeObject.empty with code := bytes }
  table := RuntimeVersion.classic.table
  current := none

/-- A stream that is cut off behind two instructions: they come first, then the failure, and then
nothing any more. In a stream that decodes, the one instruction around the operand where the program
stands is current. -/
theorem instructions_cover_stream_cut_off :
    let cutOff := classicStream [9, 83, 100, 0]
    let widened := { classicStream [145, 1, 0, 131, 2, 0, 83] with current := some 4 }
    cutOff.instructions.Spans Instruction.offset Instruction.stop 0 4 ∧
      cutOff.instructions.items.map Instruction.offset = [0, 1] ∧
      cutOff.instructions.drain 5 =
        (cutOff.instructions.items.map .ok ++ [.error (.truncated 2 3 2)], ⟨[], none⟩) ∧
      widened.instructions.items.map Instruction.offset = [0, 6] ∧
      widened.instructions.items.countP Instruction.isCurrent = 1 := by
  intro cutOff widened
  obtain ⟨-, hspans, -, -, hdrain, -⟩ := instructions_cover_stream cutOff
  obtain ⟨-, -, -, -, -, hcurrent⟩ := instructions_cover_stream widened
  have hfailure : cutOff.instructions.failure = some (.truncated 2 3 2) := by decide +kernel
  refine ⟨hspans, by decide +kernel, ?_, by decide +kernel, ?_⟩
  · rw [hdrain 5 (by decide +kernel), hfailure]
    rfl
  · exact hcurrent (by decide +kernel) 4 rfl

end Disassembly

end BytecodeDebugger
