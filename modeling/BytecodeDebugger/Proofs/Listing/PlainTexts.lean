import BytecodeDebugger.Opcode.Builtin
import BytecodeDebugger.Proofs.Decimal.Characters
import BytecodeDebugger.Proofs.Decode.Windows
import BytecodeDebugger.Proofs.Listing.Rows
import BytecodeDebugger.Proofs.Text.Escapes

/-!
# Listed texts without ESC

The names and the constants of a code object and of an opcode table are the only texts in a listing
that come from outside. If none of them holds an ESC, neither does anything made of them: what a
constant is shown as, what an operand refers to, a heading, and the wording of a failure.

Main facts: `Constant.IsPlain.shown`, `Disassembly.isPlain_of_mem_instructions`,
`isPlain_message_of_outcome_renderListing` and `RuntimeVersion.isPlain_table`.
-/

namespace BytecodeDebugger

/-! ## Constants -/

namespace Decimal

theorem Binary64.isPlain_shown (x : Binary64) : Text.IsPlain x.shown :=
  fun hmem => absurd (isNumberChar_of_mem_shown hmem) (by decide)

end Decimal

/-- Whether the texts in a constant hold no ESC. -/
def Constant.IsPlain : Constant → Prop
  | .str text => Text.IsPlain text
  | .code name => Text.IsPlain name
  | _ => True

instance : (c : Constant) → Decidable c.IsPlain
  | .str text => inferInstanceAs (Decidable (Text.IsPlain text))
  | .code name => inferInstanceAs (Decidable (Text.IsPlain name))
  | .none | .bool _ | .int _ | .float _ => .isTrue trivial

/-- Only ESC is shown with an ESC. -/
theorem Constant.eq_esc_of_mem_escapeChar {c : Char} (h : '\x1b' ∈ escapeChar c) : c = '\x1b' := by
  unfold escapeChar at h
  split at h
  case h_6 => exact (List.mem_singleton.1 h).symm
  all_goals exact absurd h (by decide)

/-- A constant is shown without ESC if its texts hold none. -/
theorem Constant.IsPlain.shown {c : Constant} (h : c.IsPlain) : Text.IsPlain c.shown := by
  cases c with
  | none => decide
  | bool value => cases value <;> decide
  | int value => exact Text.isPlain_toString_int value
  | float value => exact value.isPlain_shown
  | code name => exact (Text.IsPlain.append (by decide) h).append (by decide)
  | str text =>
    show '\x1b' ∉ (String.ofList (quotedChars text)).toList
    intro hmem
    rw [String.toList_ofList, quotedChars, List.mem_append, List.mem_cons, List.mem_singleton,
      List.mem_flatMap] at hmem
    rcases hmem with (hquote | ⟨c, hc, hshown⟩) | hquote
    · exact absurd hquote (by decide)
    · exact h (eq_esc_of_mem_escapeChar hshown ▸ hc)
    · exact absurd hquote (by decide)

/-! ## Code objects and tables -/

/-- Whether the names and the constants of a code object hold no ESC. -/
structure CodeObject.IsPlain (c : CodeObject) : Prop where
  name : Text.IsPlain c.name
  filename : Text.IsPlain c.filename
  consts : ∀ k ∈ c.consts, k.IsPlain
  names : ∀ t ∈ c.names, Text.IsPlain t
  varnames : ∀ t ∈ c.varnames, Text.IsPlain t
  cellvars : ∀ t ∈ c.cellvars, Text.IsPlain t
  freevars : ∀ t ∈ c.freevars, Text.IsPlain t

/-- Whether the names of a table hold no ESC. -/
structure OpcodeTable.IsPlain (table : OpcodeTable) : Prop where
  opcodes : ∀ d ∈ table.opcodes, Text.IsPlain d.name
  compareOps : ∀ t ∈ table.compareOps, Text.IsPlain t

/-- Whether the names and the constants of a target hold no ESC. -/
def Target.IsPlain : Target → Prop
  | .code unit => unit.IsPlain
  | .container name members =>
    Text.IsPlain name ∧ ∀ m ∈ members.toList, Text.IsPlain m.1 ∧ m.2.IsPlain

theorem RuntimeVersion.isPlain_table (v : RuntimeVersion) : v.table.IsPlain := by
  cases v with
  | classic => exact ⟨by decide +kernel, by decide +kernel⟩
  | wordcode => exact ⟨by decide +kernel, by decide +kernel⟩

/-- A code object is called something without ESC if its names hold none. -/
theorem CodeObject.IsPlain.shown {c : CodeObject} (h : c.IsPlain) : Text.IsPlain c.shown := by
  unfold CodeObject.shown
  split
  · simp only [Text.isPlain_append, h.name]
    decide
  · simp only [Text.isPlain_append, h.name, h.filename, Text.isPlain_toString_nat]
    decide

/-- A described opcode has the name of its descriptor, and another one is shown by its number. -/
theorem OpcodeTable.IsPlain.name {table : OpcodeTable} (h : table.IsPlain) (code : UInt8) :
    Text.IsPlain (table.name code) := by
  unfold OpcodeTable.name get?
  split
  · exact (Text.IsPlain.append (by decide) (Text.isPlain_toString_nat _)).append (by decide)
  · next d hd => exact h.opcodes d (List.mem_of_find?_eq_some hd)

/-! ## Instructions -/

/-- Whether the text that an operand refers to holds no ESC. -/
def ResolvedOperand.IsPlain : ResolvedOperand → Prop
  | .constant text | .name text | .localVariable text | .compare text | .free text =>
    Text.IsPlain text
  | .jump _ => True

/-- Whether the texts of an instruction hold no ESC. -/
structure Instruction.IsPlain (i : Instruction) : Prop where
  name : Text.IsPlain i.name
  operand : ∀ o, i.resolvedOperand = some o → o.IsPlain

/-- An operand that is an index refers to an entry of its table. -/
theorem exists_mem_of_pickOperand {items : List String} {kind : OperandKind} {value offset : Nat}
    {f : String → ResolvedOperand} {o : ResolvedOperand}
    (h : (pickOperand items kind value offset).map (some ∘ f) = .ok (some o)) :
    ∃ text ∈ items, o = f text := by
  unfold pickOperand at h
  split at h
  · next text htext =>
    exact ⟨text, List.mem_of_getElem? htext, (Option.some.inj (Except.ok.inj h)).symm⟩
  · cases h

/-- What an operand refers to holds no ESC if the names and the constants hold none. -/
theorem isPlain_of_resolveOperand {code : CodeObject} {table : OpcodeTable} {kind : OperandKind}
    {value offset next : Nat} {o : ResolvedOperand} (hcode : code.IsPlain) (htable : table.IsPlain)
    (h : resolveOperand code table kind value offset next = .ok (some o)) : o.IsPlain := by
  cases kind with
  | none => cases h
  | immediate => cases h
  | constIndex =>
    obtain ⟨text, htext, rfl⟩ := exists_mem_of_pickOperand h
    obtain ⟨k, hk, rfl⟩ := List.mem_map.1 htext
    exact (hcode.consts k hk).shown
  | nameIndex =>
    obtain ⟨text, htext, rfl⟩ := exists_mem_of_pickOperand h
    exact hcode.names text htext
  | localIndex =>
    obtain ⟨text, htext, rfl⟩ := exists_mem_of_pickOperand h
    exact hcode.varnames text htext
  | compareIndex =>
    obtain ⟨text, htext, rfl⟩ := exists_mem_of_pickOperand h
    exact htable.compareOps text htext
  | freeIndex =>
    obtain ⟨text, htext, rfl⟩ := exists_mem_of_pickOperand h
    rcases List.mem_append.1 htext with hcell | hfree
    · exact hcode.cellvars text hcell
    · exact hcode.freevars text hfree
  | jumpRelative =>
    simp only [resolveOperand] at h
    split at h <;> cases h
    trivial
  | jumpAbsolute =>
    simp only [resolveOperand] at h
    split at h <;> cases h
    trivial

/-- The instructions of a stream hold no ESC if the names and the constants hold none. -/
theorem Disassembly.isPlain_of_mem_instructions {d : Disassembly} (hcode : d.code.IsPlain)
    (htable : d.table.IsPlain) {i : Instruction} (hi : i ∈ d.instructions.items) : i.IsPlain := by
  obtain ⟨front, s, back, r, -, hr, rfl⟩ := exists_split_of_mem_decode hi
  refine ⟨htable.name s.opcode, fun o ho => ?_⟩
  cases ho
  unfold reference at hr
  split at hr
  · exact isPlain_of_resolveOperand hcode htable hr
  · cases hr

/-! ## Headings and failures -/

/-- The bounds in a heading are shown without ESC. -/
theorem ListingPolicy.isPlain_describeBounds (p : ListingPolicy) :
    Text.IsPlain p.describeBounds := by
  have hbound : ∀ (text : String) (n : Nat), Text.IsPlain text →
      Text.IsPlain (text ++ toString n) := fun _ n h => h.append (Text.isPlain_toString_nat n)
  have hempty : Text.IsPlain "" := by decide
  refine .append (.append (.append ?_ ?_) ?_) ?_
  · split
    · split
      · exact hbound _ _ (by decide)
      · exact hempty
    · exact hempty
  · split
    · exact hbound _ _ (by decide)
    · exact hempty
  · split
    · exact hbound _ _ (by decide)
    · exact hempty
  · split
    · exact hbound _ _ (by decide)
    · exact hempty

/-- The wording of a failed decoding holds no ESC. -/
theorem DecodeError.isPlain_message (e : DecodeError) : Text.IsPlain e.message := by
  unfold message
  split
  · next o k i n =>
    have hkind : Text.IsPlain k.shown := by cases k <;> decide
    simp only [Text.isPlain_append, Text.isPlain_toString_nat, hkind]
    decide
  · simp only [Text.isPlain_append, Text.isPlain_toString_nat]
    decide
  · simp only [Text.isPlain_append, Text.isPlain_toString_nat]
    decide

/-- The wording of why a code object is not listed to its end holds no ESC. -/
theorem isPlain_message_of_outcome_renderListing {d : Disassembly} {p : ListingPolicy}
    {e : ListingError} (h : (renderListing d p).outcome = .error e) : Text.IsPlain e.message := by
  rcases Disassembly.error_of_outcome_renderListing h with ⟨cause, rfl⟩ | ⟨line, max, rfl⟩
  · exact cause.isPlain_message
  · unfold ListingError.message
    simp only [Text.isPlain_append, Text.isPlain_toString_nat]
    decide

end BytecodeDebugger
