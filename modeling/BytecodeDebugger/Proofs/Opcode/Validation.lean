import BytecodeDebugger.Opcode.Builtin
import Mathlib.Data.List.Sort
import Mathlib.Order.Defs.LinearOrder

/-!
# Opcode tables and their descriptions

A description makes a table exactly if it makes sense, and the table has what the description says,
its opcodes in ascending order. So a table is told by its description up to the order of the
opcodes, and the description of a table makes this table again.

Main facts: `ofDefinition_eq_ok_iff` (which table a description makes), `exists_ofDefinition_iff`
(whether it makes one), `ofDefinition_toDefinition` (a table made again) and
`ofDefinition_is_exact`.
-/

namespace BytecodeDebugger

variable {d e : OperandDescriptor} {ds sorted out : List OperandDescriptor}

/-! ## Descriptors in ascending order -/

/-- Inserting adds the descriptor to the others. -/
theorem insertDescriptor_perm (h : insertDescriptor d ds = .ok out) : out.Perm (d :: ds) := by
  induction ds generalizing out with
  | nil =>
    cases h
    exact .refl _
  | cons a rest ih =>
    simp only [insertDescriptor] at h
    split at h
    · cases h
    · split at h
      · cases h
        exact .refl _
      · split at h
        · cases h
        · next r hr =>
          cases h
          exact ((ih hr).cons a).trans (.swap d a rest)

/-- In ascending order, a descriptor can be inserted if no other one has its opcode. -/
theorem exists_insertDescriptor (hs : ds.Pairwise (·.code < ·.code))
    (hnew : ∀ e ∈ ds, e.code ≠ d.code) : ∃ out, insertDescriptor d ds = .ok out := by
  induction ds with
  | nil => exact ⟨_, rfl⟩
  | cons a rest ih =>
    obtain ⟨ha, hrest⟩ := List.forall_mem_cons.1 hnew
    obtain ⟨r, hr⟩ := ih hs.of_cons hrest
    rw [insertDescriptor, if_neg (Ne.symm ha)]
    split
    · exact ⟨_, rfl⟩
    · rw [hr]
      exact ⟨_, rfl⟩

theorem nodup_codes (hs : ds.Pairwise (·.code < ·.code)) : (ds.map (·.code)).Nodup :=
  List.pairwise_map.2 (hs.imp fun hlt heq => absurd (heq ▸ hlt) (UInt8.lt_irrefl _))

/-- Ordered lists of the same descriptors are the same. -/
theorem eq_of_perm_of_pairwise (hout : out.Pairwise (·.code < ·.code))
    (hsorted : sorted.Pairwise (·.code < ·.code)) (h : out.Perm sorted) : out = sorted :=
  h.eq_of_pairwise (fun _ _ _ _ hlt hgt => absurd hlt (UInt8.lt_asymm hgt)) hout hsorted

/-- Inserting several adds them all. -/
theorem insertDescriptors_perm (h : insertDescriptors sorted ds = .ok out) :
    out.Perm (sorted ++ ds) := by
  induction ds generalizing sorted with
  | nil =>
    cases h
    rw [List.append_nil]
  | cons d rest ih =>
    simp only [insertDescriptors] at h
    split at h
    · cases h
    · next s hs =>
      exact (ih h).trans (((insertDescriptor_perm hs).append_right rest).trans
        List.perm_middle.symm)

/-- Descriptors can be inserted if no opcode is described twice. -/
theorem exists_insertDescriptors (hs : sorted.Pairwise (·.code < ·.code))
    (hnodup : ((sorted ++ ds).map (·.code)).Nodup) :
    ∃ out, insertDescriptors sorted ds = .ok out := by
  induction ds generalizing sorted with
  | nil => exact ⟨_, rfl⟩
  | cons d rest ih =>
    have hperm : (sorted ++ d :: rest).Perm (d :: sorted ++ rest) := List.perm_middle
    rw [(hperm.map _).nodup_iff] at hnodup
    have hnew : ∀ e ∈ sorted, e.code ≠ d.code := fun e he heq =>
      (List.nodup_cons.1 hnodup).1 (List.mem_map.2 ⟨e, List.mem_append_left rest he, heq⟩)
    obtain ⟨s, hinsert⟩ := exists_insertDescriptor hs hnew
    rw [insertDescriptors, hinsert]
    refine ih (pairwise_insertDescriptor hs hinsert) ?_
    exact (((insertDescriptor_perm hinsert).append_right rest).map _).nodup_iff.2 hnodup

/-- In ascending order, the first descriptor of an opcode is the only one. -/
theorem find?_code_eq_some (hs : ds.Pairwise (·.code < ·.code)) {code : UInt8} :
    ds.find? (fun d => d.code == code) = some e ↔ e ∈ ds ∧ e.code = code := by
  induction ds with
  | nil => simp
  | cons a rest ih =>
    obtain ⟨ha, hrest⟩ := List.pairwise_cons.1 hs
    by_cases hcode : a.code = code
    · have hother : ∀ b ∈ rest, b.code ≠ code := fun b hb heq =>
        UInt8.lt_irrefl _ (hcode ▸ heq ▸ ha b hb)
      rw [List.find?_cons_of_pos (by simpa using hcode)]
      grind
    · rw [List.find?_cons_of_neg (by simpa using hcode), ih hrest]
      grind

/-! ## Which table a description makes -/

/-- The description makes sense: operands that have a width have one to four bytes, no opcode is
described twice, and the opcode that widens operands is described and takes one. -/
structure TableDefinition.IsValid (d : TableDefinition) : Prop where
  width : ∀ w, d.format = .variable w → 1 ≤ w ∧ w ≤ 4
  codes : (d.opcodes.map (·.code)).Nodup
  extendedArg : ∃ e ∈ d.opcodes, e.code = d.extendedArg ∧ e.kind.hasOperand = true

/-- The description with its opcodes sorted. -/
def TableDefinition.inOrder (d : TableDefinition) : TableDefinition :=
  { d with opcodes := d.opcodes.mergeSort fun a b => a.code ≤ b.code }

/-- The opcodes of a sorted description ascend, with repetitions if it has some. -/
theorem TableDefinition.pairwise_inOrder (d : TableDefinition) :
    d.inOrder.opcodes.Pairwise (·.code ≤ ·.code) := by
  refine (List.pairwise_mergeSort ?_ ?_ d.opcodes).imp of_decide_eq_true
  · intro a b c hab hbc
    exact decide_eq_true (UInt8.le_trans (of_decide_eq_true hab) (of_decide_eq_true hbc))
  · intro a b
    simpa using UInt8.le_total a.code b.code

/-- The table has what the description says, the opcodes in some order. -/
structure OpcodeTable.IsDescribedBy (t : OpcodeTable) (d : TableDefinition) : Prop where
  version : t.version = d.version
  format : t.format = d.format
  extendedArg : t.extendedArg = d.extendedArg
  compareOps : t.compareOps = d.compareOps
  opcodes : t.opcodes.Perm d.opcodes

/-- Operands have one to four bytes exactly if those that have a width of their own do. -/
theorem operandWidth_bounds_iff {f : InstructionFormat} :
    1 ≤ f.operandWidth ∧ f.operandWidth ≤ 4 ↔ ∀ w, f = .variable w → 1 ≤ w ∧ w ≤ 4 := by
  cases f <;> simp [InstructionFormat.operandWidth]

namespace OpcodeTable

variable {t t' : OpcodeTable} {d : TableDefinition}

theorem get?_eq_some {code : UInt8} : t.get? code = some e ↔ e ∈ t.opcodes ∧ e.code = code :=
  find?_code_eq_some t.sorted

/-- A description describes one table. -/
theorem IsDescribedBy.unique (h : t.IsDescribedBy d) (h' : t'.IsDescribedBy d) : t = t' := by
  have hopcodes : t.opcodes = t'.opcodes :=
    eq_of_perm_of_pairwise t.sorted t'.sorted (h.opcodes.trans h'.opcodes.symm)
  have hversion := h.version.trans h'.version.symm
  have hformat := h.format.trans h'.format.symm
  have hextended := h.extendedArg.trans h'.extendedArg.symm
  have hcompare := h.compareOps.trans h'.compareOps.symm
  cases t
  cases t'
  simp_all

theorem isDescribedBy_toDefinition (t : OpcodeTable) : t.IsDescribedBy t.toDefinition :=
  ⟨rfl, rfl, rfl, rfl, .refl _⟩

/-- The order of the opcodes does not matter. -/
theorem IsDescribedBy.of_perm (h : t.IsDescribedBy d) {ops : List OperandDescriptor}
    (hops : d.opcodes.Perm ops) : t.IsDescribedBy { d with opcodes := ops } :=
  ⟨h.version, h.format, h.extendedArg, h.compareOps, h.opcodes.trans hops⟩

/-- Only a description that makes sense describes a table. -/
theorem IsDescribedBy.isValid (h : t.IsDescribedBy d) : d.IsValid where
  width := h.format ▸ operandWidth_bounds_iff.1 ⟨t.width_pos, t.width_le⟩
  codes := (h.opcodes.map _).nodup_iff.1 (nodup_codes t.sorted)
  extendedArg := by
    obtain ⟨e, hfind, hk⟩ := t.extendedArg_operand
    obtain ⟨he, hcode⟩ := (find?_code_eq_some t.sorted).1 hfind
    exact ⟨e, h.opcodes.mem_iff.1 he, hcode.trans h.extendedArg, hk⟩

/-- The table that comes of a description has what it says. -/
theorem isDescribedBy_of_ofDefinition (h : ofDefinition d = .ok t) : t.IsDescribedBy d := by
  unfold ofDefinition at h
  split at h
  · split at h
    · cases h
    · next sorted hs =>
      split at h
      · cases h
      · split at h
        · cases h
          exact ⟨rfl, rfl, rfl, rfl, insertDescriptors_perm hs⟩
        · cases h
  · cases h

/-- A description that makes sense makes a table: none of the three checks refuses it. -/
theorem exists_ofDefinition (h : d.IsValid) : ∃ t, ofDefinition d = .ok t := by
  obtain ⟨sorted, hs⟩ := exists_insertDescriptors .nil h.codes
  obtain ⟨e, he, hcode, hk⟩ := h.extendedArg
  have hfind : sorted.find? (fun e => e.code == d.extendedArg) = some e :=
    (find?_code_eq_some (pairwise_insertDescriptors .nil hs)).2
      ⟨(insertDescriptors_perm hs).mem_iff.2 he, hcode⟩
  unfold ofDefinition
  rw [dif_pos (operandWidth_bounds_iff.2 h.width)]
  split
  · next hs' => cases hs'.symm.trans hs
  · next s hs' =>
    cases hs'.symm.trans hs
    split
    · next hnone => cases hnone.symm.trans hfind
    · next e' he' =>
      cases he'.symm.trans hfind
      exact ⟨_, dif_pos hk⟩

/-- A description makes the table that it describes. -/
theorem ofDefinition_eq_ok_iff : ofDefinition d = .ok t ↔ t.IsDescribedBy d := by
  constructor
  · exact isDescribedBy_of_ofDefinition
  · intro h
    obtain ⟨t', ht'⟩ := exists_ofDefinition h.isValid
    rw [ht', (isDescribedBy_of_ofDefinition ht').unique h]

/-- A description makes a table exactly if it makes sense. -/
theorem exists_ofDefinition_iff : (∃ t, ofDefinition d = .ok t) ↔ d.IsValid :=
  ⟨fun ⟨_, h⟩ => (isDescribedBy_of_ofDefinition h).isValid, exists_ofDefinition⟩

/-- A table, however it was made, is made again by its description. -/
theorem ofDefinition_toDefinition (t : OpcodeTable) : ofDefinition t.toDefinition = .ok t :=
  ofDefinition_eq_ok_iff.2 t.isDescribedBy_toDefinition

/-- A table is what comes of a description exactly if this describes it. -/
theorem toOption_ofDefinition_eq_some :
    (ofDefinition d).toOption = some t ↔ t.IsDescribedBy d := by
  rw [← ofDefinition_eq_ok_iff]
  cases ofDefinition d <;> simp [Except.toOption]

/-- Whether a table is made, and which one, is not a matter of the order of the opcodes. -/
theorem toOption_ofDefinition_of_perm {ops : List OperandDescriptor} (h : ops.Perm d.opcodes) :
    (ofDefinition { d with opcodes := ops }).toOption = (ofDefinition d).toOption := by
  apply Option.ext
  intro t
  rw [toOption_ofDefinition_eq_some, toOption_ofDefinition_eq_some]
  exact ⟨fun ht => ht.of_perm h, fun ht => ht.of_perm h.symm⟩

/-- The opcodes of a table are those of its description, sorted. -/
theorem IsDescribedBy.opcodes_eq_inOrder (h : t.IsDescribedBy d) :
    t.opcodes = d.inOrder.opcodes := by
  have hperm : t.opcodes.Perm d.inOrder.opcodes :=
    h.opcodes.trans (List.mergeSort_perm _ _).symm
  refine hperm.eq_of_pairwise ?_ (t.sorted.imp UInt8.le_of_lt) d.pairwise_inOrder
  -- `≤` alone does not tell two descriptors of one opcode apart, but the table has no two
  intro a b ha hb hle hge
  have hcode : b.code = a.code := UInt8.le_antisymm hge hle
  have ha' : t.get? a.code = some a := get?_eq_some.2 ⟨ha, rfl⟩
  have hb' : t.get? a.code = some b := get?_eq_some.2 ⟨hperm.mem_iff.2 hb, hcode⟩
  exact Option.some.inj (ha'.symm.trans hb')

/-- The description of a table is the one it was made of, with the opcodes sorted. -/
theorem IsDescribedBy.toDefinition_eq (h : t.IsDescribedBy d) :
    t.toDefinition = d.inOrder := by
  rw [toDefinition, h.version, h.format, h.extendedArg, h.compareOps, h.opcodes_eq_inOrder]
  rfl

theorem IsDescribedBy.get?_eq_some (h : t.IsDescribedBy d) {code : UInt8} :
    t.get? code = some e ↔ e ∈ d.opcodes ∧ e.code = code := by
  rw [OpcodeTable.get?_eq_some, h.opcodes.mem_iff]

/-- Tables are validated exactly and survive their description: a description makes a table exactly
if it makes sense, the order of its opcodes matters neither for whether it does nor for the table,
which has the description with its opcodes sorted, finds what this describes and is made again by
its own description, as each built-in table is. -/
theorem ofDefinition_is_exact (d : TableDefinition) :
    ((∃ t, ofDefinition d = .ok t) ↔ d.IsValid) ∧
      (∀ ops : List OperandDescriptor, ops.Perm d.opcodes →
        (ofDefinition { d with opcodes := ops }).toOption = (ofDefinition d).toOption) ∧
      (∀ t, ofDefinition d = .ok t →
        t.toDefinition = d.inOrder ∧
          (∀ code e, t.get? code = some e ↔ e ∈ d.opcodes ∧ e.code = code) ∧
          ofDefinition t.toDefinition = .ok t) ∧
      ∀ v : RuntimeVersion, ofDefinition v.table.toDefinition = .ok v.table := by
  refine ⟨exists_ofDefinition_iff, fun ops => toOption_ofDefinition_of_perm, ?_,
    fun v => ofDefinition_toDefinition v.table⟩
  intro t h
  have hd : t.IsDescribedBy d := ofDefinition_eq_ok_iff.1 h
  exact ⟨hd.toDefinition_eq, fun code e => hd.get?_eq_some, ofDefinition_toDefinition t⟩

/-- A description that gives the widening opcode first makes the table that the same description in
ascending order makes, and the table has the latter as its description. -/
theorem ofDefinition_is_exact_widening_first :
    let widen : OperandDescriptor := ⟨9, "WIDEN", .immediate⟩
    let pop : OperandDescriptor := ⟨1, "POP", .none⟩
    let d : TableDefinition := ⟨"small", .variable 1, 9, [], [widen, pop]⟩
    ∃ t, ofDefinition d = .ok t ∧ t.toDefinition = { d with opcodes := [pop, widen] } ∧
      (ofDefinition { d with opcodes := [pop, widen] }).toOption = some t ∧
      t.get? 9 = some widen ∧ ofDefinition t.toDefinition = .ok t := by
  intro widen pop d
  obtain ⟨hvalid, hperm, hmade, -⟩ := ofDefinition_is_exact d
  have hd : d.IsValid :=
    { width := by rintro _ ⟨⟩; decide
      codes := by decide
      extendedArg := ⟨widen, by decide, rfl, rfl⟩ }
  obtain ⟨t, ht⟩ := hvalid.2 hd
  obtain ⟨hdescription, hget, hagain⟩ := hmade t ht
  refine ⟨t, ht, ?_, ?_, (hget 9 widen).2 ⟨by decide, rfl⟩, hagain⟩
  · rw [hdescription]
    simp [TableDefinition.inOrder, List.mergeSort, List.MergeSort.Internal.splitInTwo, d, widen,
      pop]
  · rw [hperm [pop, widen] (.swap _ _ _), ht]
    rfl

end OpcodeTable

end BytecodeDebugger
