import BytecodeDebugger.Listing.Format
import BytecodeDebugger.Opcode.Builtin
import BytecodeDebugger.Proofs.Code.LineTable
import BytecodeDebugger.Proofs.Decode.Lines
import BytecodeDebugger.Proofs.Decode.Windows
import BytecodeDebugger.Proofs.Listing.Rows
import Mathlib.Data.List.Nodup
import Mathlib.Data.List.TakeWhile

/-!
# Where a listing and a selection agree

A listing and a selection take the same bounds. Both leave out what lies before the starts of the
policy and end at the end offset. At the end line they differ: a selection leaves out every
instruction that does not lie within it, a listing ends where the first statement beyond it starts.
So they agree exactly when these are the same instructions, which they are where lines ascend.

Main facts: `mem_shown_iff` and `mem_selected_iff` (which instructions are listed, and which are
selected), `cutsAtEndLine_of_ascendFrom` (lines that ascend) and `renderListing_shows_selected_iff`.
-/

namespace BytecodeDebugger

/-- In a list where a property holds up to some place, the part up to there has what has the
property. -/
theorem mem_takeWhile_of_pairwise {α : Type} {P : α → Bool} {as : List α} {a : α}
    (h : as.Pairwise fun x y => P y = true → P x = true) :
    a ∈ as.takeWhile P ↔ a ∈ as ∧ P a = true := by
  rw [takeWhile_eq_filter_of_pairwise h, List.mem_filter]

section keys

variable {α : Type} {key : α → Nat} {as bs cs : List α}

/-- Parts of a list whose keys ascend are equal if they have the same members. -/
theorem eq_of_sublist_of_mem_iff (h : cs.Pairwise fun x y => key x < key y) (has : as.Sublist cs)
    (hbs : bs.Sublist cs) (hmem : ∀ x, x ∈ as ↔ x ∈ bs) : as = bs := by
  have hnodup : cs.Nodup := h.imp fun hlt heq => absurd (heq ▸ hlt) (Nat.lt_irrefl _)
  have hperm := (List.perm_ext_iff_of_nodup (hnodup.sublist has) (hnodup.sublist hbs)).2 hmem
  exact hperm.eq_of_pairwise (fun x y _ _ hxy hyx => absurd hxy (Nat.lt_asymm hyx))
    (h.sublist has) (h.sublist hbs)

/-- Parts of a list whose keys ascend are equal if their keys are. -/
theorem eq_of_sublist_of_map_eq (h : cs.Pairwise fun x y => key x < key y) (has : as.Sublist cs)
    (hbs : bs.Sublist cs) (hkeys : as.map key = bs.map key) : as = bs := by
  have hinj := List.inj_on_of_nodup_map (List.pairwise_map.2 (h.imp Nat.ne_of_lt))
  -- a member of one part has the key of a member of the other, and so is this member
  have hsub : ∀ {xs ys : List α}, xs.Sublist cs → ys.Sublist cs → xs.map key = ys.map key →
      ∀ x ∈ xs, x ∈ ys := by
    intro xs ys hxs hys heq x hx
    obtain ⟨y, hy, hkey⟩ := List.mem_map.1 (heq ▸ List.mem_map_of_mem hx)
    rwa [hinj (hxs.subset hx) (hys.subset hy) hkey.symm]
  exact eq_of_sublist_of_mem_iff h has hbs
    fun x => ⟨hsub has hbs hkeys x, hsub hbs has hkeys.symm x⟩

end keys

/-! ## Bounds -/

namespace ListingPolicy

variable {p : ListingPolicy} {i : Instruction} {is : List Instruction}

/-- The instruction starts past the end offset. -/
def isPastEnd (p : ListingPolicy) (i : Instruction) : Bool := p.endOffset.any fun e => e < i.offset

/-- The instruction starts a statement beyond the end line. -/
def startsBeyond (p : ListingPolicy) (i : Instruction) : Bool :=
  i.startsLine && p.resolvedEndLine.any fun e => i.lineNumber.any fun l => e < l

/-- The instruction has a line that is not beyond the end line, if there is an end line. -/
def isWithinEndLine (p : ListingPolicy) (i : Instruction) : Bool :=
  p.resolvedEndLine.all fun e => i.lineNumber.any fun l => l ≤ e

theorem endsBefore_eq (p : ListingPolicy) (i : Instruction) :
    p.endsBefore i = (p.isPastEnd i || p.startsBeyond i) := rfl

/-- A selection takes what lies after the starts and within the end line. -/
theorem takes_eq (p : ListingPolicy) (i : Instruction) :
    p.takes i = (p.hasBegun i && p.isWithinEndLine i) := by
  unfold takes hasBegun isWithinEndLine
  cases i.lineNumber with
  | none =>
    cases p.startLine with
    | none => cases p.resolvedEndLine <;> simp
    | some s => simp
  | some l =>
    cases p.startLine with
    | none => cases p.resolvedEndLine <;> simp [Bool.and_comm]
    | some s => cases p.resolvedEndLine <;> simp [Bool.and_comm, Bool.and_assoc]

/-- Where offsets ascend, the instructions up to the end offset come before all others. -/
theorem pairwise_isPastEnd (h : is.Pairwise fun i j => i.offset < j.offset) :
    is.Pairwise fun i j => (!p.isPastEnd j) = true → (!p.isPastEnd i) = true := by
  refine h.imp ?_
  intro i j hlt
  unfold isPastEnd
  cases p.endOffset with
  | none => simp
  | some e =>
    simp
    omega

/-- A listing shows what lies after the starts, up to the end offset, and before the first statement
beyond the end line. -/
theorem mem_shown_iff (h : is.Pairwise fun i j => i.offset < j.offset) :
    i ∈ p.shown is ↔
      (i ∈ is.takeWhile fun j => !p.startsBeyond j) ∧ p.isPastEnd i = false ∧
        p.hasBegun i = true := by
  have hsplit : (is.takeWhile fun j => !p.endsBefore j) =
      (is.takeWhile fun j => !p.startsBeyond j).takeWhile fun j => !p.isPastEnd j := by
    rw [List.takeWhile_takeWhile]
    simp [endsBefore_eq]
  have hbefore : (is.takeWhile fun j => !p.startsBeyond j).Pairwise
      fun i j => (!p.isPastEnd j) = true → (!p.isPastEnd i) = true :=
    (pairwise_isPastEnd h).sublist (List.takeWhile_sublist _)
  rw [shown, List.mem_filter, hsplit, mem_takeWhile_of_pairwise hbefore, Bool.not_eq_true',
    and_assoc]

/-- A selection has what lies after the starts, up to the end offset, and within the end line. -/
theorem mem_selected_iff (h : is.Pairwise fun i j => i.offset < j.offset) :
    i ∈ (is.takeWhile fun j => !p.isPastEnd j).filter p.takes ↔
      i ∈ is ∧ p.isPastEnd i = false ∧ p.hasBegun i = true ∧ p.isWithinEndLine i = true := by
  rw [List.mem_filter, mem_takeWhile_of_pairwise (pairwise_isPastEnd h), takes_eq, Bool.and_eq_true,
    Bool.not_eq_true', and_assoc]

/-- The end line cuts the instructions where the first statement beyond it starts: of those that the
other bounds take, the ones within the end line are the ones before that statement. -/
def CutsAtEndLine (p : ListingPolicy) (is : List Instruction) : Prop :=
  ∀ i ∈ is, p.hasBegun i = true → p.isPastEnd i = false →
    (p.isWithinEndLine i = true ↔ i ∈ is.takeWhile fun j => !p.startsBeyond j)

instance : Decidable (p.CutsAtEndLine is) :=
  inferInstanceAs (Decidable (∀ i ∈ is, p.hasBegun i = true → p.isPastEnd i = false →
    (p.isWithinEndLine i = true ↔ i ∈ is.takeWhile fun j => !p.startsBeyond j)))

/-- The same instructions are shown and selected exactly if the end line cuts them. -/
theorem shown_eq_selected_iff (h : is.Pairwise fun i j => i.offset < j.offset) :
    p.shown is = (is.takeWhile fun j => !p.isPastEnd j).filter p.takes ↔ p.CutsAtEndLine is := by
  constructor
  · intro heq i hi hbegun hpast
    have hmem : i ∈ p.shown is ↔ i ∈ (is.takeWhile fun j => !p.isPastEnd j).filter p.takes := by
      rw [heq]
    rw [mem_shown_iff h, mem_selected_iff h] at hmem
    constructor
    · exact fun hwithin => (hmem.2 ⟨hi, hpast, hbegun, hwithin⟩).1
    · exact fun hbefore => (hmem.1 ⟨hbefore, hpast, hbegun⟩).2.2.2
  · intro hcuts
    -- both are parts of one list in ascending order, so the same members are enough
    refine eq_of_sublist_of_mem_iff h (List.filter_sublist.trans (List.takeWhile_sublist _))
      (List.filter_sublist.trans (List.takeWhile_sublist _)) ?_
    intro i
    rw [mem_shown_iff h, mem_selected_iff h]
    constructor
    · rintro ⟨hbefore, hpast, hbegun⟩
      have hi := (List.takeWhile_sublist _).subset hbefore
      exact ⟨hi, hpast, hbegun, (hcuts i hi hbegun hpast).2 hbefore⟩
    · rintro ⟨hi, hpast, hbegun, hwithin⟩
      exact ⟨(hcuts i hi hbegun hpast).1 hwithin, hpast, hbegun⟩

/-- Where lines ascend, what lies within the end line is what comes before the first statement
beyond it. -/
theorem isWithinEndLine_iff_mem_takeWhile {line e : Nat} (hend : p.resolvedEndLine = some e)
    (hline : line ≤ e) (h : AscendFrom line is) (hi : i ∈ is) :
    p.isWithinEndLine i = true ↔ i ∈ is.takeWhile fun j => !p.startsBeyond j := by
  have hwithin : ∀ {i : Instruction} {l}, i.lineNumber = some l →
      (p.isWithinEndLine i = true ↔ l ≤ e) := by
    intro i l hl
    simp [isWithinEndLine, hend, hl]
  induction is generalizing line with
  | nil => exact absurd hi List.not_mem_nil
  | cons j rest ih =>
    obtain ⟨l, hl, hle, hsame, hrest⟩ := h
    by_cases hbeyond : e < l
    · -- the line is another one than before, so a statement starts here
      have hstarts : j.startsLine = true := by
        cases hs : j.startsLine with
        | true => rfl
        | false =>
          have := hsame hs
          omega
      have hj : p.startsBeyond j = true := by simp [startsBeyond, hstarts, hend, hl, hbeyond]
      have hbehind : ∃ l', i.lineNumber = some l' ∧ l ≤ l' := by
        rcases List.mem_cons.1 hi with rfl | hmem
        · exact ⟨l, hl, Nat.le_refl l⟩
        · exact hrest.exists_line hmem
      obtain ⟨l', hl', hle'⟩ := hbehind
      rw [List.takeWhile_cons_of_neg (by simp [hj]), hwithin hl']
      exact ⟨fun _ => by omega, fun hmem => absurd hmem List.not_mem_nil⟩
    · have hj : p.startsBeyond j = false := by simp [startsBeyond, hend, hl, hbeyond]
      have hfirst : p.isWithinEndLine j = true := (hwithin hl).2 (Nat.not_lt.1 hbeyond)
      rw [List.takeWhile_cons_of_pos (by simp [hj]), List.mem_cons]
      rcases List.mem_cons.1 hi with rfl | hmem
      · exact ⟨fun _ => .inl rfl, fun _ => hfirst⟩
      · have hiff := ih (Nat.not_lt.1 hbeyond) hrest hmem
        constructor
        · exact fun hin => .inr (hiff.1 hin)
        · rintro (rfl | hbefore)
          · exact hfirst
          · exact hiff.2 hbefore

/-- Where lines ascend, every policy cuts the instructions at its end line. -/
theorem cutsAtEndLine_of_ascendFrom (h : AscendFrom 0 is) : p.CutsAtEndLine is := by
  intro i hi _ _
  cases hend : p.resolvedEndLine with
  | none =>
    have hall : (is.takeWhile fun j => !p.startsBeyond j) = is := by
      rw [List.takeWhile_eq_self_iff]
      intro j _
      simp [startsBeyond, hend]
    simp [isWithinEndLine, hend, hall, hi]
  | some e => exact isWithinEndLine_iff_mem_takeWhile hend (Nat.zero_le e) h hi

end ListingPolicy

/-! ## Listings and selections of a code object -/

namespace Disassembly

variable {d : Disassembly} {p : ListingPolicy}

theorem pairwise_offset_instructions (d : Disassembly) :
    d.instructions.items.Pairwise fun i j => i.offset < j.offset := by
  obtain ⟨reached, htiles, -⟩ := d.instructions_spans
  exact htiles.pairwise_first

/-- A selection of a code object that decodes, and that the start line does not lie beyond. -/
theorem selectedInstructions_eq_ok (hdecodes : d.instructions.failure = none)
    (hstart : checkStartLine d.code p = .ok ()) :
    selectedInstructions d p =
      .ok ((d.instructions.items.takeWhile fun i => !p.isPastEnd i).filter p.takes) := by
  unfold selectedInstructions
  rw [hstart, hdecodes, selectFrom_eq_ok]
  rfl

/-- Without a cap, the listing of a code object that the start line does not lie beyond is the page
of the instructions shown. -/
theorem writes_renderListing (hcap : p.statementCap = none)
    (hstart : checkStartLine d.code p = .ok ()) :
    (renderListing d p).writes = pageWrites p.highlight 0 (p.shown d.instructions.items) := by
  unfold renderListing
  rw [hstart]
  exact writes_listRows hcap _ _ _

/-- Where the end line cuts the instructions, a listing without a cap has rows for exactly the
instructions selected. -/
theorem renderListing_shows_selected (hdecodes : d.instructions.failure = none)
    (hcap : p.statementCap = none) (hstart : checkStartLine d.code p = .ok ())
    (hcuts : p.CutsAtEndLine d.instructions.items) :
    ∃ is, selectedInstructions d p = .ok is ∧
      (renderListing d p).writes = pageWrites p.highlight 0 is := by
  refine ⟨_, selectedInstructions_eq_ok hdecodes hstart, ?_⟩
  rw [writes_renderListing hcap hstart,
    (ListingPolicy.shown_eq_selected_iff d.pairwise_offset_instructions).2 hcuts]

/-- Where the lines of a code object ascend from the start of its stream on, every listing without a
cap has rows for exactly the instructions selected. -/
theorem renderListing_shows_selected_of_ascending (hdecodes : d.instructions.failure = none)
    (hcap : p.statementCap = none) (hstart : checkStartLine d.code p = .ok ())
    (hfirst : (d.code.lineTable.lineStart? 0).isSome = true)
    (hlines : d.code.lineTable.entries.Pairwise (·.2 ≤ ·.2)) :
    ∃ is, selectedInstructions d p = .ok is ∧
      (renderListing d p).writes = pageWrites p.highlight 0 is :=
  renderListing_shows_selected hdecodes hcap hstart
    (ListingPolicy.cutsAtEndLine_of_ascendFrom (d.instructions_ascendFrom hfirst hlines))

/-- When a listing has rows for exactly the instructions selected: for a code object that decodes,
under a policy without a cap whose start line does not lie beyond the code, exactly when the end
line cuts the instructions where the first statement beyond it starts. -/
theorem renderListing_shows_selected_iff (hdecodes : d.instructions.failure = none)
    (hcap : p.statementCap = none) (hstart : checkStartLine d.code p = .ok ()) :
    (∃ is, selectedInstructions d p = .ok is ∧
      (renderListing d p).writes = pageWrites p.highlight 0 is) ↔
    p.CutsAtEndLine d.instructions.items := by
  refine ⟨?_, renderListing_shows_selected hdecodes hcap hstart⟩
  have hpairwise := d.pairwise_offset_instructions
  rw [selectedInstructions_eq_ok hdecodes hstart, writes_renderListing hcap hstart,
    ← ListingPolicy.shown_eq_selected_iff hpairwise]
  rintro ⟨is, hselected, hwrites⟩
  cases hselected
  -- the offsets on the two pages agree, and instructions are told apart by their offsets
  have hoffsets := congrArg rowOffsets hwrites
  rw [rowOffsets_pageWrites, rowOffsets_pageWrites] at hoffsets
  refine eq_of_sublist_of_map_eq hpairwise ?_ ?_ hoffsets
  · exact List.filter_sublist.trans (List.takeWhile_sublist _)
  · exact List.filter_sublist.trans (List.takeWhile_sublist _)

/-- Three returns, and the lines that they stand on. -/
def returnsOn (first second third : Nat) : Disassembly where
  code := { CodeObject.empty with
    code := [83, 83, 83]
    lineTable := .ofPairs [(0, first), (1, second), (2, third)] }
  table := RuntimeVersion.classic.table
  current := none

/-- Lines up to an end line, without colours. -/
def upToLine (last : Nat) : ListingPolicy :=
  { ListingPolicy.unbounded with highlight := .plain, endLine := some (.absolute last) }

/-- Of returns on the lines 1, 2 and 5, a listing up to line 3 has rows for the first two, which are
the ones selected. -/
theorem renderListing_up_to_line_shows_selected :
    ∃ is, selectedInstructions (returnsOn 1 2 5) (upToLine 3) = .ok is ∧
      (renderListing (returnsOn 1 2 5) (upToLine 3)).writes = pageWrites .plain 0 is :=
  (renderListing_shows_selected_iff (d := returnsOn 1 2 5) (p := upToLine 3)
    (by decide +kernel) rfl (by decide +kernel)).2 (by decide +kernel)

/-- Where lines go back behind a statement beyond the end line, the listing loses them: of returns
on the lines 1, 5 and 2, a listing up to line 3 has a row for the first one only, and the first and
the third are selected. -/
theorem renderListing_loses_line_going_back :
    (returnsOn 1 5 2).instructions.failure = none ∧ (upToLine 3).statementCap = none ∧
      checkStartLine (returnsOn 1 5 2).code (upToLine 3) = .ok () ∧
      rowOffsets (renderListing (returnsOn 1 5 2) (upToLine 3)).writes = [0] ∧
      (selectedInstructions (returnsOn 1 5 2) (upToLine 3)).map (·.map Instruction.offset) =
        .ok [0, 2] := by
  decide +kernel

end Disassembly

end BytecodeDebugger
