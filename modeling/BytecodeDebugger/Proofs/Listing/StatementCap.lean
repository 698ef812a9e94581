import BytecodeDebugger.Opcode.Builtin
import BytecodeDebugger.Proofs.Listing.Rows

/-!
# Listings with a cap on statements

A cap ends a listing in front of the first statement more than it allows. Up to there the listing is
the one without a cap: the same rows, counted in the same way.

Main facts: `listRows_withCap` (which rows are left) and `renderListing_withCap`.
-/

namespace BytecodeDebugger

variable {p : ListingPolicy} {cap : Nat} {is front back : List Instruction}
  {failure : Option DecodeError} {summary : ListingSummary}

/-! ## Where a cap cuts -/

/-- A cap on statements cuts instructions in two: in front, no more statements start than it allows,
and the first instruction behind the cut, if there is one, would start one more. -/
structure CutByCap (cap : Nat) (front back : List Instruction) : Prop where
  le : front.countP Instruction.startsLine ≤ cap
  behind : ∀ i ∈ back.head?, i.startsLine = true ∧ front.countP Instruction.startsLine = cap

namespace CutByCap

/-- As many statements start in front as there are, or as the cap allows. -/
theorem countP_eq_min (h : CutByCap cap front back) :
    front.countP Instruction.startsLine =
      min cap ((front ++ back).countP Instruction.startsLine) := by
  have hle := h.le
  rw [List.countP_append]
  cases back with
  | nil => simp [hle]
  | cons i rest =>
    obtain ⟨-, hcount⟩ := h.behind i rfl
    omega

/-- Something lies behind the cut exactly if more statements start than the cap allows. -/
theorem isEmpty_iff (h : CutByCap cap front back) :
    (!back.isEmpty) = decide (cap < (front ++ back).countP Instruction.startsLine) := by
  have hle := h.le
  rw [List.countP_append]
  cases back with
  | nil => exact (decide_eq_false (Nat.not_lt.2 hle)).symm
  | cons i rest =>
    obtain ⟨hstarts, hcount⟩ := h.behind i rfl
    rw [List.countP_cons_of_pos hstarts]
    simp
    omega

/-- One more instruction in front, and one more statement allowed if it starts one. -/
theorem cons (i : Instruction) (h : CutByCap cap front back) :
    CutByCap (cap + [i].countP Instruction.startsLine) (i :: front) back := by
  have hcount : (i :: front).countP Instruction.startsLine =
      front.countP Instruction.startsLine + [i].countP Instruction.startsLine := by
    rw [← List.singleton_append, List.countP_append, Nat.add_comm]
  refine ⟨hcount ▸ Nat.add_le_add_right h.le _, fun j hj => ?_⟩
  obtain ⟨hstarts, hfront⟩ := h.behind j hj
  exact ⟨hstarts, by rw [hcount, hfront]⟩

end CutByCap

/-! ## The rows that are left -/

/-- The policy with a cap on statements. -/
def ListingPolicy.withCap (p : ListingPolicy) (cap : Nat) : ListingPolicy :=
  { p with statementCap := some cap }

/-- Where the cap leaves room for an instruction, it still holds once this has its row. -/
theorem statements_counting_le {i : Instruction} (hle : summary.statements ≤ cap)
    (hroom : i.startsLine = true → summary.statements < cap) :
    summary.statements + [i].countP Instruction.startsLine ≤ cap := by
  rw [List.countP_singleton]
  split
  · next hstarts => exact hroom hstarts
  · exact hle

/-- With a cap, a listing has rows for the instructions shown in front of where the cap cuts
them. -/
theorem listRows_withCap (cap : Nat) (summary : ListingSummary) (hs : summary.capped = false)
    (hle : summary.statements ≤ cap) (h : p.Finishes failure is) :
    ∃ front back, p.shown is = front ++ back ∧ CutByCap (cap - summary.statements) front back ∧
      listRows (p.withCap cap) failure summary is =
        ⟨pageWrites p.highlight summary.rows front,
          .ok { summary.counting front with capped := !back.isEmpty }⟩ := by
  -- a cap changes none of the bounds, so what ends, begins and fills a listing is said about `p`
  induction is generalizing summary with
  | nil =>
    obtain ⟨rows, statements, capped⟩ := summary
    cases hs
    rcases h with rfl | ⟨i, hi, -⟩
    · exact ⟨[], [], rfl, ⟨Nat.zero_le _, nofun⟩, rfl⟩
    · exact absurd hi List.not_mem_nil
  | cons i rest ih =>
    cases hends : p.endsBefore i with
    | true =>
      obtain ⟨rows, statements, capped⟩ := summary
      cases hs
      exact ⟨[], [], ListingPolicy.shown_cons_of_endsBefore hends, ⟨Nat.zero_le _, nofun⟩,
        listRows_cons_of_endsBefore hends⟩
    | false =>
      have hrest := h.tail hends
      rw [ListingPolicy.shown_cons_of_not_endsBefore hends]
      cases hbegun : p.hasBegun i with
      | false =>
        obtain ⟨front, back, hshown, hcut, hrows⟩ := ih summary hs hle hrest
        refine ⟨front, back, hshown, hcut, ?_⟩
        rw [listRows_cons_of_not_hasBegun (p := p.withCap cap) hends hbegun, hrows]
      | true =>
        rw [if_pos rfl]
        by_cases hroom : i.startsLine = true → summary.statements < cap
        · have hle' := statements_counting_le hle hroom
          have hfull : i.startsLine = true → (p.withCap cap).isFull summary = false :=
            fun hstarts => decide_eq_false (Nat.not_le.2 (hroom hstarts))
          obtain ⟨front, back, hshown, hcut, hrows⟩ :=
            ih (summary.counting [i]) rfl hle' hrest
          refine ⟨i :: front, back, congrArg _ hshown, ?_, ?_⟩
          · have hleft : cap - summary.statements =
                cap - (summary.statements + [i].countP Instruction.startsLine) +
                  [i].countP Instruction.startsLine := by omega
            rw [hleft]
            exact hcut.cons i
          · rw [listRows_cons_of_row (p := p.withCap cap) hends hbegun hfull, hrows,
              summary.counting_cons i front]
            rfl
        · -- the cap cuts in front of this statement
          obtain ⟨hstarts, hfull⟩ := Classical.not_imp.1 hroom
          refine ⟨[], i :: p.shown rest, rfl, ⟨Nat.zero_le _, ?_⟩,
            listRows_cons_of_isFull hends hbegun hstarts (decide_eq_true (Nat.not_lt.1 hfull))⟩
          rintro j hj
          cases hj
          refine ⟨hstarts, ?_⟩
          rw [List.countP_nil]
          omega

/-! ## Listings of a code object -/

namespace Disassembly

variable {d : Disassembly} {s : ListingSummary}

/-- A listing that comes to an end has a start line that does not lie beyond the code. -/
theorem checkStartLine_of_outcome_eq_ok (h : (renderListing d p).outcome = .ok s) :
    checkStartLine d.code p = .ok () := by
  unfold renderListing at h
  split at h
  · cases h
  · assumption

/-- A cap on statements only cuts the end of a listing off. Where the listing without a cap comes to
an end, its calls are the page of the instructions shown. With a cap the listing comes to an end
too, and its calls are the page of those in front of the first statement too many, so the whole
output begins with its output. It has as many statements as the whole listing, or as the cap allows,
and it says that it was capped exactly if the whole listing has more. -/
theorem renderListing_withCap (hcap : p.statementCap = none)
    (hok : ((renderListing d p).writeTo Recording.sink (.new [])).1 = .ok s) (cap : Nat) :
    let whole := (renderListing d p).writeTo Recording.sink (.new [])
    let cut := (renderListing d (p.withCap cap)).writeTo Recording.sink (.new [])
    ∃ front back, p.shown d.instructions.items = front ++ back ∧ CutByCap cap front back ∧
      (renderListing d p).writes = pageWrites p.highlight 0 (front ++ back) ∧
      (renderListing d (p.withCap cap)).writes = pageWrites p.highlight 0 front ∧
      whole.2.output = cut.2.output ++
        String.join ((pageWrites p.highlight front.length back).map Write.text) ∧
      s = ⟨(front ++ back).length, (front ++ back).countP Instruction.startsLine, false⟩ ∧
      cut.1 = .ok ⟨front.length, min cap s.statements, decide (cap < s.statements)⟩ := by
  rw [Recording.writeTo_new] at hok
  have hstart := checkStartLine_of_outcome_eq_ok hok
  rw [renderListing_of_start hstart] at hok
  have hfinishes := finishes_of_outcome_eq_ok hcap hok
  obtain ⟨front, back, hshown, hcut, hcapped⟩ :=
    listRows_withCap cap ⟨0, 0, false⟩ rfl (Nat.zero_le cap) hfinishes
  have hwhole : (renderListing d p).writes = pageWrites p.highlight 0 (front ++ back) := by
    rw [renderListing_of_start hstart, writes_listRows hcap, hshown]
  have hsummary : s =
      ⟨(front ++ back).length, (front ++ back).countP Instruction.startsLine, false⟩ := by
    rw [outcome_listRows_eq_ok hcap rfl hfinishes, hshown] at hok
    rw [← Except.ok.inj hok]
    simp [ListingSummary.counting]
  replace hcut : CutByCap cap front back := hcut
  have hlisting : renderListing d (p.withCap cap) = ⟨pageWrites p.highlight 0 front,
      .ok ⟨front.length, front.countP Instruction.startsLine, !back.isEmpty⟩⟩ := by
    rw [renderListing_of_start (p := p.withCap cap) hstart, hcapped]
    simp [ListingSummary.counting]
  dsimp only
  refine ⟨front, back, hshown, hcut, hwhole, ?_, ?_, hsummary, ?_⟩
  · rw [hlisting]
  · rw [Recording.writeTo_new, Recording.writeTo_new, Listing.text, Listing.text, hwhole, hlisting,
      pageWrites_append, List.map_append, String.join_append, Nat.zero_add]
  · rw [Recording.writeTo_new, hlisting, hsummary]
    dsimp only
    rw [← hcut.countP_eq_min, ← hcut.isEmpty_iff]

/-- An instruction without a line, a statement of two instructions on line 4, and one statement on
each of the lines 5 and 6. -/
def threeStatements : Disassembly where
  code := { CodeObject.empty with
    code := [9, 9, 9, 9, 83]
    lineTable := .ofPairs [(1, 4), (3, 5), (4, 6)] }
  table := RuntimeVersion.classic.table
  current := none

/-- A listing from the second instruction on, without colours. -/
def fromOne : ListingPolicy :=
  { ListingPolicy.unbounded with highlight := .plain, startOffset := 1 }

/-- With a cap of two, the listing of three statements ends behind the second one. -/
theorem renderListing_withCap_two :
    let whole := (renderListing threeStatements fromOne).writeTo Recording.sink (.new [])
    let cut := (renderListing threeStatements (fromOne.withCap 2)).writeTo Recording.sink (.new [])
    let s : ListingSummary := ⟨4, 3, false⟩
    fromOne.statementCap = none ∧ whole.1 = .ok s ∧
      ∃ front back, fromOne.shown threeStatements.instructions.items = front ++ back ∧
        CutByCap 2 front back ∧
        (renderListing threeStatements fromOne).writes = pageWrites .plain 0 (front ++ back) ∧
        (renderListing threeStatements (fromOne.withCap 2)).writes = pageWrites .plain 0 front ∧
        whole.2.output = cut.2.output ++
          String.join ((pageWrites .plain front.length back).map Write.text) ∧
        s = ⟨(front ++ back).length, (front ++ back).countP Instruction.startsLine, false⟩ ∧
        cut.1 = .ok ⟨front.length, min 2 s.statements, decide (2 < s.statements)⟩ := by
  intro whole cut s
  have hok : whole.1 = .ok s := by decide +kernel
  exact ⟨rfl, hok, renderListing_withCap rfl hok 2⟩

end Disassembly

end BytecodeDebugger
