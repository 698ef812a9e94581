import BytecodeDebugger.Listing.Rows
import Mathlib.Tactic.Common

/-!
# The rows of a listing

What a listing without a cap writes is a page: the rows of some instructions, one after the other,
with a blank line before each statement but the first row. The offset of each row can be read off
the page again, so a page tells which instructions are on it. The listing counts them, unless
decoding fails before anything ends it.

Main facts: `writes_listRows` (which instructions are on the page), `outcome_listRows_eq_ok` and
`outcome_listRows_eq_error` (what the listing comes to), and `rowOffsets_pageWrites` (what can be
read off a page).
-/

namespace BytecodeDebugger

variable {p : ListingPolicy} {i : Instruction} {is : List Instruction}
  {failure : Option DecodeError} {summary : ListingSummary} {e : DecodeError}

/-! ## One instruction more -/

/-- What a listing has come to with rows for further instructions. -/
def ListingSummary.counting (s : ListingSummary) (is : List Instruction) : ListingSummary :=
  ⟨s.rows + is.length, s.statements + is.countP Instruction.startsLine, false⟩

/-- Rows are counted one after the other. -/
theorem ListingSummary.counting_cons (s : ListingSummary) (i : Instruction)
    (is : List Instruction) : s.counting (i :: is) = (s.counting [i]).counting is := by
  simp only [counting, List.length_cons, List.length_nil, List.countP_cons, List.countP_nil,
    mk.injEq, and_true]
  omega

theorem listRows_cons_of_endsBefore (hends : p.endsBefore i = true) :
    listRows p failure summary (i :: is) = .result summary := by
  rw [listRows, if_pos hends]

theorem listRows_cons_of_not_hasBegun (hends : p.endsBefore i = false)
    (hbegun : p.hasBegun i = false) :
    listRows p failure summary (i :: is) = listRows p failure summary is := by
  rw [listRows, if_neg (Bool.eq_false_iff.1 hends), if_neg (Bool.eq_false_iff.1 hbegun)]

/-- A statement more than the cap allows ends the listing. -/
theorem listRows_cons_of_isFull (hends : p.endsBefore i = false) (hbegun : p.hasBegun i = true)
    (hstarts : i.startsLine = true) (hfull : p.isFull summary = true) :
    listRows p failure summary (i :: is) = .result { summary with capped := true } := by
  rw [listRows, if_neg (Bool.eq_false_iff.1 hends), if_pos hbegun, if_pos hstarts, if_pos hfull]

/-- Any other instruction has a row, with a blank line in front if it starts a statement and is not
the first one. -/
theorem listRows_cons_of_row (hends : p.endsBefore i = false) (hbegun : p.hasBegun i = true)
    (hfull : i.startsLine = true → p.isFull summary = false) :
    listRows p failure summary (i :: is) =
      (listRows p failure (summary.counting [i]) is).after
        ((if i.startsLine ∧ 0 < summary.rows then [.line ""] else []) ++
          rowWrites i p.highlight) := by
  rw [listRows, if_neg (Bool.eq_false_iff.1 hends), if_pos hbegun]
  cases hstarts : i.startsLine with
  | false => simp [ListingSummary.counting, hstarts]
  | true =>
    rw [if_pos rfl, if_neg (Bool.eq_false_iff.1 (hfull hstarts))]
    simp [ListingSummary.counting, hstarts]

theorem ListingPolicy.isFull_eq_false (hcap : p.statementCap = none) (s : ListingSummary) :
    p.isFull s = false := by
  rw [isFull, hcap]
  rfl

/-! ## Pages -/

/-- The instructions that a listing without a cap has rows for: those after the starts of the
policy, up to the first one that ends the listing. -/
def ListingPolicy.shown (p : ListingPolicy) (is : List Instruction) : List Instruction :=
  (is.takeWhile fun i => !p.endsBefore i).filter p.hasBegun

/-- The calls that write the rows of instructions, when so many rows were written before. -/
def pageWrites (style : HighlightStyle) (rows : Nat) : List Instruction → List Write
  | [] => []
  | i :: rest =>
    (if i.startsLine ∧ 0 < rows then [.line ""] else []) ++ rowWrites i style ++
      pageWrites style (rows + 1) rest

/-- An instruction that ends the listing hides itself and all that follow. -/
theorem ListingPolicy.shown_cons_of_endsBefore (h : p.endsBefore i = true) :
    p.shown (i :: is) = [] := by
  rw [shown, List.takeWhile_cons_of_neg (by simp [h]), List.filter_nil]

/-- An instruction that does not end the listing is shown if it lies after the starts. -/
theorem ListingPolicy.shown_cons_of_not_endsBefore (h : p.endsBefore i = false) :
    p.shown (i :: is) = if p.hasBegun i then i :: p.shown is else p.shown is := by
  rw [shown, List.takeWhile_cons_of_pos (by simp [h]), List.filter_cons]
  rfl

/-- A page goes on with the rows of further instructions. -/
theorem pageWrites_append (style : HighlightStyle) (rows : Nat) (is js : List Instruction) :
    pageWrites style rows (is ++ js) =
      pageWrites style rows is ++ pageWrites style (rows + is.length) js := by
  induction is generalizing rows with
  | nil => rfl
  | cons i rest ih =>
    have hrows : rows + (rest.length + 1) = rows + 1 + rest.length := by omega
    rw [List.cons_append, pageWrites, pageWrites, ih, List.length_cons, hrows,
      List.append_assoc _ _ (pageWrites style _ js)]

/-- Without a cap, a listing writes the page of the instructions shown. -/
theorem writes_listRows (hcap : p.statementCap = none) (failure : Option DecodeError)
    (summary : ListingSummary) (is : List Instruction) :
    (listRows p failure summary is).writes = pageWrites p.highlight summary.rows (p.shown is) := by
  induction is generalizing summary with
  | nil =>
    cases failure with
    | none => rfl
    | some e => rfl
  | cons i rest ih =>
    cases hends : p.endsBefore i with
    | true =>
      rw [listRows_cons_of_endsBefore hends, ListingPolicy.shown_cons_of_endsBefore hends]
      rfl
    | false =>
      rw [ListingPolicy.shown_cons_of_not_endsBefore hends]
      cases hbegun : p.hasBegun i with
      | false =>
        rw [listRows_cons_of_not_hasBegun hends hbegun]
        exact ih summary
      | true =>
        rw [listRows_cons_of_row hends hbegun fun _ => ListingPolicy.isFull_eq_false hcap _,
          if_pos rfl, Listing.after, ih]
        rfl

/-! ## What a listing comes to -/

/-- Something ends a listing before the instructions do, or decoding does not fail behind them. -/
def ListingPolicy.Finishes (p : ListingPolicy) (failure : Option DecodeError)
    (is : List Instruction) : Prop :=
  failure = none ∨ ∃ i ∈ is, p.endsBefore i = true

/-- What ends a listing lies behind an instruction that does not end it. -/
theorem ListingPolicy.Finishes.tail (h : p.Finishes failure (i :: is))
    (hends : p.endsBefore i = false) : p.Finishes failure is := by
  refine h.imp_right ?_
  rintro ⟨j, hj, hjends⟩
  rcases List.mem_cons.1 hj with rfl | hj
  · exact absurd (hends.symm.trans hjends) Bool.false_ne_true
  · exact ⟨j, hj, hjends⟩

/-- Without a cap, a listing that finishes has counted the instructions shown. -/
theorem outcome_listRows_eq_ok (hcap : p.statementCap = none) (hs : summary.capped = false)
    (h : p.Finishes failure is) :
    (listRows p failure summary is).outcome = .ok (summary.counting (p.shown is)) := by
  have hnone : ∀ s : ListingSummary, s.capped = false → s = s.counting [] := by
    rintro ⟨rows, statements, capped⟩ hs
    cases hs
    rfl
  induction is generalizing summary with
  | nil =>
    rcases h with rfl | ⟨i, hi, -⟩
    · exact congrArg Except.ok (hnone summary hs)
    · exact absurd hi List.not_mem_nil
  | cons i rest ih =>
    cases hends : p.endsBefore i with
    | true =>
      rw [listRows_cons_of_endsBefore hends, ListingPolicy.shown_cons_of_endsBefore hends]
      exact congrArg Except.ok (hnone summary hs)
    | false =>
      have hrest := h.tail hends
      rw [ListingPolicy.shown_cons_of_not_endsBefore hends]
      cases hbegun : p.hasBegun i with
      | false =>
        rw [listRows_cons_of_not_hasBegun hends hbegun]
        exact ih hs hrest
      | true =>
        rw [listRows_cons_of_row hends hbegun fun _ => ListingPolicy.isFull_eq_false hcap _,
          if_pos rfl, summary.counting_cons i (p.shown rest)]
        exact ih rfl hrest

/-- Without a cap, a listing that nothing ends fails as decoding does. -/
theorem outcome_listRows_eq_error (hcap : p.statementCap = none)
    (hends : ∀ i ∈ is, p.endsBefore i = false) :
    (listRows p (some e) summary is).outcome = .error (.decode e) := by
  induction is generalizing summary with
  | nil => rfl
  | cons i rest ih =>
    obtain ⟨hi, hrest⟩ := List.forall_mem_cons.1 hends
    cases hbegun : p.hasBegun i with
    | false =>
      rw [listRows_cons_of_not_hasBegun hi hbegun]
      exact ih hrest
    | true =>
      rw [listRows_cons_of_row hi hbegun fun _ => ListingPolicy.isFull_eq_false hcap _]
      exact ih hrest

/-- Without a cap, a listing that comes to something finishes. -/
theorem finishes_of_outcome_eq_ok {s : ListingSummary} (hcap : p.statementCap = none)
    (h : (listRows p failure summary is).outcome = .ok s) : p.Finishes failure is := by
  by_contra hnot
  obtain ⟨hfailure, hends⟩ := not_or.1 hnot
  obtain ⟨e, rfl⟩ := Option.ne_none_iff_exists'.1 hfailure
  rw [outcome_listRows_eq_error hcap (by simpa using hends)] at h
  cases h

/-- A listing whose start line does not lie beyond the code lists its instructions. -/
theorem Disassembly.renderListing_of_start {d : Disassembly}
    (h : checkStartLine d.code p = .ok ()) :
    renderListing d p = listRows p d.instructions.failure ⟨0, 0, false⟩ d.instructions.items := by
  rw [renderListing, h]

/-- Rows end early only where decoding failed. -/
theorem error_of_outcome_listRows {e : ListingError}
    (h : (listRows p failure summary is).outcome = .error e) : ∃ cause, e = .decode cause := by
  induction is generalizing summary with
  | nil =>
    cases failure with
    | none => cases h
    | some cause => exact ⟨cause, (Except.error.inj h).symm⟩
  | cons i rest ih =>
    unfold listRows at h
    split at h
    · cases h
    · split at h
      · split at h
        · split at h
          · cases h
          · exact ih h
        · exact ih h
      · exact ih h

/-- A listing fails where decoding failed, or because its start line lies beyond the code. -/
theorem Disassembly.error_of_outcome_renderListing {d : Disassembly} {e : ListingError}
    (h : (renderListing d p).outcome = .error e) :
    (∃ cause, e = .decode cause) ∨ ∃ line max, e = .startLineOutOfRange line max := by
  unfold renderListing checkStartLine at h
  cases hstart : p.startLine with
  | none =>
    rw [hstart] at h
    exact .inl (error_of_outcome_listRows h)
  | some start =>
    rw [hstart] at h
    dsimp only at h
    by_cases hlt : d.code.lineTable.maxLine?.getD 0 < start
    · rw [if_pos hlt] at h
      exact .inr ⟨_, _, (Except.error.inj h).symm⟩
    · rw [if_neg hlt] at h
      exact .inl (error_of_outcome_listRows h)

/-! ## Reading a page -/

/-- The number that a text begins with, behind blanks. -/
def leadingNumber (text : String) : Nat :=
  Nat.ofDigitChars 10 ((text.toList.dropWhile (· == ' ')).takeWhile Char.isDigit) 0

/-- The numbers that the rows of a page begin with. Each row is a part without a line end and the
line that ends it. -/
def rowOffsets : List Write → List Nat
  | .fragment _ :: .line body :: rest => leadingNumber body :: rowOffsets rest
  | _ :: rest => rowOffsets rest
  | [] => []

/-- A number at the end of its column is the one that the text begins with. -/
theorem leadingNumber_padLeft (width n : Nat) (text : String) :
    leadingNumber (Text.padLeft width (toString n) ++ " " ++ text) = n := by
  have hchars : (Text.padLeft width (toString n) ++ " " ++ text).toList =
      List.replicate (width - (toString n).length) ' ' ++
        (Nat.toDigits 10 n ++ ' ' :: text.toList) := by
    have hn : toString n = String.ofList (Nat.toDigits 10 n) := Nat.toString_eq_ofList_toDigits
    simp [Text.padLeft, hn]
  have hdigits : ∀ c ∈ Nat.toDigits 10 n, c.isDigit = true := fun c hc =>
    Nat.isDigit_of_mem_toDigits (by decide) (by decide) hc
  -- the first digit ends the blanks
  have hblanks : (Nat.toDigits 10 n ++ ' ' :: text.toList).dropWhile (· == ' ') =
      Nat.toDigits 10 n ++ ' ' :: text.toList := by
    obtain ⟨c, cs, hcs⟩ := List.exists_cons_of_ne_nil (Nat.toDigits_ne_nil (n := n) (b := 10))
    have hc : c.isDigit = true := hdigits c (hcs ▸ List.mem_cons_self)
    have hne : ¬(c == ' ') = true := by
      rw [beq_iff_eq]
      rintro rfl
      exact absurd hc (by decide)
    rw [hcs, List.cons_append]
    exact List.dropWhile_cons_of_neg hne
  rw [leadingNumber, hchars, List.dropWhile_append_of_pos, hblanks,
    List.takeWhile_append_of_pos hdigits, List.takeWhile_cons_of_neg (by decide), List.append_nil,
    Nat.ofDigitChars_ten_toDigits]
  intro c hc
  rw [List.eq_of_mem_replicate hc]
  rfl

/-- A row begins with its offset. -/
theorem leadingNumber_rowBody (i : Instruction) (style : HighlightStyle) :
    leadingNumber (rowBody i style) = i.offset := by
  rw [rowBody, String.append_assoc]
  exact leadingNumber_padLeft 4 i.offset _

/-- The offsets of the instructions on a page can be read off it. -/
theorem rowOffsets_pageWrites (style : HighlightStyle) (rows : Nat) (is : List Instruction) :
    rowOffsets (pageWrites style rows is) = is.map Instruction.offset := by
  induction is generalizing rows with
  | nil => rfl
  | cons i rest ih =>
    have hrow : rowOffsets (rowWrites i style ++ pageWrites style (rows + 1) rest) =
        i.offset :: rest.map Instruction.offset := by
      rw [rowWrites, List.cons_append, List.singleton_append, rowOffsets, leadingNumber_rowBody, ih]
    rw [pageWrites, List.append_assoc, List.map_cons]
    by_cases hblank : i.startsLine ∧ 0 < rows
    · rw [if_pos hblank, List.singleton_append, ← hrow]
      rfl
    · rw [if_neg hblank, List.nil_append, hrow]

end BytecodeDebugger
