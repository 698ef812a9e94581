/-!
# Line tables

A line table tells which source line starts at which offset of an instruction stream. Each entry
marks the first instruction of a statement, and there is one entry an offset. The line in effect at
an offset is the one of the last entry at or before it.

Main facts: `mem_insertLine_iff` (an insertion changes one offset) and `lineStart?_eq_some_iff` (a
line starts exactly where an entry says so).
-/

namespace BytecodeDebugger

/-- The entries with one more, which replaces an entry at the same offset. -/
def insertLine (offset line : Nat) : List (Nat × Nat) → List (Nat × Nat)
  | [] => [(offset, line)]
  | e :: rest =>
    if offset = e.1 then (offset, line) :: rest
    else if offset < e.1 then (offset, line) :: e :: rest
    else e :: insertLine offset line rest

/-- An entry of the new list is the new one or one of the old ones. -/
theorem mem_insertLine {offset line : Nat} {es : List (Nat × Nat)} {e : Nat × Nat}
    (h : e ∈ insertLine offset line es) : e = (offset, line) ∨ e ∈ es := by
  induction es with
  | nil => simpa [insertLine] using h
  | cons a rest ih =>
    simp only [insertLine] at h
    split at h
    · simp only [List.mem_cons] at h ⊢; grind
    · split at h
      · simp only [List.mem_cons] at h ⊢; grind
      · simp only [List.mem_cons] at h ⊢; grind

/-- Inserting keeps the offsets in ascending order. -/
theorem pairwise_insertLine {offset line : Nat} {es : List (Nat × Nat)}
    (h : es.Pairwise (·.1 < ·.1)) : (insertLine offset line es).Pairwise (·.1 < ·.1) := by
  induction es with
  | nil => simp [insertLine]
  | cons a rest ih =>
    rw [List.pairwise_cons] at h
    simp only [insertLine]
    split
    · next heq => rw [List.pairwise_cons]; exact ⟨fun b hb => heq ▸ h.1 b hb, h.2⟩
    · split
      · next hlt =>
        rw [List.pairwise_cons]
        refine ⟨fun b hb => ?_, List.pairwise_cons.2 h⟩
        rcases List.mem_cons.1 hb with rfl | hb
        · exact hlt
        · exact Nat.lt_trans hlt (h.1 b hb)
      · rw [List.pairwise_cons]
        refine ⟨fun b hb => ?_, ih h.2⟩
        rcases mem_insertLine hb with rfl | hb
        · dsimp only; omega
        · exact h.1 b hb

/-- After an insertion, an offset has the new line, and all others keep theirs. -/
theorem mem_insertLine_iff {offset line : Nat} {es : List (Nat × Nat)} {e : Nat × Nat}
    (h : es.Pairwise (·.1 < ·.1)) :
    e ∈ insertLine offset line es ↔ e = (offset, line) ∨ (e ∈ es ∧ e.1 ≠ offset) := by
  induction es with
  | nil => simp [insertLine]
  | cons a rest ih =>
    rw [List.pairwise_cons] at h
    simp only [insertLine]
    split
    · next heq =>
      have : ∀ b ∈ rest, b.1 ≠ offset := fun b hb => by have := h.1 b hb; omega
      simp only [List.mem_cons]
      grind
    · split
      · next hne hlt =>
        have : ∀ b ∈ rest, b.1 ≠ offset := fun b hb => by have := h.1 b hb; omega
        simp only [List.mem_cons]
        grind
      · simp only [List.mem_cons, ih h.2]
        grind

/-- Which line starts at which offset. -/
structure LineTable where
  /-- Offsets with the lines that start there, in ascending order of the offsets. -/
  entries : List (Nat × Nat)
  sorted : entries.Pairwise (·.1 < ·.1)
  deriving DecidableEq

namespace LineTable

/-- The table without entries. -/
def empty : LineTable := ⟨[], .nil⟩

instance : Inhabited LineTable := ⟨empty⟩

/-- The table with one more entry, which replaces an entry at the same offset. -/
def insert (t : LineTable) (offset line : Nat) : LineTable :=
  ⟨insertLine offset line t.entries, pairwise_insertLine t.sorted⟩

/-- The table of pairs in any order; of two pairs for one offset the later one counts. -/
def ofPairs (pairs : List (Nat × Nat)) : LineTable :=
  pairs.foldl (fun t p => t.insert p.1 p.2) empty

/-- The line of the statement that starts at an offset. -/
def lineStart? (t : LineTable) (offset : Nat) : Option Nat :=
  (t.entries.find? fun e => e.1 == offset).map (·.2)

/-- The line in effect at an offset. -/
def lineAt? (t : LineTable) (offset : Nat) : Option Nat :=
  ((t.entries.takeWhile fun e => e.1 ≤ offset).getLast?).map (·.2)

/-- The largest line. -/
def maxLine? (t : LineTable) : Option Nat := (t.entries.map (·.2)).max?

/-- The least interval that covers a further statement, if the earlier ones gave `span`. -/
def coverSpan (span : Option (Nat × Nat)) (first last : Nat) : Option (Nat × Nat) :=
  match span with
  | none => some (first, last)
  | some (s, e) => some (min s first, max e last)

/-- The span of the statements among the entries whose line lies between two lines, each with its
end: the next entry's offset, or the end of the code. -/
def spanOf (first last codeLength : Nat) (span : Option (Nat × Nat)) :
    List (Nat × Nat) → Option (Nat × Nat)
  | [] => span
  | (offset, line) :: rest =>
    let stop := match rest with
      | [] => codeLength
      | (next, _) :: _ => next
    let span := if first ≤ line ∧ line ≤ last then coverSpan span offset stop else span
    spanOf first last codeLength span rest

/-- The offsets, from the first up to but without the second, that cover every statement whose line
lies between two lines. -/
def offsetSpan? (t : LineTable) (first last codeLength : Nat) : Option (Nat × Nat) :=
  spanOf first last codeLength none t.entries

/-- A line starts exactly where an entry says so. -/
theorem lineStart?_eq_some_iff {t : LineTable} {offset line : Nat} :
    t.lineStart? offset = some line ↔ (offset, line) ∈ t.entries := by
  unfold lineStart?
  have hs := t.sorted
  generalize t.entries = es at hs
  induction es with
  | nil => simp
  | cons a rest ih =>
    rw [List.pairwise_cons] at hs
    obtain ⟨o, l⟩ := a
    by_cases h : o = offset
    · subst h
      have : (o, line) ∉ rest := fun hm => by have := hs.1 _ hm; simp at this
      rw [List.find?_cons_of_pos (by simp)]
      simp [this, eq_comm]
    · rw [List.find?_cons_of_neg (by simpa using h)]
      have hne : ¬(offset = o ∧ line = l) := fun hh => h hh.1.symm
      simpa [hne] using ih hs.2

end LineTable

end BytecodeDebugger
