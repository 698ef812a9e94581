import BytecodeDebugger.Proofs.Code.LineMap

/-!
# What the span of some lines covers

The span of some lines reaches from the first entry with one of these lines to the largest end of
such an entry, which is where the next entry stands, or the end of the code behind the last one.
Entries with other lines may lie in between. No offset in the code that has one of the lines lies
outside.

Main facts: `statementsOf_entries` (the statement of an entry), `head?_entriesIn` (where a span
begins), `max?_stopOf` (where it ends) and `offsetSpan?_reaches`.
-/

namespace BytecodeDebugger.LineTable

variable {t : LineTable} {first last codeLength start stop : Nat} {e : Nat × Nat}

/-! ## Entries and their ends -/

/-- The line of the entry lies between two lines, ends included. -/
def isOnLines (first last : Nat) (e : Nat × Nat) : Bool := first ≤ e.2 && e.2 ≤ last

/-- The entries of some lines. -/
def entriesIn (t : LineTable) (first last : Nat) : List (Nat × Nat) :=
  t.entries.filter (isOnLines first last)

/-- Where an entry ends: at the next entry, or at the end of the code. -/
def stopOf (t : LineTable) (codeLength : Nat) (e : Nat × Nat) : Nat :=
  ((t.entries.find? fun next => e.1 < next.1).map (·.1)).getD codeLength

/-- The statement of an entry reaches from its offset to its end. -/
theorem statementsOf_entries (t : LineTable) (codeLength : Nat) :
    statementsOf codeLength t.entries =
      t.entries.map fun e => ⟨e.1, e.2, t.stopOf codeLength e⟩ := by
  unfold stopOf
  have hsorted := t.sorted
  generalize t.entries = es at hsorted
  induction es with
  | nil => rfl
  | cons e rest ih =>
    obtain ⟨hnext, hrest⟩ := List.pairwise_cons.1 hsorted
    have hhead : (e :: rest).find? (fun next => e.1 < next.1) = rest.head? := by
      rw [List.find?_cons_of_neg (by simp)]
      cases rest with
      | nil => rfl
      | cons e' rest => exact List.find?_cons_of_pos (by simpa using hnext e' List.mem_cons_self)
    rw [statementsOf, List.map_cons, hhead, ih hrest]
    refine congrArg _ (List.map_congr_left fun e' he' => ?_)
    -- the entry in front lies before the one whose end is looked for
    have hbefore : ¬e'.1 < e.1 := Nat.lt_asymm (hnext e' he')
    rw [List.find?_cons_of_neg (by simpa using hbefore)]

/-- The statements of some lines are those of their entries. -/
theorem statementsIn_eq_map (t : LineTable) (first last codeLength : Nat) :
    t.statementsIn first last codeLength =
      (t.entriesIn first last).map fun e => ⟨e.1, e.2, t.stopOf codeLength e⟩ := by
  rw [statementsIn, statementsOf_entries, List.filter_map]
  rfl

/-! ## Spans -/

/-- The span of some lines begins at or before an offset if one of their entries stands there, and
ends behind it if one of them does. -/
theorem offsetSpan?_entries (h : t.offsetSpan? first last codeLength = some (start, stop))
    (offset : Nat) :
    (start ≤ offset ↔ ∃ e ∈ t.entriesIn first last, e.1 ≤ offset) ∧
      (offset < stop ↔ ∃ e ∈ t.entriesIn first last, offset < t.stopOf codeLength e) := by
  have hspan := offsetSpan?_eq_some h offset
  rw [statementsIn_eq_map] at hspan
  simpa using hspan

/-- Lines have no span if and only if no entry has one of them. -/
theorem offsetSpan?_eq_none_iff_lines :
    t.offsetSpan? first last codeLength = none ↔ ∀ e ∈ t.entries, ¬(first ≤ e.2 ∧ e.2 ≤ last) := by
  rw [offsetSpan?_eq_none_iff, statementsIn_eq_map, List.map_eq_nil_iff, entriesIn,
    List.filter_eq_nil_iff]
  simp [isOnLines]

/-- Lines that have a span have an entry. -/
theorem entriesIn_ne_nil (h : t.offsetSpan? first last codeLength = some (start, stop)) :
    t.entriesIn first last ≠ [] := by
  obtain ⟨e, he, -⟩ := (offsetSpan?_entries h start).1.1 (Nat.le_refl _)
  exact List.ne_nil_of_mem he

/-- A span begins at the first entry of its lines. -/
theorem head?_entriesIn (h : t.offsetSpan? first last codeLength = some (start, stop)) :
    (t.entriesIn first last).head?.map (·.1) = some start := by
  have hsorted : (t.entriesIn first last).Pairwise (·.1 < ·.1) := t.sorted.filter _
  have hstart := fun offset => (offsetSpan?_entries h offset).1
  cases hentries : t.entriesIn first last with
  | nil => exact absurd hentries (entriesIn_ne_nil h)
  | cons e rest =>
    rw [hentries] at hsorted hstart
    have hle : start ≤ e.1 := (hstart e.1).2 ⟨e, List.mem_cons_self, Nat.le_refl _⟩
    obtain ⟨e', he', hle'⟩ := (hstart start).1 (Nat.le_refl _)
    have hfirst : e.1 ≤ e'.1 := by
      rcases List.mem_cons.1 he' with rfl | hrest
      · exact Nat.le_refl _
      · exact Nat.le_of_lt ((List.pairwise_cons.1 hsorted).1 e' hrest)
    exact congrArg some (Nat.le_antisymm (Nat.le_trans hfirst hle') hle)

/-- A span ends at the largest end of the entries of its lines. -/
theorem max?_stopOf (h : t.offsetSpan? first last codeLength = some (start, stop)) :
    ((t.entriesIn first last).map (t.stopOf codeLength)).max? = some stop := by
  have hstop := fun offset => (offsetSpan?_entries h offset).2
  have hle : ∀ e ∈ t.entriesIn first last, t.stopOf codeLength e ≤ stop := by
    intro e he
    by_contra hnot
    exact Nat.lt_irrefl stop ((hstop stop).2 ⟨e, he, Nat.not_le.1 hnot⟩)
  rw [List.max?_eq_some_iff, List.forall_mem_map]
  refine ⟨List.mem_map.2 ?_, hle⟩
  cases stop with
  | zero =>
    obtain ⟨e, he⟩ := List.exists_mem_of_ne_nil _ (entriesIn_ne_nil h)
    exact ⟨e, he, Nat.le_zero.1 (hle e he)⟩
  | succ n =>
    obtain ⟨e, he, hlt⟩ := (hstop n).1 (Nat.lt_succ_self n)
    exact ⟨e, he, Nat.le_antisymm (hle e he) hlt⟩

/-- An offset in the code whose line is one of those between two lines lies in their span. -/
theorem mem_span_of_lineAt? (h : t.offsetSpan? first last codeLength = some (start, stop))
    {offset line : Nat} (hlt : offset < codeLength) (hline : t.lineAt? offset = some line)
    (hfirst : first ≤ line) (hlast : line ≤ last) : start ≤ offset ∧ offset < stop := by
  obtain ⟨e, he, rfl⟩ := lineAt?_eq_some_iff_inEffect.1 hline
  obtain ⟨s, s', hspan, hcovered⟩ := covers_iff.1 (he.covers hlt hfirst hlast)
  cases hspan.symm.trans h
  exact hcovered

/-- Lines have a span unless no entry has one of them. The span covers every offset in the code
whose line is one of them. It begins at the first entry with one of the lines, and ends at the
largest end of such an entry: where the next entry stands, or at the end of the code behind the last
one. -/
theorem offsetSpan?_reaches (t : LineTable) (first last codeLength : Nat) :
    (t.offsetSpan? first last codeLength = none ↔
        ∀ e ∈ t.entries, ¬(first ≤ e.2 ∧ e.2 ≤ last)) ∧
      ∀ start stop, t.offsetSpan? first last codeLength = some (start, stop) →
        (∀ offset < codeLength, ∀ line, t.lineAt? offset = some line →
          first ≤ line → line ≤ last → start ≤ offset ∧ offset < stop) ∧
        (t.entriesIn first last).head?.map (·.1) = some start ∧
        ((t.entriesIn first last).map (t.stopOf codeLength)).max? = some stop := by
  refine ⟨offsetSpan?_eq_none_iff_lines, fun start stop h => ⟨?_, head?_entriesIn h, max?_stopOf h⟩⟩
  intro offset hlt line hline hfirst hlast
  exact mem_span_of_lineAt? h hlt hline hfirst hlast

/-- Line 10 comes back behind another one, and the last entry stands past the end of the code: the
span covers all that is in between, and ends at that entry. -/
theorem offsetSpan?_reaches_scattered :
    let t := ofPairs [(0, 10), (6, 11), (12, 10), (20, 10)]
    t.offsetSpan? 10 10 15 = some (0, 20) ∧
      (∀ offset < 15, t.lineAt? offset = some 10 → 0 ≤ offset ∧ offset < 20) ∧
      t.offsetSpan? 12 40 15 = none := by
  intro t
  have hspan : t.offsetSpan? 10 10 15 = some (0, 20) := by decide
  obtain ⟨hcovers, -, -⟩ := (offsetSpan?_reaches t 10 10 15).2 0 20 hspan
  refine ⟨hspan, fun offset hlt hline => ?_, (offsetSpan?_reaches t 12 40 15).1.2 (by decide)⟩
  exact hcovers offset hlt 10 hline (Nat.le_refl _) (Nat.le_refl _)

end BytecodeDebugger.LineTable
