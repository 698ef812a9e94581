import BytecodeDebugger.Proofs.Code.LineTable
import Mathlib.Data.List.Induction

/-!
# Line tables as maps

Pairs of an offset and a line describe a map: an offset has the line of the last pair given for it.
A table of pairs is that map in ascending order of the offsets. So the order of the pairs does not
matter where their offsets differ, and a table can also be put together from sorted pairs, each one
behind the others or in the place of the last one.

Main facts: `lineStart?_ofPairs` (a table finds the line given last), `ofPairs_eq_of_pairsFor_eq`
(pairs in another order) and `ofPairs_describes`.
-/

namespace BytecodeDebugger

variable {pairs : List (Nat × Nat)} {offset line : Nat}

/-! ## The map that pairs describe -/

/-- The pairs given for an offset. -/
def pairsFor (offset : Nat) (pairs : List (Nat × Nat)) : List (Nat × Nat) :=
  pairs.filter fun p => p.1 == offset

/-- The line that pairs give to an offset: that of the last pair for it. -/
def lineGiven? (pairs : List (Nat × Nat)) (offset : Nat) : Option Nat :=
  (pairsFor offset pairs).getLast?.map (·.2)

/-- A further pair counts for its offset, and no other one. -/
theorem lineGiven?_concat (pairs : List (Nat × Nat)) (p : Nat × Nat) (offset : Nat) :
    lineGiven? (pairs ++ [p]) offset =
      if p.1 = offset then some p.2 else lineGiven? pairs offset := by
  by_cases h : p.1 = offset
  · simp [lineGiven?, pairsFor, h]
  · simp [lineGiven?, pairsFor, h]

/-- A line is given to the offsets of the pairs. -/
theorem lineGiven?_isSome_iff : (lineGiven? pairs offset).isSome ↔ offset ∈ pairs.map (·.1) := by
  rw [lineGiven?, Option.isSome_map, List.getLast?_isSome, Ne, pairsFor, List.filter_eq_nil_iff]
  simp

/-- Where no two pairs have one offset, each offset has the same pairs in any order. -/
theorem pairsFor_eq_of_perm {pairs' : List (Nat × Nat)} (hnodup : (pairs.map (·.1)).Nodup)
    (hperm : pairs'.Perm pairs) (offset : Nat) : pairsFor offset pairs' = pairsFor offset pairs := by
  have hone : ∀ {ps : List (Nat × Nat)}, (ps.map (·.1)).Nodup →
      (pairsFor offset ps).Pairwise fun _ _ => False := by
    intro ps h
    refine ((List.pairwise_map.1 h).filter _).imp_of_mem fun {p q} hp hq hne => hne ?_
    exact (beq_iff_eq.1 (List.mem_filter.1 hp).2).trans (beq_iff_eq.1 (List.mem_filter.1 hq).2).symm
  have hnodup' : (pairs'.map (·.1)).Nodup := ((hperm.map _).nodup_iff).2 hnodup
  exact (hperm.filter _).eq_of_pairwise (fun _ _ _ _ h _ => h.elim) (hone hnodup') (hone hnodup)

namespace LineTable

variable {t t' : LineTable}

/-! ## Tables of pairs -/

/-- Tables that find the same lines are the same. -/
theorem eq_of_lineStart?_eq (h : ∀ offset, t.lineStart? offset = t'.lineStart? offset) : t = t' := by
  have hentries : t.entries = t'.entries := by
    refine List.Perm.eq_of_pairwise (fun e e' _ _ hlt hlt' => absurd hlt (Nat.lt_asymm hlt'))
      t.sorted t'.sorted ?_
    rw [List.perm_ext_iff_of_nodup (t.sorted.imp fun hlt => by rintro rfl; exact Nat.lt_irrefl _ hlt)
      (t'.sorted.imp fun hlt => by rintro rfl; exact Nat.lt_irrefl _ hlt)]
    rintro ⟨offset, line⟩
    rw [← lineStart?_eq_some_iff, ← lineStart?_eq_some_iff, h]
  cases t
  cases t'
  cases hentries
  rfl

/-- The line found at an offset after one more entry. -/
theorem lineStart?_insert (t : LineTable) (o l offset : Nat) :
    (t.insert o l).lineStart? offset = if o = offset then some l else t.lineStart? offset := by
  refine Option.ext fun line => ?_
  rw [lineStart?_eq_some_iff, insert, mem_insertLine_iff t.sorted]
  by_cases h : o = offset
  · subst h
    simp [eq_comm]
  · have h' : offset ≠ o := Ne.symm h
    simp [h, h', ← lineStart?_eq_some_iff]

theorem ofPairs_concat (pairs : List (Nat × Nat)) (p : Nat × Nat) :
    ofPairs (pairs ++ [p]) = (ofPairs pairs).insert p.1 p.2 := by
  rw [ofPairs, List.foldl_append]
  rfl

/-- The table of pairs finds the line that they give. -/
theorem lineStart?_ofPairs (pairs : List (Nat × Nat)) (offset : Nat) :
    (ofPairs pairs).lineStart? offset = lineGiven? pairs offset := by
  induction pairs using List.reverseRecOn with
  | nil => rfl
  | append_singleton pairs p ih => rw [ofPairs_concat, lineStart?_insert, lineGiven?_concat, ih]

/-- Pairs in an order in which those of each offset follow each other as before make the same
table. -/
theorem ofPairs_eq_of_pairsFor_eq {pairs' : List (Nat × Nat)}
    (h : ∀ offset, pairsFor offset pairs' = pairsFor offset pairs) :
    ofPairs pairs' = ofPairs pairs := by
  refine eq_of_lineStart?_eq fun offset => ?_
  rw [lineStart?_ofPairs, lineStart?_ofPairs, lineGiven?, lineGiven?, h]

/-- The pairs that a table gives for an offset are its entry there. -/
theorem lineGiven?_entries (t : LineTable) (offset : Nat) :
    lineGiven? t.entries offset = t.lineStart? offset := by
  have hone : (pairsFor offset t.entries).Pairwise fun _ _ => False := by
    refine (t.sorted.filter _).imp_of_mem fun {e e'} he he' hlt => ?_
    have heq := beq_iff_eq.1 (List.mem_filter.1 he).2
    have heq' := beq_iff_eq.1 (List.mem_filter.1 he').2
    omega
  rw [lineGiven?, lineStart?, ← List.head?_filter]
  show (pairsFor offset t.entries).getLast?.map _ = (pairsFor offset t.entries).head?.map _
  match pairsFor offset t.entries, hone with
  | [], _ => rfl
  | [_], _ => rfl
  | _ :: _ :: _, hone => exact ((List.pairwise_cons.1 hone).1 _ List.mem_cons_self).elim

theorem ofPairs_entries (t : LineTable) : ofPairs t.entries = t := by
  refine eq_of_lineStart?_eq fun offset => ?_
  rw [lineStart?_ofPairs, lineGiven?_entries]

/-! ## Tables of sorted pairs -/

/-- Entries with one more pair behind them, or in the place of the last one if that has its
offset. -/
def putBehind (entries : List (Nat × Nat)) (p : Nat × Nat) : List (Nat × Nat) :=
  if entries.getLast?.any fun e => e.1 == p.1 then entries.dropLast ++ [p] else entries ++ [p]

/-- Entries in front of which no pair belongs have it put behind them. -/
theorem insertLine_eq_putBehind {p : Nat × Nat} {es : List (Nat × Nat)}
    (hsorted : es.Pairwise (·.1 < ·.1)) (hle : ∀ e ∈ es, e.1 ≤ p.1) :
    insertLine p.1 p.2 es = putBehind es p := by
  induction es with
  | nil => rfl
  | cons e rest ih =>
    obtain ⟨hnext, hrest⟩ := List.pairwise_cons.1 hsorted
    have he := hle e List.mem_cons_self
    cases rest with
    | nil =>
      have hnot : ¬p.1 < e.1 := by omega
      by_cases heq : p.1 = e.1
      · simp [insertLine, putBehind, ← heq]
      · simp [insertLine, putBehind, heq, hnot, Ne.symm heq]
    | cons e' rest =>
      -- the pair belongs behind the second entry, if not in its place
      have hlt : e.1 < p.1 :=
        Nat.lt_of_lt_of_le (hnext e' List.mem_cons_self)
          (hle e' (List.mem_cons_of_mem e List.mem_cons_self))
      have hbehind := ih hrest fun e'' he'' => hle e'' (List.mem_cons_of_mem e he'')
      rw [insertLine, if_neg (by omega), if_neg (by omega), hbehind]
      unfold putBehind
      rw [List.getLast?_cons_cons, List.dropLast_cons_cons]
      split <;> rfl

/-- The table of pairs in ascending order has them put one behind the other. -/
theorem entries_ofPairs_of_sorted (h : pairs.Pairwise fun p q => p.1 ≤ q.1) :
    (ofPairs pairs).entries = pairs.foldl putBehind [] := by
  induction pairs using List.reverseRecOn with
  | nil => rfl
  | append_singleton pairs p ih =>
    obtain ⟨hpairs, -, hle⟩ := List.pairwise_append.1 h
    rw [ofPairs_concat, List.foldl_append, ← ih hpairs, insert]
    refine insertLine_eq_putBehind (ofPairs pairs).sorted fun e he => ?_
    have hmem : e.1 ∈ pairs.map (·.1) := by
      rw [← lineGiven?_isSome_iff, ← lineStart?_ofPairs, lineStart?_eq_some_iff.2 he]
      rfl
    obtain ⟨q, hq, hqe⟩ := List.mem_map.1 hmem
    exact hqe ▸ hle q hq p (List.mem_singleton_self p)

/-- The first pair need not stand behind the second one. -/
def mayPrecede (p q : Nat × Nat) : Bool := p.1 ≤ q.1

theorem mayPrecede_trans (p q r : Nat × Nat) (hpq : mayPrecede p q) (hqr : mayPrecede q r) :
    mayPrecede p r := decide_eq_true (Nat.le_trans (of_decide_eq_true hpq) (of_decide_eq_true hqr))

theorem mayPrecede_total (p q : Nat × Nat) : (mayPrecede p q || mayPrecede q p) = true := by
  have := Nat.le_total p.1 q.1
  simpa [mayPrecede] using this

/-- Pairs sorted by their offsets, those of one offset as they followed each other. -/
def inOrder (pairs : List (Nat × Nat)) : List (Nat × Nat) := pairs.mergeSort mayPrecede

theorem pairwise_inOrder (pairs : List (Nat × Nat)) :
    (inOrder pairs).Pairwise fun p q => p.1 ≤ q.1 :=
  (List.pairwise_mergeSort mayPrecede_trans mayPrecede_total pairs).imp of_decide_eq_true

/-- Sorting leaves the pairs of one offset in their order. -/
theorem pairsFor_inOrder (pairs : List (Nat × Nat)) (offset : Nat) :
    pairsFor offset (inOrder pairs) = pairsFor offset pairs := by
  have hequal : (pairsFor offset pairs).Pairwise fun p q => mayPrecede p q := by
    refine List.pairwise_of_forall_mem_list fun p hp q hq => decide_eq_true ?_
    have hpo := beq_iff_eq.1 (List.mem_filter.1 hp).2
    have hqo := beq_iff_eq.1 (List.mem_filter.1 hq).2
    omega
  -- they are in order already, so they stay a part of the list, and there are no others
  have hkept : (pairsFor offset pairs).Sublist (inOrder pairs) :=
    List.sublist_mergeSort mayPrecede_trans mayPrecede_total hequal List.filter_sublist
  have hpart : (pairsFor offset pairs).Sublist (pairsFor offset (inOrder pairs)) := by
    simpa [pairsFor] using hkept.filter fun p => p.1 == offset
  have hlength := ((List.mergeSort_perm pairs mayPrecede).filter fun p => p.1 == offset).length_eq
  exact (hpart.eq_of_length hlength.symm).symm

/-- The table of pairs is put together from the sorted pairs. -/
theorem entries_ofPairs_eq_foldl (pairs : List (Nat × Nat)) :
    (ofPairs pairs).entries = (inOrder pairs).foldl putBehind [] := by
  rw [← entries_ofPairs_of_sorted (pairwise_inOrder pairs),
    ofPairs_eq_of_pairsFor_eq (pairsFor_inOrder pairs)]

/-! ## The map as a whole -/

/-- The table is the map that pairs describe. -/
structure IsMapOf (t : LineTable) (pairs : List (Nat × Nat)) : Prop where
  ascending : t.entries.Pairwise fun e e' => e.1 < e'.1
  /-- The offsets are those of the pairs. -/
  mem_offsets_iff : ∀ offset, offset ∈ t.entries.map (·.1) ↔ offset ∈ pairs.map (·.1)
  /-- Each offset has the line of the last pair for it. -/
  mem_entries_iff : ∀ offset line,
    (offset, line) ∈ t.entries ↔ lineGiven? pairs offset = some line
  lineStart?_eq_some_iff : ∀ offset line,
    t.lineStart? offset = some line ↔ (offset, line) ∈ t.entries
  /-- The line in effect is that of the last entry at or before the offset. -/
  lineAt?_eq_some_iff : ∀ offset line,
    t.lineAt? offset = some line ↔ ∃ e, t.InEffect offset e ∧ e.2 = line
  lineAt?_eq_none_iff : ∀ offset, t.lineAt? offset = none ↔ ∀ e ∈ t.entries, offset < e.1
  maxLine?_eq_some_iff : ∀ line, t.maxLine? = some line ↔
    line ∈ t.entries.map (·.2) ∧ ∀ l ∈ t.entries.map (·.2), l ≤ line
  maxLine?_eq_none_iff : t.maxLine? = none ↔ pairs = []

/-- The line in effect is told by the entry in effect. -/
theorem lineAt?_eq_some_iff_inEffect :
    t.lineAt? offset = some line ↔ ∃ e, t.InEffect offset e ∧ e.2 = line := by
  constructor
  · intro h
    rcases t.lineAt?_cases offset with ⟨hnone, -⟩ | ⟨e, he, hsome⟩
    · cases hnone.symm.trans h
    · exact ⟨e, he, Option.some.inj (hsome.symm.trans h)⟩
  · rintro ⟨e, he, rfl⟩
    exact he.lineAt?_eq

/-- No line is in effect in front of all entries, and nowhere else. -/
theorem lineAt?_eq_none_iff_lt :
    t.lineAt? offset = none ↔ ∀ e ∈ t.entries, offset < e.1 := by
  rcases t.lineAt?_cases offset with ⟨hnone, hlt⟩ | ⟨e, he, hsome⟩
  · exact iff_of_true hnone hlt
  · refine iff_of_false (by simp [hsome]) fun hlt => ?_
    exact absurd he.le (Nat.not_le_of_lt (hlt e he.mem))

theorem mem_offsets_ofPairs :
    offset ∈ (ofPairs pairs).entries.map (·.1) ↔ offset ∈ pairs.map (·.1) := by
  rw [← lineGiven?_isSome_iff, ← lineGiven?_isSome_iff, lineGiven?_entries, lineStart?_ofPairs]

/-- A table of pairs is the map that they describe. -/
theorem isMapOf_ofPairs (pairs : List (Nat × Nat)) : (ofPairs pairs).IsMapOf pairs where
  ascending := (ofPairs pairs).sorted
  mem_offsets_iff _ := mem_offsets_ofPairs
  mem_entries_iff offset line := by
    rw [← LineTable.lineStart?_eq_some_iff, lineStart?_ofPairs]
  lineStart?_eq_some_iff _ _ := LineTable.lineStart?_eq_some_iff
  lineAt?_eq_some_iff _ _ := lineAt?_eq_some_iff_inEffect
  lineAt?_eq_none_iff _ := lineAt?_eq_none_iff_lt
  maxLine?_eq_some_iff _ := List.max?_eq_some_iff
  maxLine?_eq_none_iff := by
    rw [maxLine?, List.max?_eq_none_iff, List.map_eq_nil_iff,
      ← List.map_eq_nil_iff (f := fun e : Nat × Nat => e.1), List.eq_nil_iff_forall_not_mem,
      ← List.map_eq_nil_iff (f := fun p : Nat × Nat => p.1) (l := pairs),
      List.eq_nil_iff_forall_not_mem]
    exact forall_congr' fun _ => not_congr mem_offsets_ofPairs

/-- A line table is the map that its pairs describe. Pairs in any order and with any repetitions make
a table of their offsets in ascending order, each with the line given last for it, in which exactly
these lines start, and are in effect from there on, and of which the largest is known. The table is
what comes of the pairs when they are sorted by offset, in order of appearance where it is the same,
and put one behind the other, the last one of an offset in the place of the others. Its own entries
make it again; and so do the pairs in any order that leaves those of each offset as they followed
each other, which is any order at all if no offset is repeated. -/
theorem ofPairs_describes (pairs : List (Nat × Nat)) :
    (ofPairs pairs).IsMapOf pairs ∧
      (ofPairs pairs).entries = (inOrder pairs).foldl putBehind [] ∧
      (∀ t : LineTable, ofPairs t.entries = t) ∧
      (∀ pairs', (∀ offset, pairsFor offset pairs' = pairsFor offset pairs) →
        ofPairs pairs' = ofPairs pairs) ∧
      ((pairs.map (·.1)).Nodup → ∀ pairs', pairs'.Perm pairs → ofPairs pairs' = ofPairs pairs) := by
  refine ⟨isMapOf_ofPairs pairs, entries_ofPairs_eq_foldl pairs, ofPairs_entries, ?_, ?_⟩
  · intro pairs' h
    exact ofPairs_eq_of_pairsFor_eq h
  · intro hnodup pairs' hperm
    exact ofPairs_eq_of_pairsFor_eq (pairsFor_eq_of_perm hnodup hperm)

/-- Of two lines for one offset the later one counts, wherever the pair for another offset stands;
two pairs for different offsets can change places. -/
theorem ofPairs_describes_repeated :
    lineGiven? [(6, 2), (0, 1), (6, 3)] 6 = some 3 ∧
      (ofPairs [(6, 2), (0, 1), (6, 3)]).lineStart? 6 = some 3 ∧
      ofPairs [(0, 1), (6, 2), (6, 3)] = ofPairs [(6, 2), (0, 1), (6, 3)] ∧
      ofPairs [(0, 1), (6, 2)] = ofPairs [(6, 2), (0, 1)] := by
  obtain ⟨hmap, -, -, hmoved, -⟩ := ofPairs_describes [(6, 2), (0, 1), (6, 3)]
  obtain ⟨-, -, -, -, hswapped⟩ := ofPairs_describes [(6, 2), (0, 1)]
  have hgiven : lineGiven? [(6, 2), (0, 1), (6, 3)] 6 = some 3 := by decide
  refine ⟨hgiven, ?_, ?_, ?_⟩
  · exact (hmap.lineStart?_eq_some_iff 6 3).2 ((hmap.mem_entries_iff 6 3).2 hgiven)
  · refine hmoved _ fun offset => ?_
    by_cases h : offset = 0
    · subst h
      rfl
    · have hother : ¬0 = offset := Ne.symm h
      simp [pairsFor, List.filter_cons, hother]
  · exact hswapped (by decide) _ (List.Perm.swap _ _ _)

end LineTable

end BytecodeDebugger
