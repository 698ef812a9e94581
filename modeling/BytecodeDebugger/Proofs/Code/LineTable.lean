import BytecodeDebugger.Code.LineTable
import Mathlib.Order.MinMax
import Mathlib.Tactic.Common

/-!
# Statements of a line table

An entry is in effect from its offset up to the next entry, and the last one up to the end of the
code. This stretch is its statement. A table finds the line of the entry in effect. The span of some
lines reaches from the first of their statements to the last of them, with what lies between them.

Main facts: `lineAt?_cases` (what the table finds), `exists_statement_of_inEffect` (an offset in the
code lies in the statement of the entry in effect) and `covers_iff` (what a span covers).
-/

namespace BytecodeDebugger

/-- In a list where a property holds up to some place, the part up to there is what has the
property. -/
theorem takeWhile_eq_filter_of_pairwise {α : Type} {P : α → Bool} {as : List α}
    (h : as.Pairwise fun x y => P y = true → P x = true) : as.takeWhile P = as.filter P := by
  induction as with
  | nil => rfl
  | cons a rest ih =>
    obtain ⟨ha, hrest⟩ := List.pairwise_cons.1 h
    by_cases hP : P a = true
    · rw [List.takeWhile_cons_of_pos hP, List.filter_cons_of_pos hP, ih hrest]
    · rw [List.takeWhile_cons_of_neg hP, List.filter_cons_of_neg hP]
      exact (List.filter_eq_nil_iff.2 fun b hb hPb => hP (ha b hb hPb)).symm

/-- Two filters keep the same members exactly if they agree on all of them. -/
theorem filter_eq_filter_iff {α : Type} {P Q : α → Bool} {as : List α} :
    as.filter P = as.filter Q ↔ ∀ a ∈ as, P a = Q a := by
  refine ⟨fun h a ha => ?_, List.filter_congr⟩
  have hmem : a ∈ as.filter P ↔ a ∈ as.filter Q := by rw [h]
  rw [List.mem_filter, List.mem_filter] at hmem
  rw [Bool.eq_iff_iff]
  simpa [ha] using hmem

namespace LineTable

variable {t : LineTable} {offset : Nat} {e : Nat × Nat}

/-! ## The entry in effect -/

/-- The entry is the last one at or before an offset. -/
structure InEffect (t : LineTable) (offset : Nat) (e : Nat × Nat) : Prop where
  mem : e ∈ t.entries
  le : e.1 ≤ offset
  last : ∀ e' ∈ t.entries, e'.1 ≤ offset → e'.1 ≤ e.1

/-- The table finds the line of the entry in effect, or nothing if all entries lie behind. -/
theorem lineAt?_cases (t : LineTable) (offset : Nat) :
    (t.lineAt? offset = none ∧ ∀ e ∈ t.entries, offset < e.1) ∨
      ∃ e, t.InEffect offset e ∧ t.lineAt? offset = some e.2 := by
  have hfront : (t.entries.takeWhile fun e => decide (e.1 ≤ offset)) =
      t.entries.filter fun e => decide (e.1 ≤ offset) := by
    refine takeWhile_eq_filter_of_pairwise (t.sorted.imp fun {e e'} hlt hle => ?_)
    have hle := of_decide_eq_true hle
    exact decide_eq_true (by omega)
  have hsorted := t.sorted.filter fun e => decide (e.1 ≤ offset)
  unfold lineAt?
  rw [hfront]
  cases hlast : (t.entries.filter fun e => decide (e.1 ≤ offset)).getLast? with
  | none =>
    rw [List.getLast?_eq_none_iff, List.filter_eq_nil_iff] at hlast
    refine .inl ⟨rfl, fun e he => ?_⟩
    simpa using hlast e he
  | some e =>
    obtain ⟨front, hsplit⟩ := List.getLast?_eq_some_iff.1 hlast
    rw [hsplit] at hsorted
    have hmem : ∀ e', e' ∈ front ++ [e] ↔ e' ∈ t.entries ∧ e'.1 ≤ offset := by
      intro e'
      rw [← hsplit, List.mem_filter, decide_eq_true_eq]
    obtain ⟨he, hle⟩ := (hmem e).1 List.mem_concat_self
    refine .inr ⟨e, ⟨he, hle, fun e' he' hle' => ?_⟩, rfl⟩
    rcases List.mem_append.1 ((hmem e').2 ⟨he', hle'⟩) with hin | hin
    · exact Nat.le_of_lt ((List.pairwise_append.1 hsorted).2.2 e' hin e List.mem_cons_self)
    · exact Nat.le_of_eq (congrArg Prod.fst (List.mem_singleton.1 hin))

/-- Only one entry is in effect. -/
theorem InEffect.unique {e' : Nat × Nat} (h : t.InEffect offset e) (h' : t.InEffect offset e') :
    e = e' := by
  have hoffset : e.1 = e'.1 := Nat.le_antisymm (h'.last e h.mem h.le) (h.last e' h'.mem h'.le)
  have hline := lineStart?_eq_some_iff.2 h.mem
  have hline' := lineStart?_eq_some_iff.2 h'.mem
  rw [hoffset] at hline
  exact Prod.ext hoffset (Option.some.inj (hline.symm.trans hline'))

theorem InEffect.lineAt?_eq (h : t.InEffect offset e) : t.lineAt? offset = some e.2 := by
  rcases t.lineAt?_cases offset with ⟨-, hall⟩ | ⟨e', he', heq⟩
  · exact absurd h.le (Nat.not_le_of_lt (hall e h.mem))
  · rw [heq, h.unique he']

/-- An entry stays in effect as long as no other one is passed. -/
theorem InEffect.of_le {offset' : Nat} (h : t.InEffect offset e) (hle : e.1 ≤ offset')
    (hle' : offset' ≤ offset) : t.InEffect offset' e :=
  ⟨h.mem, hle, fun e' he' hbefore => h.last e' he' (Nat.le_trans hbefore hle')⟩

/-! ## Statements -/

/-- A line and the stretch of the code that was made from it. -/
structure Statement where
  start : Nat
  line : Nat
  /-- The offset just past the statement. -/
  stop : Nat
  deriving DecidableEq, Repr

/-- The line lies between two lines, ends included. -/
def Statement.isWithin (first last : Nat) (a : Statement) : Bool :=
  first ≤ a.line && a.line ≤ last

/-- The statements of entries, the last one up to the end of the code. -/
def statementsOf (codeLength : Nat) : List (Nat × Nat) → List Statement
  | [] => []
  | (offset, line) :: rest =>
    ⟨offset, line, (rest.head?.map (·.1)).getD codeLength⟩ :: statementsOf codeLength rest

/-- The statements of some lines, in code of a certain length. -/
def statementsIn (t : LineTable) (first last codeLength : Nat) : List Statement :=
  (statementsOf codeLength t.entries).filter (Statement.isWithin first last)

/-- In code that is not empty, no statement stops at the start. -/
theorem stop_pos_of_mem_statementsOf {codeLength : Nat} {es : List (Nat × Nat)} {a : Statement}
    (hsorted : es.Pairwise (·.1 < ·.1)) (hpos : 0 < codeLength)
    (ha : a ∈ statementsOf codeLength es) : 0 < a.stop := by
  induction es with
  | nil => exact absurd ha List.not_mem_nil
  | cons e rest ih =>
    obtain ⟨hnext, hrest⟩ := List.pairwise_cons.1 hsorted
    rcases List.mem_cons.1 ha with rfl | hmem
    · cases rest with
      | nil => exact hpos
      | cons e' rest => exact Nat.zero_lt_of_lt (hnext e' List.mem_cons_self)
    · exact ih hrest hmem

/-- An offset in the code lies in the statement of the entry in effect. -/
theorem exists_statement_of_inEffect {codeLength : Nat} (h : t.InEffect offset e)
    (hlt : offset < codeLength) :
    ∃ a ∈ statementsOf codeLength t.entries,
      a.start = e.1 ∧ a.line = e.2 ∧ offset < a.stop := by
  obtain ⟨hmem, hle, hlast⟩ := h
  have hsorted := t.sorted
  generalize t.entries = es at hmem hlast hsorted
  induction es with
  | nil => exact absurd hmem List.not_mem_nil
  | cons e' rest ih =>
    obtain ⟨hnext, hrest⟩ := List.pairwise_cons.1 hsorted
    rcases List.mem_cons.1 hmem with rfl | hin
    · refine ⟨_, List.mem_cons_self, rfl, rfl, ?_⟩
      cases rest with
      | nil => exact hlt
      | cons e' rest =>
        -- the next entry lies behind the offset, or it would be in effect
        show offset < e'.1
        have hafter := hnext e' List.mem_cons_self
        by_contra hnot
        have := hlast e' (List.mem_cons_of_mem e List.mem_cons_self) (Nat.not_lt.1 hnot)
        omega
    · obtain ⟨a, ha, hfacts⟩ :=
        ih hin (fun e'' he'' => hlast e'' (List.mem_cons_of_mem e' he'')) hrest
      exact ⟨a, List.mem_cons_of_mem _ ha, hfacts⟩

/-! ## Spans -/

/-- The span of entries covers their statements one after another. -/
theorem spanOf_eq_foldl (first last codeLength : Nat) (span : Option (Nat × Nat))
    (es : List (Nat × Nat)) :
    spanOf first last codeLength span es =
      ((statementsOf codeLength es).filter (Statement.isWithin first last)).foldl
        (fun span a => coverSpan span a.start a.stop) span := by
  induction es generalizing span with
  | nil => rfl
  | cons e rest ih =>
    obtain ⟨offset, line⟩ := e
    have hcons : spanOf first last codeLength span ((offset, line) :: rest) =
        spanOf first last codeLength
          (if first ≤ line ∧ line ≤ last then
            coverSpan span offset ((rest.head?.map (·.1)).getD codeLength) else span) rest := by
      cases rest <;> rfl
    rw [hcons, statementsOf, ih]
    by_cases hwithin : first ≤ line ∧ line ≤ last
    · rw [if_pos hwithin, List.filter_cons_of_pos (by simpa [Statement.isWithin] using hwithin)]
      rfl
    · rw [if_neg hwithin, List.filter_cons_of_neg (by simpa [Statement.isWithin] using hwithin)]

/-- What covers statements, and what was covered before, begins at the first of their offsets and
ends at the last of them. -/
theorem foldl_coverSpan_eq_some {as : List Statement} {span : Option (Nat × Nat)} {s e : Nat}
    (h : as.foldl (fun span a => coverSpan span a.start a.stop) span = some (s, e)) (o : Nat) :
    (s ≤ o ↔ (∃ p ∈ span, p.1 ≤ o) ∨ ∃ a ∈ as, a.start ≤ o) ∧
      (o < e ↔ (∃ p ∈ span, o < p.2) ∨ ∃ a ∈ as, o < a.stop) := by
  induction as generalizing span with
  | nil =>
    have hspan : span = some (s, e) := h
    subst hspan
    simp
  | cons a rest ih =>
    obtain ⟨hstart, hstop⟩ := ih h
    rw [hstart, hstop]
    cases span with
    | none => simp [coverSpan]
    | some p => simp [coverSpan, or_assoc]

/-- Nothing covers no statements only. -/
theorem foldl_coverSpan_eq_none_iff {as : List Statement} {span : Option (Nat × Nat)} :
    as.foldl (fun span a => coverSpan span a.start a.stop) span = none ↔ span = none ∧ as = [] := by
  induction as generalizing span with
  | nil => simp
  | cons a rest ih =>
    rw [List.foldl_cons, ih]
    cases span <;> simp [coverSpan]

/-- Lines have no span if and only if they have no statement. -/
theorem offsetSpan?_eq_none_iff {first last codeLength : Nat} :
    t.offsetSpan? first last codeLength = none ↔ t.statementsIn first last codeLength = [] := by
  rw [offsetSpan?, spanOf_eq_foldl, foldl_coverSpan_eq_none_iff, statementsIn]
  simp

/-- The span of some lines begins at or before an offset if one of their statements does, and ends
behind it if one of them does. -/
theorem offsetSpan?_eq_some {first last codeLength s e : Nat}
    (h : t.offsetSpan? first last codeLength = some (s, e)) (o : Nat) :
    (s ≤ o ↔ ∃ a ∈ t.statementsIn first last codeLength, a.start ≤ o) ∧
      (o < e ↔ ∃ a ∈ t.statementsIn first last codeLength, o < a.stop) := by
  rw [offsetSpan?, spanOf_eq_foldl] at h
  simpa [statementsIn] using foldl_coverSpan_eq_some h o

/-- In code that is not empty, no span ends at the start. -/
theorem offsetSpan?_stop_pos {first last codeLength s e : Nat} (hpos : 0 < codeLength)
    (h : t.offsetSpan? first last codeLength = some (s, e)) : 0 < e := by
  have hne : t.statementsIn first last codeLength ≠ [] := by
    intro hnil
    rw [offsetSpan?_eq_none_iff.2 hnil] at h
    cases h
  obtain ⟨a, ha⟩ := List.exists_mem_of_ne_nil _ hne
  exact (offsetSpan?_eq_some h 0).2.2
    ⟨a, ha, stop_pos_of_mem_statementsOf t.sorted hpos (List.mem_filter.1 ha).1⟩

/-- The offset lies between the statements of some lines: one of them begins at or before it, and
one of them ends behind it. -/
def Covers (t : LineTable) (first last codeLength offset : Nat) : Prop :=
  (∃ a ∈ t.statementsIn first last codeLength, a.start ≤ offset) ∧
    ∃ a ∈ t.statementsIn first last codeLength, offset < a.stop

instance (t : LineTable) (first last codeLength offset : Nat) :
    Decidable (t.Covers first last codeLength offset) :=
  inferInstanceAs (Decidable (_ ∧ _))

/-- What the statements of some lines cover is what lies in their span. -/
theorem covers_iff {first last codeLength : Nat} :
    t.Covers first last codeLength offset ↔
      ∃ s e, t.offsetSpan? first last codeLength = some (s, e) ∧ s ≤ offset ∧ offset < e := by
  constructor
  · rintro ⟨⟨a, ha, hstart⟩, b, hb, hstop⟩
    cases hspan : t.offsetSpan? first last codeLength with
    | none =>
      rw [offsetSpan?_eq_none_iff.1 hspan] at ha
      exact absurd ha List.not_mem_nil
    | some p =>
      obtain ⟨hs, he⟩ := offsetSpan?_eq_some hspan offset
      exact ⟨p.1, p.2, rfl, hs.2 ⟨a, ha, hstart⟩, he.2 ⟨b, hb, hstop⟩⟩
  · rintro ⟨s, e, hspan, hs, he⟩
    obtain ⟨hstart, hstop⟩ := offsetSpan?_eq_some hspan offset
    exact ⟨hstart.1 hs, hstop.1 he⟩

/-- The statement of the entry in effect covers the offset, among those of all lines between which
the line of the entry lies. -/
theorem InEffect.covers {first last codeLength : Nat} (h : t.InEffect offset e)
    (hlt : offset < codeLength) (hfirst : first ≤ e.2) (hlast : e.2 ≤ last) :
    t.Covers first last codeLength offset := by
  obtain ⟨a, ha, hstart, hline, hstop⟩ := exists_statement_of_inEffect h hlt
  have hmem : a ∈ t.statementsIn first last codeLength := by
    refine List.mem_filter.2 ⟨ha, ?_⟩
    simp [Statement.isWithin, hline, hfirst, hlast]
  exact ⟨⟨a, hmem, hstart ▸ h.le⟩, a, hmem, hstop⟩

end LineTable

end BytecodeDebugger
