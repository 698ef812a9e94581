import BytecodeDebugger.Decode.Trace
import Mathlib.Tactic.Common

/-!
# Pieces that tile a stretch of offsets

Pieces of a stream, each with the offset where it begins and the offset just past it. They tile a
stretch if the first one begins where the stretch does, each one begins where the one before it
ends, and the last one ends where the stretch does. A trace spans a stretch if its items tile it, or
if they tile a part of it and the failure lies in what they leave.

Main facts: `Tiles.countP_contains` (an offset of the stretch lies in exactly one piece),
`Tiles.length_le` (there are no more pieces than offsets) and `Trace.Spans.eq_nil` (nothing spans an
empty stretch but the empty trace).
-/

namespace BytecodeDebugger

variable {α β : Type}

/-- The pieces follow each other without a gap from one offset to another, and none is empty. -/
def Tiles (first next : α → Nat) : (start : Nat) → List α → (stop : Nat) → Prop
  | start, [], stop => start = stop
  | start, a :: rest, stop => first a = start ∧ start < next a ∧ Tiles first next (next a) rest stop

namespace Tiles

variable {first next : α → Nat} {start stop : Nat} {as : List α}

/-- A stretch does not end before it begins. -/
theorem le (h : Tiles first next start as stop) : start ≤ stop := by
  induction as generalizing start with
  | nil => exact Nat.le_of_eq h
  | cons a rest ih =>
    obtain ⟨-, hlt, hrest⟩ := h
    have := ih hrest
    omega

/-- There are no more pieces than offsets. -/
theorem length_le (h : Tiles first next start as stop) : as.length ≤ stop - start := by
  induction as generalizing start with
  | nil => simp
  | cons a rest ih =>
    obtain ⟨-, hlt, hrest⟩ := h
    have := ih hrest
    have := hrest.le
    rw [List.length_cons]
    omega

/-- No piece is empty. -/
theorem first_lt_next (h : Tiles first next start as stop) {a : α} (ha : a ∈ as) :
    first a < next a := by
  induction as generalizing start with
  | nil => exact absurd ha List.not_mem_nil
  | cons b rest ih =>
    obtain ⟨hfirst, hlt, hrest⟩ := h
    rcases List.mem_cons.1 ha with rfl | ha
    · omega
    · exact ih hrest ha

/-- Every piece begins in the stretch. -/
theorem start_le_first (h : Tiles first next start as stop) {a : α} (ha : a ∈ as) :
    start ≤ first a := by
  induction as generalizing start with
  | nil => exact absurd ha List.not_mem_nil
  | cons b rest ih =>
    obtain ⟨hfirst, hlt, hrest⟩ := h
    rcases List.mem_cons.1 ha with rfl | ha
    · omega
    · have := ih hrest ha
      omega

/-- Every piece ends in the stretch. -/
theorem next_le_stop (h : Tiles first next start as stop) {a : α} (ha : a ∈ as) :
    next a ≤ stop := by
  induction as generalizing start with
  | nil => exact absurd ha List.not_mem_nil
  | cons b rest ih =>
    obtain ⟨-, -, hrest⟩ := h
    rcases List.mem_cons.1 ha with rfl | ha
    · exact hrest.le
    · exact ih hrest ha

/-- A piece ends before all later ones begin. -/
theorem pairwise_next_le (h : Tiles first next start as stop) :
    as.Pairwise fun a b => next a ≤ first b := by
  induction as generalizing start with
  | nil => exact List.Pairwise.nil
  | cons a rest ih =>
    obtain ⟨-, -, hrest⟩ := h
    exact List.pairwise_cons.2 ⟨fun b hb => hrest.start_le_first hb, ih hrest⟩

theorem pairwise_first (h : Tiles first next start as stop) :
    as.Pairwise fun a b => first a < first b := by
  refine h.pairwise_next_le.imp_of_mem ?_
  intro a b ha _ hle
  exact Nat.lt_of_lt_of_le (h.first_lt_next ha) hle

/-- Of two pieces one ends before the other begins, unless they are the same. -/
theorem eq_or_next_le (h : Tiles first next start as stop) {a b : α} (ha : a ∈ as) (hb : b ∈ as) :
    a = b ∨ next a ≤ first b ∨ next b ≤ first a := by
  induction as generalizing start with
  | nil => exact absurd ha List.not_mem_nil
  | cons c rest ih =>
    obtain ⟨-, -, hrest⟩ := h
    rcases List.mem_cons.1 ha with rfl | hmem
    · rcases List.mem_cons.1 hb with rfl | hmem'
      · exact .inl rfl
      · exact .inr (.inl (hrest.start_le_first hmem'))
    · rcases List.mem_cons.1 hb with rfl | hmem'
      · exact .inr (.inr (hrest.start_le_first hmem))
      · exact ih hrest hmem hmem'

/-- A piece that begins before another one ends before it begins. -/
theorem next_le_of_first_lt (h : Tiles first next start as stop) {a b : α} (ha : a ∈ as)
    (hb : b ∈ as) (hlt : first a < first b) : next a ≤ first b := by
  have := h.first_lt_next hb
  rcases h.eq_or_next_le ha hb with rfl | hle | hle
  · omega
  · exact hle
  · omega

/-- An offset lies in one piece at most. -/
theorem eq_of_contains (h : Tiles first next start as stop) {a b : α} (ha : a ∈ as) (hb : b ∈ as)
    {c : Nat} (hca : first a ≤ c ∧ c < next a) (hcb : first b ≤ c ∧ c < next b) : a = b := by
  rcases h.eq_or_next_le ha hb with rfl | hle | hle
  · rfl
  · omega
  · omega

/-- An offset of the stretch lies in some piece. -/
theorem exists_contains (h : Tiles first next start as stop) {c : Nat} (hstart : start ≤ c)
    (hstop : c < stop) : ∃ a ∈ as, first a ≤ c ∧ c < next a := by
  induction as generalizing start with
  | nil =>
    have heq : start = stop := h
    omega
  | cons a rest ih =>
    obtain ⟨hfirst, -, hrest⟩ := h
    by_cases hc : c < next a
    · exact ⟨a, List.mem_cons_self, by omega, hc⟩
    · obtain ⟨b, hb, hle, hlt⟩ := ih hrest (Nat.not_lt.1 hc)
      exact ⟨b, List.mem_cons_of_mem a hb, hle, hlt⟩

/-- An offset lies in exactly one piece if it lies in the stretch, and in none otherwise. -/
theorem countP_contains (h : Tiles first next start as stop) (c : Nat) :
    as.countP (fun a => first a ≤ c && c < next a) = if start ≤ c ∧ c < stop then 1 else 0 := by
  induction as generalizing start with
  | nil =>
    have hstop : start = stop := h
    rw [List.countP_nil, if_neg (by omega)]
  | cons a rest ih =>
    obtain ⟨hfirst, hlt, hrest⟩ := h
    have hle := hrest.le
    rw [List.countP_cons, ih hrest, hfirst]
    by_cases hin : start ≤ c ∧ c < next a
    · rw [if_neg (by omega), if_pos (by simpa using hin), if_pos (by omega)]
    · rw [if_neg (c := (start ≤ c && c < next a) = true) (by simpa using hin)]
      by_cases hrest : next a ≤ c ∧ c < stop
      · rw [if_pos hrest, if_pos (by omega)]
      · rw [if_neg hrest, if_neg (by omega)]

/-- Pieces and further ones tile a stretch if the further ones begin where the others end. -/
theorem append_iff {bs : List α} :
    Tiles first next start (as ++ bs) stop ↔
      ∃ mid, Tiles first next start as mid ∧ Tiles first next mid bs stop := by
  induction as generalizing start with
  | nil => exact ⟨fun h => ⟨start, rfl, h⟩, fun ⟨mid, hmid, h⟩ => hmid ▸ h⟩
  | cons a rest ih =>
    constructor
    · rintro ⟨hfirst, hlt, hrest⟩
      obtain ⟨mid, hmid, hbs⟩ := ih.1 hrest
      exact ⟨mid, ⟨hfirst, hlt, hmid⟩, hbs⟩
    · rintro ⟨mid, ⟨hfirst, hlt, hmid⟩, hbs⟩
      exact ⟨hfirst, hlt, ih.2 ⟨mid, hmid, hbs⟩⟩

/-- The same pieces end at one place. -/
theorem stop_unique {stop' : Nat} (h : Tiles first next start as stop)
    (h' : Tiles first next start as stop') : stop = stop' := by
  induction as generalizing start with
  | nil => exact Eq.trans (Eq.symm h) h'
  | cons a rest ih => exact ih h.2.2 h'.2.2

/-- The stretch ends where the last piece does, or where it begins if there is none. -/
theorem stop_eq (h : Tiles first next start as stop) :
    stop = (as.getLast?.map next).getD start := by
  induction as generalizing start with
  | nil => exact Eq.symm h
  | cons a rest ih =>
    obtain ⟨-, -, hrest⟩ := h
    rw [ih hrest, List.getLast?_cons]
    cases rest.getLast? <;> rfl

/-- Pieces in a row are those that begin in the stretch which they tile. -/
theorem filter_eq {front bs back : List α} {lo hi : Nat}
    (h : Tiles first next start (front ++ (bs ++ back)) stop) (hbs : Tiles first next lo bs hi)
    (hne : bs ≠ []) :
    (front ++ (bs ++ back)).filter (fun a => lo ≤ first a && first a < hi) = bs := by
  obtain ⟨mid, hfront, hrest⟩ := append_iff.1 h
  obtain ⟨mid', hmid, hback⟩ := append_iff.1 hrest
  obtain ⟨b, more, rfl⟩ := List.exists_cons_of_ne_nil hne
  obtain rfl : lo = mid := hbs.1.symm.trans hmid.1
  obtain rfl : hi = mid' := hbs.stop_unique hmid
  have hbefore : front.filter (fun a => lo ≤ first a && first a < hi) = [] := by
    refine List.filter_eq_nil_iff.2 fun a ha => ?_
    have hlt := hfront.first_lt_next ha
    have hnext := hfront.next_le_stop ha
    simp
    omega
  have hwithin : (b :: more).filter (fun a => lo ≤ first a && first a < hi) = b :: more := by
    refine List.filter_eq_self.2 fun a ha => ?_
    have hle := hmid.start_le_first ha
    have hlt := hmid.first_lt_next ha
    have hnext := hmid.next_le_stop ha
    simp
    omega
  have hbehind : back.filter (fun a => lo ≤ first a && first a < hi) = [] := by
    refine List.filter_eq_nil_iff.2 fun a ha => ?_
    have hle := hback.start_le_first ha
    simp
    omega
  rw [List.filter_append, List.filter_append, hbefore, hwithin, hbehind, List.nil_append,
    List.append_nil]

end Tiles

/-! ## Traces -/

namespace Trace

/-- The items tile the stretch, or they tile a part of it in front and the failure lies behind them
in the stretch. -/
def Spans (first next : α → Nat) (start stop : Nat) (t : Trace α) : Prop :=
  ∃ reached, Tiles first next start t.items reached ∧
    match t.failure with
    | none => reached = stop
    | some e => reached ≤ e.offset ∧ e.offset < stop

namespace Spans

variable {first next : α → Nat} {start stop : Nat} {t : Trace α} {a : α} {e : DecodeError}

theorem done : Spans first next stop stop (⟨[], none⟩ : Trace α) := ⟨stop, rfl, rfl⟩

theorem failed (hstart : start ≤ e.offset) (hstop : e.offset < stop) :
    Spans first next start stop (⟨[], some e⟩ : Trace α) := ⟨start, rfl, hstart, hstop⟩

theorem cons (hfirst : first a = start) (hlt : start < next a)
    (h : Spans first next (next a) stop t) : Spans first next start stop (t.cons a) := by
  obtain ⟨reached, htiles, hend⟩ := h
  exact ⟨reached, ⟨hfirst, hlt, htiles⟩, hend⟩

theorem tail (h : Spans first next start stop (t.cons a)) :
    first a = start ∧ start < next a ∧ Spans first next (next a) stop t := by
  obtain ⟨reached, ⟨hfirst, hlt, htiles⟩, hend⟩ := h
  exact ⟨hfirst, hlt, reached, htiles, hend⟩

theorem le (h : Spans first next start stop t) : start ≤ stop := by
  obtain ⟨reached, htiles, hend⟩ := h
  have := htiles.le
  split at hend <;> omega

theorem length_le (h : Spans first next start stop t) : t.items.length ≤ stop - start := by
  obtain ⟨reached, htiles, hend⟩ := h
  have := htiles.length_le
  split at hend <;> omega

theorem first_lt_next (h : Spans first next start stop t) (ha : a ∈ t.items) :
    first a < next a := by
  obtain ⟨reached, htiles, -⟩ := h
  exact htiles.first_lt_next ha

/-- Every item ends in the stretch. -/
theorem next_le_stop (h : Spans first next start stop t) (ha : a ∈ t.items) : next a ≤ stop := by
  obtain ⟨reached, htiles, hend⟩ := h
  have := htiles.next_le_stop ha
  split at hend <;> omega

/-- Without a failure, the items tile the whole stretch. -/
theorem tiles_of_failure_eq_none (h : Spans first next start stop t) (hf : t.failure = none) :
    Tiles first next start t.items stop := by
  obtain ⟨reached, htiles, hend⟩ := h
  rw [hf] at hend
  exact hend ▸ htiles

/-- Only the empty trace spans an empty stretch. -/
theorem eq_nil (h : Spans first next stop stop t) : t = ⟨[], none⟩ := by
  have hitems : t.items = [] := by
    have := h.length_le
    exact List.eq_nil_of_length_eq_zero (by omega)
  obtain ⟨reached, htiles, hend⟩ := h
  have hle := htiles.le
  obtain ⟨items, failure⟩ := t
  cases failure with
  | none => exact congrArg (Trace.mk · none) hitems
  | some e =>
    have hend : reached ≤ e.offset ∧ e.offset < stop := hend
    omega

end Spans

/-- Taking more outcomes than there are items yields the items and then the failure, and leaves
nothing. -/
theorem drain_of_length_lt {t : Trace α} {count : Nat} (h : t.items.length < count) :
    t.drain count = (t.items.map .ok ++ (t.failure.map .error).toList, ⟨[], none⟩) := by
  obtain ⟨items, failure⟩ := t
  induction items generalizing count with
  | nil =>
    obtain ⟨count, rfl⟩ : ∃ k, count = k + 1 := ⟨count - 1, by simp at h; omega⟩
    cases failure with
    | none => rfl
    | some e => cases count <;> rfl
  | cons a rest ih =>
    obtain ⟨count, rfl⟩ : ∃ k, count = k + 1 := ⟨count - 1, by simp at h; omega⟩
    have hrest : rest.length < count := by simpa using h
    simp only [drain, next?, ih hrest, List.map_cons, List.cons_append]

end Trace

end BytecodeDebugger
