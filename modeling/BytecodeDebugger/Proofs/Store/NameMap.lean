import BytecodeDebugger.Store.NameMap
import Mathlib.Tactic.Common

/-!
# What a map keyed by names holds

The value of a name and the list of entries say the same, since no two entries have one name.

Main facts: `find?_eq_some_iff` (the value of a name is the one listed with it), `eq_of_find?_eq`
(the values of the names tell all about a map), `find?_insert` and `find?_foldl_insert` (the values
after one and after several insertions), `values_insert_perm` (a new name adds one value),
`mem_toList_ofList_iff` (a map of entries of different names holds these entries), `ofList_toList`
(the entries of a map make it) and `exists_toList_around` (the value of one name changes no other
entry).
-/

namespace BytecodeDebugger.NameMap

variable {α : Type} {m : NameMap α} {name : String} {value : α}

/-- The value of a name is the one that is listed with it. -/
theorem find?_eq_some_iff : m.find? name = some value ↔ (name, value) ∈ m.toList := by
  unfold find?
  have hs := m.sorted
  generalize m.toList = es at hs
  induction es with
  | nil => simp
  | cons a rest ih =>
    rw [List.pairwise_cons] at hs
    obtain ⟨n, v⟩ := a
    by_cases h : n = name
    · subst h
      -- a second entry of the name would come after the first one in the order of names
      have hrest : (n, value) ∉ rest := fun hm => String.lt_irrefl n (hs.1 _ hm)
      rw [List.find?_cons_of_pos (by simp)]
      simp [hrest, eq_comm]
    · have hne : (name, value) ≠ (n, v) := fun he => h (congrArg Prod.fst he).symm
      rw [List.find?_cons_of_neg (by simpa using h), List.mem_cons, or_iff_right hne]
      exact ih hs.2

/-- Ordered lists with the same entries are the same. -/
theorem eq_of_mem_iff {es es' : List (String × α)} (hs : es.Pairwise (·.1 < ·.1))
    (hs' : es'.Pairwise (·.1 < ·.1)) (h : ∀ e, e ∈ es ↔ e ∈ es') : es = es' := by
  have hnodup : ∀ {es : List (String × α)}, es.Pairwise (·.1 < ·.1) → es.Nodup := by
    intro es hs
    refine hs.imp ?_
    rintro e _ hlt rfl
    exact String.lt_irrefl _ hlt
  have hperm : es.Perm es' := (List.perm_ext_iff_of_nodup (hnodup hs) (hnodup hs')).2 h
  exact hperm.eq_of_pairwise (fun _ _ _ _ hlt hlt' => absurd hlt' (String.lt_asymm hlt)) hs hs'

/-- Maps in which every name has the same value are the same, since names are listed in order. -/
theorem eq_of_find?_eq {m m' : NameMap α} (h : ∀ name, m.find? name = m'.find? name) : m = m' := by
  have hmem : ∀ e, e ∈ m.toList ↔ e ∈ m'.toList := by
    rintro ⟨name, value⟩
    rw [← find?_eq_some_iff, ← find?_eq_some_iff, h]
  have hlist : m.toList = m'.toList := eq_of_mem_iff m.sorted m'.sorted hmem
  cases m
  cases m'
  cases hlist
  rfl

/-- A value is listed exactly if some name has it. -/
theorem mem_values_iff : value ∈ m.values ↔ ∃ name, m.find? name = some value := by
  unfold values
  rw [List.mem_map]
  constructor
  · rintro ⟨⟨n, v⟩, hmem, rfl⟩
    exact ⟨n, find?_eq_some_iff.2 hmem⟩
  · rintro ⟨n, hfind⟩
    exact ⟨(n, value), find?_eq_some_iff.1 hfind, rfl⟩

theorem contains_eq_false_iff : m.contains name = false ↔ m.find? name = none := by
  unfold contains
  rw [Option.isSome_eq_false_iff, Option.isNone_iff_eq_none]

theorem find?_insert (m : NameMap α) (name other : String) (value : α) :
    (m.insert name value).find? other = if other = name then some value else m.find? other := by
  by_cases h : other = name
  · rw [if_pos h, h, find?_insert_self]
  · rw [if_neg h, find?_insert_of_ne value h]

/-- Inserting a name that is not there adds one entry to the others. -/
theorem insertEntry_perm {es : List (String × α)} (h : ∀ e ∈ es, e.1 ≠ name) :
    (insertEntry name value es).Perm ((name, value) :: es) := by
  induction es with
  | nil => exact List.Perm.refl _
  | cons a rest ih =>
    have hne : ¬name = a.1 := fun heq => h a List.mem_cons_self heq.symm
    rw [insertEntry, if_neg hne]
    by_cases hlt : name < a.1
    · rw [if_pos hlt]
    · rw [if_neg hlt]
      have hrest := ih fun e he => h e (List.mem_cons_of_mem a he)
      exact (hrest.cons a).trans (List.Perm.swap _ _ _)

/-- Inserting a name without a value adds one value to the others. -/
theorem values_insert_perm (h : m.find? name = none) :
    (m.insert name value).values.Perm (value :: m.values) := by
  have hnew : ∀ e ∈ m.toList, e.1 ≠ name := by
    rintro ⟨n, v⟩ he rfl
    exact Option.some_ne_none v ((find?_eq_some_iff.2 he).symm.trans h)
  exact (insertEntry_perm hnew).map Prod.snd

/-- Several insertions of one value change the values of the names inserted. -/
theorem find?_foldl_insert (names : List String) (m : NameMap α) (other : String) (value : α) :
    (names.foldl (fun m name => m.insert name value) m).find? other =
      if other ∈ names then some value else m.find? other := by
  induction names generalizing m with
  | nil => simp
  | cons name rest ih =>
    rw [List.foldl_cons, ih, find?_insert]
    by_cases hrest : other ∈ rest
    · simp [hrest]
    · simp [hrest]

theorem nodup_names (m : NameMap α) : (m.toList.map (·.1)).Nodup := by
  refine List.pairwise_map.2 (m.sorted.imp ?_)
  rintro e e' hlt heq
  exact String.lt_irrefl _ (heq ▸ hlt)

/-- After entries of different names were inserted, these names have the values of their entries and
all others the ones from before. -/
theorem find?_foldl_insert_entries {es : List (String × α)} (h : (es.map (·.1)).Nodup)
    (m : NameMap α) :
    (es.foldl (fun m e => m.insert e.1 e.2) m).find? name = some value ↔
      (name, value) ∈ es ∨ (name ∉ es.map (·.1) ∧ m.find? name = some value) := by
  induction es generalizing m with
  | nil => simp
  | cons e rest ih =>
    obtain ⟨hnew, hrest⟩ := List.nodup_cons.1 h
    rw [List.foldl_cons, ih hrest, find?_insert]
    by_cases hname : name = e.1
    · subst hname
      have hnot : (e.1, value) ∉ rest := fun hmem =>
        hnew (List.mem_map.2 ⟨_, hmem, rfl⟩)
      simp [hnot, hnew, Prod.ext_iff, eq_comm]
    · have hne : (name, value) ≠ e := fun heq => hname (congrArg Prod.fst heq)
      simp [hname, hne]

/-- A map of entries of different names holds these entries. -/
theorem mem_toList_ofList_iff {es : List (String × α)} (h : (es.map (·.1)).Nodup)
    {e : String × α} : e ∈ (ofList es).toList ↔ e ∈ es := by
  obtain ⟨name, value⟩ := e
  rw [← find?_eq_some_iff, ofList, find?_foldl_insert_entries h]
  simp [find?, empty]

/-- The entries of a map make it again. -/
theorem ofList_toList (m : NameMap α) : ofList m.toList = m := by
  refine eq_of_find?_eq fun name => Option.ext fun value => ?_
  rw [find?_eq_some_iff, mem_toList_ofList_iff m.nodup_names, find?_eq_some_iff]

/-- The entry of a name, if there is one. -/
def entry (m : NameMap α) (name : String) : List (String × α) :=
  ((m.find? name).map (name, ·)).toList

/-- The entries of a map are those of smaller names, the one of the name if there is one, and those
of greater names. -/
theorem toList_eq_filter_append (m : NameMap α) (name : String) :
    m.toList = m.toList.filter (·.1 < name) ++ m.entry name ++ m.toList.filter (name < ·.1) := by
  unfold entry find?
  have hs := m.sorted
  generalize m.toList = es at hs
  induction es with
  | nil => rfl
  | cons e rest ih =>
    rw [List.pairwise_cons] at hs
    obtain ⟨n, v⟩ := e
    have hbehind : ∀ e ∈ rest, n < e.1 := hs.1
    by_cases heq : n = name
    · subst heq
      have hfront : rest.filter (·.1 < n) = [] := by
        rw [List.filter_eq_nil_iff]
        exact fun e he => by simpa using String.lt_asymm (hbehind e he)
      have hback : rest.filter (n < ·.1) = rest := by
        rw [List.filter_eq_self]
        exact fun e he => by simpa using hbehind e he
      rw [List.filter_cons_of_neg (by simp), List.filter_cons_of_neg (by simp),
        List.find?_cons_of_pos (by simp), hfront, hback]
      rfl
    · rw [List.find?_cons_of_neg (by simpa using heq)]
      by_cases hlt : n < name
      · rw [List.filter_cons_of_pos (by simpa using hlt),
          List.filter_cons_of_neg (by simpa using String.lt_asymm hlt), List.cons_append,
          List.cons_append, ← ih hs.2]
      · have hgt : name < n :=
          (Std.le_iff_lt_or_eq.1 (String.not_lt.1 hlt)).resolve_right (Ne.symm heq)
        have hfront : rest.filter (·.1 < name) = [] := by
          rw [List.filter_eq_nil_iff]
          exact fun e he => by simpa using String.lt_asymm (String.lt_trans hgt (hbehind e he))
        have hnone : rest.find? (fun e => e.1 == name) = none := by
          rw [List.find?_eq_none]
          intro e he hname
          obtain rfl := eq_of_beq hname
          exact String.lt_asymm hgt (hbehind e he)
        have hback : rest.filter (name < ·.1) = rest := by
          rw [List.filter_eq_self]
          exact fun e he => by simpa using String.lt_trans hgt (hbehind e he)
        rw [List.filter_cons_of_neg (by simpa using hlt),
          List.filter_cons_of_pos (by simpa using hgt), hfront, hnone, hback]
        rfl

/-- Maps that differ in the value of one name at most have the same entries in front of it and
behind it. -/
theorem exists_toList_around {m m' : NameMap α} {name : String}
    (h : ∀ other, other ≠ name → m.find? other = m'.find? other) :
    ∃ front back, (∀ e ∈ front ++ back, e.1 ≠ name) ∧
      m.toList = front ++ m.entry name ++ back ∧ m'.toList = front ++ m'.entry name ++ back := by
  -- the entries of other names are chosen by their names, and they are the same
  have hsame : ∀ q : String → Bool, q name = false →
      m.toList.filter (fun e => q e.1) = m'.toList.filter (fun e => q e.1) := by
    intro q hq
    refine eq_of_mem_iff (m.sorted.filter _) (m'.sorted.filter _) ?_
    rintro ⟨other, value⟩
    rw [List.mem_filter, List.mem_filter, ← find?_eq_some_iff, ← find?_eq_some_iff]
    by_cases hother : other = name
    · simp [hother, hq]
    · rw [h other hother]
  have hself : decide (name < name) = false := decide_eq_false (String.lt_irrefl name)
  refine ⟨_, _, ?_, m.toList_eq_filter_append name, ?_⟩
  · rintro e he rfl
    rcases List.mem_append.1 he with he | he
    · exact String.lt_irrefl _ (of_decide_eq_true (List.mem_filter.1 he).2)
    · exact String.lt_irrefl _ (of_decide_eq_true (List.mem_filter.1 he).2)
  · rw [hsame (fun other => other < name) hself, hsame (fun other => name < other) hself]
    exact m'.toList_eq_filter_append name

end BytecodeDebugger.NameMap
