/-!
# Maps keyed by names

A finite map from names to values. Its entries are listed in ascending order of their names, which
is the order of code points and so that of the UTF-8 bytes; there is one entry a name.

Main facts: `find?_insert_self` and `find?_insert_of_ne` (inserting changes the entry of one name).
-/

namespace BytecodeDebugger

/-- The entries of a map with one more, which replaces an entry of the same name. -/
def insertEntry {α : Type} (name : String) (value : α) : List (String × α) → List (String × α)
  | [] => [(name, value)]
  | e :: rest =>
    if name = e.1 then (name, value) :: rest
    else if name < e.1 then (name, value) :: e :: rest
    else e :: insertEntry name value rest

/-- A name of the new list is the new one or one of the old ones. -/
theorem mem_insertEntry {α : Type} {name : String} {value : α} {es : List (String × α)}
    {e : String × α} (h : e ∈ insertEntry name value es) : e = (name, value) ∨ e ∈ es := by
  induction es with
  | nil => simpa [insertEntry] using h
  | cons a rest ih =>
    simp only [insertEntry] at h
    split at h
    · simp only [List.mem_cons] at h ⊢; grind
    · split at h
      · simp only [List.mem_cons] at h ⊢; grind
      · simp only [List.mem_cons] at h ⊢; grind

/-- Inserting keeps the names in ascending order. -/
theorem pairwise_insertEntry {α : Type} {name : String} {value : α} {es : List (String × α)}
    (h : es.Pairwise (·.1 < ·.1)) : (insertEntry name value es).Pairwise (·.1 < ·.1) := by
  induction es with
  | nil => simp [insertEntry]
  | cons a rest ih =>
    rw [List.pairwise_cons] at h
    simp only [insertEntry]
    split
    · next heq => rw [List.pairwise_cons]; exact ⟨fun b hb => heq ▸ h.1 b hb, h.2⟩
    · next hne =>
      split
      · next hlt =>
        rw [List.pairwise_cons]
        refine ⟨fun b hb => ?_, List.pairwise_cons.2 h⟩
        rcases List.mem_cons.1 hb with rfl | hb
        · exact hlt
        · exact String.lt_trans hlt (h.1 b hb)
      · next hge =>
        rw [List.pairwise_cons]
        refine ⟨fun b hb => ?_, ih h.2⟩
        rcases mem_insertEntry hb with rfl | hb
        · have hle : a.1 ≤ name := String.not_lt.1 hge
          rcases Std.le_iff_lt_or_eq.1 hle with hlt | heq
          · exact hlt
          · exact absurd heq.symm hne
        · exact h.1 b hb

/-- A map from names to values. -/
structure NameMap (α : Type) where
  /-- The entries, in ascending order of their names. -/
  toList : List (String × α)
  sorted : toList.Pairwise (·.1 < ·.1)
  deriving DecidableEq

namespace NameMap

variable {α β : Type}

/-- The map without entries. -/
def empty : NameMap α := ⟨[], .nil⟩

instance : Inhabited (NameMap α) := ⟨empty⟩

/-- The map with one more entry, which replaces an entry of the same name. -/
def insert (m : NameMap α) (name : String) (value : α) : NameMap α :=
  ⟨insertEntry name value m.toList, pairwise_insertEntry m.sorted⟩

/-- The map of a list of entries; of two entries with one name the later one counts. -/
def ofList (entries : List (String × α)) : NameMap α :=
  entries.foldl (fun m e => m.insert e.1 e.2) empty

/-- The value of a name. -/
def find? (m : NameMap α) (name : String) : Option α :=
  (m.toList.find? fun e => e.1 == name).map (·.2)

/-- Whether the name has a value. -/
def contains (m : NameMap α) (name : String) : Bool := (m.find? name).isSome

/-- The values, in ascending order of their names. -/
def values (m : NameMap α) : List α := m.toList.map (·.2)

/-- The names, in ascending order. -/
def names (m : NameMap α) : List String := m.toList.map (·.1)

/-- The number of entries. -/
def size (m : NameMap α) : Nat := m.toList.length

/-- The map with every value changed. -/
def map (f : α → β) (m : NameMap α) : NameMap β :=
  ⟨m.toList.map fun e => (e.1, f e.2), List.pairwise_map.2 m.sorted⟩

/-- An inserted name has the new value. -/
@[simp] theorem find?_insert_self (m : NameMap α) (name : String) (value : α) :
    (m.insert name value).find? name = some value := by
  unfold find? insert
  simp only
  induction m.toList with
  | nil => simp [insertEntry]
  | cons a rest ih =>
    simp only [insertEntry]
    split
    · simp
    · next hne =>
      split
      · simp
      · rw [List.find?_cons_of_neg]
        · exact ih
        · simpa using fun h : a.1 = name => hne h.symm

/-- Inserting a name changes no other one. -/
theorem find?_insert_of_ne {m : NameMap α} {name other : String} (value : α) (h : other ≠ name) :
    (m.insert name value).find? other = m.find? other := by
  unfold find? insert
  simp only
  induction m.toList with
  | nil => simp [insertEntry, Ne.symm h]
  | cons a rest ih =>
    simp only [insertEntry]
    split
    · next heq =>
      rw [List.find?_cons_of_neg (by simpa using Ne.symm h),
        List.find?_cons_of_neg (by simpa [← heq] using Ne.symm h)]
    · split
      · rw [List.find?_cons_of_neg (by simpa using Ne.symm h)]
      · rw [List.find?_cons, List.find?_cons]
        split
        · rfl
        · exact ih

end NameMap

end BytecodeDebugger
