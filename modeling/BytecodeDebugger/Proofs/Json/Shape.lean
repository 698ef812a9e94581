import BytecodeDebugger.Json.Shape
import BytecodeDebugger.Proofs.Store.NameMap

/-!
# Reading back what was written

The reader of each kind of value gives back the value whose document it reads: numbers that fit
their type, texts, lists, values that may be absent, maps, and the fields of a record.

Main facts: `list?_list`, `option?_option` and `map?_map` (given that their items are read back) and
`fields?_object` (the fields of a record with different keys).
-/

namespace BytecodeDebugger.Json

open Decimal (Literal)

/-! ## Numbers -/

theorem nat?_nat {limit n : Nat} (h : n < limit) : (Json.nat n).nat? limit = some n := by
  simp [nat?, nat, h]

theorem int64?_int {n : Int} (h : -0x8000000000000000 ≤ n ∧ n < 0x8000000000000000) :
    (Json.int n).int64? = some n := by
  simp [int64?, int, h]

/-! ## Lists and values that may be absent -/

/-- What is read of each item written is read of all items together. -/
theorem mapM_map_eq_some {α β γ : Type} {items : List α} {write : α → β} {read : β → Option γ}
    {f : α → γ} (h : ∀ a ∈ items, read (write a) = some (f a)) :
    (items.map write).mapM read = some (items.map f) := by
  induction items with
  | nil => rfl
  | cons a rest ih =>
    have hrest := ih fun b hb => h b (List.mem_cons_of_mem a hb)
    simp [List.mapM_cons, h a List.mem_cons_self, hrest]

/-- A list whose items are read back is read back. -/
theorem list?_list {α : Type} {write : α → Json} {read : Json → Option α} {items : List α}
    (h : ∀ a ∈ items, read (write a) = some a) : (Json.list write items).list? read = some items :=
  (mapM_map_eq_some (f := id) h).trans (by rw [List.map_id])

/-- A value that may be absent is read back if it is never written as an absent one. -/
theorem option?_option {α : Type} {write : α → Json} {read : Json → Option α} {value : Option α}
    (hnull : ∀ a, write a ≠ .null) (h : ∀ a ∈ value, read (write a) = some a) :
    (Json.option write value).option? read = some value := by
  cases value with
  | none => rfl
  | some a =>
    show (write a).option? read = some (some a)
    unfold option?
    split
    · next heq => exact absurd heq (hnull a)
    · rw [h a rfl, Option.map_some]

/-! ## Records and maps -/

/-- In a record with different keys, each key has the one value it is given with. -/
theorem valuesOf_of_mem {members : List (String × Json)} (hkeys : (members.map (·.1)).Nodup)
    {key : String} {j : Json} (h : (key, j) ∈ members) : valuesOf key members = [j] := by
  unfold valuesOf
  induction members with
  | nil => cases h
  | cons m rest ih =>
    obtain ⟨hnew, hrest⟩ := List.nodup_cons.1 hkeys
    rcases List.mem_cons.1 h with rfl | h
    · have hnone : rest.filter (fun m => m.1 == key) = [] := by
        rw [List.filter_eq_nil_iff]
        intro m hm hkey
        exact hnew (List.mem_map.2 ⟨m, hm, eq_of_beq hkey⟩)
      rw [List.filter_cons_of_pos (by simp), hnone]
      rfl
    · have hne : m.1 ≠ key := fun heq => hnew (List.mem_map.2 ⟨_, h, heq.symm⟩)
      rw [List.filter_cons_of_neg (by simpa using hne), ih hrest h]

/-- The fields of a record whose keys are different are read back in their order. -/
theorem fields?_object (names : List String) {members : List (String × Json)}
    (hnames : members.map (·.1) = names) (hkeys : names.Nodup) :
    (Json.object members).fields? names = some (members.map fun m => some m.2) := by
  subst hnames
  refine mapM_map_eq_some fun m hm => ?_
  rw [valuesOf_of_mem hkeys hm]

/-- A record that is given by its keys may be the content of a value of any enumeration. -/
theorem contentFields?_object (style : RecordStyle) (names : List String)
    {members : List (String × Json)} (hnames : members.map (·.1) = names) (hkeys : names.Nodup) :
    contentFields? style names (Json.object members) = some (members.map fun m => some m.2) := by
  rw [← fields?_object names hnames hkeys]
  cases style <;> rfl

/-- A map whose values are read back is read back. -/
theorem map?_map {α : Type} {write : α → Json} {read : Json → Option α} {m : NameMap α}
    (h : ∀ a ∈ m.values, read (write a) = some a) :
    (Json.object (m.map write).toList).map? read = some m := by
  have hentry : ∀ e ∈ m.toList, ((read (write e.2)).map fun a => (e.1, a)) = some (id e) := by
    intro e he
    rw [h e.2 (List.mem_map_of_mem he)]
    rfl
  rw [map?, NameMap.map, mapM_map_eq_some hentry, List.map_id, Option.map_some,
    NameMap.ofList_toList]

end BytecodeDebugger.Json
