import BytecodeDebugger.Proofs.Json.Grammar

/-!
# Written documents

Both ways of writing a document, on one line and with one item a line, spell its value, so that a
written document is read as what was written. This is said of values whose numbers are whole; a
double is written with a point or an exponent.

Main facts: `IsPlain.parse?_compact` and `IsPlain.parse?_pretty` (a written document is read as its
value) and `IsPlain.not_mem_compact` (on one line, no control is written).
-/

namespace BytecodeDebugger.Json

open Decimal (Literal)

/-- The numbers in the value are whole, and its texts can be read. -/
inductive IsPlain : Json → Prop
  | null : IsPlain .null
  | bool (value : Bool) : IsPlain (.bool value)
  | number (n : Int) : IsPlain (.number (.ofInt n))
  | string (text : String) : IsPlain (.string text)
  | array {items : List Json} (h : ∀ v ∈ items, IsPlain v) : IsPlain (.array items)
  | object {members : List (String × Json)} (h : ∀ m ∈ members, IsPlain m.2) :
    IsPlain (.object members)

attribute [simp] IsPlain.null IsPlain.bool IsPlain.string

@[simp] theorem isPlain_nat (n : Nat) : IsPlain (.nat n) := .number n

@[simp] theorem isPlain_int (n : Int) : IsPlain (.int n) := .number n

@[simp] theorem isPlain_array_iff {items : List Json} :
    IsPlain (.array items) ↔ ∀ v ∈ items, IsPlain v :=
  ⟨fun h => by cases h; assumption, .array⟩

@[simp] theorem isPlain_object_iff {members : List (String × Json)} :
    IsPlain (.object members) ↔ ∀ m ∈ members, IsPlain m.2 :=
  ⟨fun h => by cases h; assumption, .object⟩

@[simp] theorem isPlain_list_iff {α : Type} {write : α → Json} {items : List α} :
    IsPlain (.list write items) ↔ ∀ a ∈ items, IsPlain (write a) :=
  isPlain_array_iff.trans List.forall_mem_map

@[simp] theorem isPlain_option_iff {α : Type} {write : α → Json} {value : Option α} :
    IsPlain (.option write value) ↔ ∀ a ∈ value, IsPlain (write a) := by
  cases value <;> simp [Json.option]

/-! ## Items and members -/

theorem compactItems_eq_flatMap (vs : List Json) :
    compactItems vs = vs.flatMap fun v => ',' :: ([] ++ v.compactChars) := by
  induction vs with
  | nil => rfl
  | cons v vs ih => rw [compactItems, ih]; rfl

theorem prettyItems_eq_flatMap (level : Nat) (vs : List Json) :
    prettyItems level vs = vs.flatMap fun v => ',' :: (newLine level ++ v.prettyChars level) := by
  induction vs with
  | nil => rfl
  | cons v vs ih => rw [prettyItems, ih]; simp

/-- Further members on one line. -/
theorem compactMembers_eq_flatMap (ms : List (String × Json)) :
    compactMembers ms =
      ms.flatMap fun m => ',' :: ([] ++ (textChars m.1 ++ ':' :: ([] ++ m.2.compactChars))) := by
  induction ms with
  | nil => rfl
  | cons m ms ih => rw [compactMembers, ih]; simp

/-- Further members, one a line. -/
theorem prettyMembers_eq_flatMap (level : Nat) (ms : List (String × Json)) :
    prettyMembers level ms =
      ms.flatMap fun m =>
        ',' :: (newLine level ++ (textChars m.1 ++ ':' :: ([' '] ++ m.2.prettyChars level))) := by
  induction ms with
  | nil => rfl
  | cons m ms ih => rw [prettyMembers, ih]; simp

/-- Items with commas between them, blanks behind each comma and blanks at the end. -/
theorem spells_items {write : Json → List Char} {gap last : List Char} (hgap : IsBlank gap)
    (hlast : IsBlank last) {v : Json} {vs : List Json}
    (h : ∀ w ∈ v :: vs, Spells (.value w) (write w)) :
    Spells (.items (v :: vs))
      (write v ++ (vs.flatMap (fun w => ',' :: (gap ++ write w)) ++ (last ++ [']']))) := by
  induction vs generalizing v with
  | nil => exact .lastItem (h v List.mem_cons_self) hlast
  | cons w vs ih =>
    -- the comma in front of `w` belongs to what follows `v`, and `w` is the first of the rest
    have hrest := ih fun w' hw' => h w' (List.mem_cons_of_mem v hw')
    have hspells := Spells.item (h v List.mem_cons_self) isBlank_nil hgap hrest
    simpa using hspells

/-- Members with commas between them, blanks behind each comma and each colon, and blanks at the
end. -/
theorem spells_members {write : Json → List Char} {gap gap' last : List Char} (hgap : IsBlank gap)
    (hgap' : IsBlank gap') (hlast : IsBlank last) {m : String × Json} {ms : List (String × Json)}
    (h : ∀ m' ∈ m :: ms, Spells (.value m'.2) (write m'.2)) :
    Spells (.members (m :: ms))
      (textChars m.1 ++ ':' :: (gap' ++ (write m.2 ++
        (ms.flatMap (fun m' => ',' :: (gap ++ (textChars m'.1 ++ ':' :: (gap' ++ write m'.2)))) ++
          (last ++ ['\x7d']))))) := by
  induction ms generalizing m with
  | nil => exact .lastMember isBlank_nil hgap' (h m List.mem_cons_self) hlast
  | cons m' ms ih =>
    obtain ⟨key, v⟩ := m
    have hrest := ih fun w hw => h w (List.mem_cons_of_mem _ hw)
    have hspells : Spells (.members ((key, v) :: m' :: ms)) _ :=
      .member isBlank_nil hgap' (h (key, v) List.mem_cons_self) isBlank_nil hgap hrest
    simpa using hspells

/-! ## Both ways of writing -/

/-- A value on one line is spelled. -/
theorem IsPlain.spells_compactChars {j : Json} (h : IsPlain j) :
    Spells (.value j) j.compactChars := by
  induction h with
  | null => exact .null
  | bool value => cases value <;> constructor
  | number n => exact .number n
  | string text => exact .string text
  | @array items _ ih =>
    cases items with
    | nil => exact .emptyArray isBlank_nil
    | cons v vs =>
      have hspells := Spells.array isBlank_nil (spells_items isBlank_nil isBlank_nil ih)
      rw [compactChars, compactItems_eq_flatMap]
      simpa using hspells
  | @object members _ ih =>
    cases members with
    | nil => exact .emptyObject isBlank_nil
    | cons m ms =>
      have hspells :=
        Spells.object isBlank_nil (spells_members isBlank_nil isBlank_nil isBlank_nil ih)
      rw [compactChars, compactMembers_eq_flatMap]
      simpa using hspells

/-- A value with one item a line is spelled. -/
theorem IsPlain.spells_prettyChars {j : Json} (h : IsPlain j) (level : Nat) :
    Spells (.value j) (j.prettyChars level) := by
  induction h generalizing level with
  | null => exact .null
  | bool value => cases value <;> constructor
  | number n => exact .number n
  | string text => exact .string text
  | @array items _ ih =>
    cases items with
    | nil => exact .emptyArray isBlank_nil
    | cons v vs =>
      have hspells := Spells.array (isBlank_newLine (level + 1))
        (spells_items (isBlank_newLine (level + 1)) (isBlank_newLine level)
          fun w hw => ih w hw (level + 1))
      rw [prettyChars, prettyItems_eq_flatMap]
      simpa using hspells
  | @object members _ ih =>
    cases members with
    | nil => exact .emptyObject isBlank_nil
    | cons m ms =>
      have hspells := Spells.object (isBlank_newLine (level + 1))
        (spells_members (isBlank_newLine (level + 1)) isBlank_space (isBlank_newLine level)
          fun m' hm' => ih m' hm' (level + 1))
      rw [prettyChars, prettyMembers_eq_flatMap]
      simpa using hspells

/-- A document on one line is read as its value. -/
theorem IsPlain.parse?_compact {j : Json} (h : IsPlain j) : parse? j.compact = some j :=
  h.spells_compactChars.parse?_eq

/-- A document with one item a line is read as its value. -/
theorem IsPlain.parse?_pretty {j : Json} (h : IsPlain j) : parse? j.pretty = some j :=
  (h.spells_prettyChars 0).parse?_eq

/-- A character of an array on one line is a mark or belongs to an item. -/
theorem mem_compactChars_array {items : List Json} {c : Char}
    (h : c ∈ (Json.array items).compactChars) :
    c ∈ ['[', ',', ']'] ∨ ∃ v ∈ items, c ∈ v.compactChars := by
  cases items with
  | nil =>
    rw [compactChars] at h
    grind
  | cons v vs =>
    rw [compactChars, compactItems_eq_flatMap] at h
    simp only [List.cons_append, List.nil_append, List.mem_cons, List.mem_append, List.mem_flatMap]
      at h
    grind

/-- A character of an object on one line is a mark or belongs to a key or a value. -/
theorem mem_compactChars_object {members : List (String × Json)} {c : Char}
    (h : c ∈ (Json.object members).compactChars) :
    c ∈ ['\x7b', ':', ',', '\x7d'] ∨ ∃ m ∈ members, c ∈ textChars m.1 ∨ c ∈ m.2.compactChars := by
  cases members with
  | nil =>
    rw [compactChars] at h
    grind
  | cons m ms =>
    rw [compactChars, compactMembers_eq_flatMap] at h
    simp only [List.cons_append, List.nil_append, List.mem_cons, List.mem_append, List.mem_flatMap]
      at h
    grind

/-- No control is written on one line, line ends included. -/
theorem IsPlain.le_toNat_of_mem_compactChars {j : Json} (h : IsPlain j) {c : Char}
    (hc : c ∈ j.compactChars) : 0x20 ≤ c.toNat := by
  have hnull : hasNoControl ['n', 'u', 'l', 'l'] = true := by decide
  have htrue : hasNoControl ['t', 'r', 'u', 'e'] = true := by decide
  have hfalse : hasNoControl ['f', 'a', 'l', 's', 'e'] = true := by decide
  have harray : hasNoControl ['[', ',', ']'] = true := by decide
  have hobject : hasNoControl ['\x7b', ':', ',', '\x7d'] = true := by decide
  induction h with
  | null => exact le_toNat_of_hasNoControl hnull hc
  | bool value =>
    cases value with
    | true => exact le_toNat_of_hasNoControl htrue hc
    | false => exact le_toNat_of_hasNoControl hfalse hc
  | number n => exact le_toNat_of_mem_chars_ofInt hc
  | string text => exact le_toNat_of_mem_textChars hc
  | array _ ih =>
    rcases mem_compactChars_array hc with hc | ⟨v, hv, hc⟩
    · exact le_toNat_of_hasNoControl harray hc
    · exact ih v hv hc
  | object _ ih =>
    rcases mem_compactChars_object hc with hc | ⟨m, hm, hc | hc⟩
    · exact le_toNat_of_hasNoControl hobject hc
    · exact le_toNat_of_mem_textChars hc
    · exact ih m hm hc

/-- A document on one line holds no control. -/
theorem IsPlain.not_mem_compact {j : Json} (h : IsPlain j) {c : Char} (hc : c.toNat < 0x20) :
    c ∉ j.compact.toList := by
  rw [compact, String.toList_ofList]
  exact fun hmem => Nat.not_le_of_lt hc (h.le_toNat_of_mem_compactChars hmem)

end BytecodeDebugger.Json
