import BytecodeDebugger.Code.Json
import BytecodeDebugger.Proofs.Code.LineMap
import BytecodeDebugger.Proofs.Json.Shape
import BytecodeDebugger.Proofs.Json.Written

/-!
# Documents of code objects

A target without doubles is read back from its document, which holds only whole numbers and texts.
Its numbers have to fit: a line is a number of 32 bits, an offset one of 64 bits, and a constant one
of 64 bits with a sign.

Main facts: `CodeObject.ofJson?_toJson` and `Target.ofJson?_toJson` (a document is read back),
`CodeObject.isPlain_toJson` and `Target.isPlain_toJson` (a document can be written as text).
-/

namespace BytecodeDebugger

open Json (IsPlain)
open Text (lineLimit offsetLimit)

/-! ## Constants -/

namespace Constant

/-- The constant is a double. -/
def isFloat : Constant → Bool
  | .float _ => true
  | _ => false

/-- A whole number has 64 bits, its sign included. -/
def Fits : Constant → Prop
  | .int n => -0x8000000000000000 ≤ n ∧ n < 0x8000000000000000
  | _ => True

instance : (k : Constant) → Decidable k.Fits
  | .int n => inferInstanceAs (Decidable (-0x8000000000000000 ≤ n ∧ n < 0x8000000000000000))
  | .none | .bool _ | .float _ | .str _ | .code _ => .isTrue trivial

/-- The document of a constant other than a double is plain. -/
theorem isPlain_toJson {k : Constant} (h : k.isFloat = false) : IsPlain k.toJson := by
  cases k with
  | float x => cases h
  | none | bool _ | int _ | str _ | code _ => simp [toJson]

/-- A constant other than a double is read back with its type and its value. -/
theorem ofJson?_toJson {k : Constant} (hfloat : k.isFloat = false) (hfits : k.Fits) :
    ofJson? k.toJson = some k := by
  cases k with
  | float x => cases hfloat
  | int n =>
    show (Json.int n).int64?.map Constant.int = some (.int n)
    rw [Json.int64?_int hfits, Option.map_some]
  | none | bool _ | str _ | code _ => rfl

end Constant

/-! ## Line tables -/

namespace LineTable

/-- The offsets and the lines of the table are numbers of their types. -/
def Fits (t : LineTable) : Prop := ∀ e ∈ t.entries, e.1 < offsetLimit ∧ e.2 < lineLimit

instance (t : LineTable) : Decidable t.Fits :=
  inferInstanceAs (Decidable (∀ e ∈ t.entries, e.1 < offsetLimit ∧ e.2 < lineLimit))

theorem isPlain_toJson (t : LineTable) : IsPlain t.toJson := by
  simp [toJson, entryToJson]

/-- A line table is read back with its entries. -/
theorem ofJson?_toJson {t : LineTable} (h : t.Fits) : ofJson? t.toJson = some t := by
  have hpair : ∀ e ∈ t.entries, pair? (entryToJson e) = some e := by
    intro e he
    have hoffset := Json.nat?_nat (h e he).1
    have hline := Json.nat?_nat (h e he).2
    simp [pair?, entryToJson, hoffset, hline]
  rw [ofJson?, toJson, Json.list?_list hpair, Option.map_some, ofPairs_entries]

end LineTable

/-! ## Code objects -/

@[simp] theorem byte?_nat (b : UInt8) : byte? (.nat b.toNat) = some b := by
  rw [byte?, Json.nat?_nat b.toNat_lt]
  simp

namespace CodeObject

/-- The numbers of the code object are numbers of their types. -/
structure Fits (c : CodeObject) : Prop where
  firstLine_lt : c.firstLine < lineLimit
  consts : ∀ k ∈ c.consts, k.Fits
  lineTable : c.lineTable.Fits

instance (c : CodeObject) : Decidable c.Fits :=
  decidable_of_iff (c.firstLine < lineLimit ∧ (∀ k ∈ c.consts, k.Fits) ∧ c.lineTable.Fits)
    ⟨fun h => ⟨h.1, h.2.1, h.2.2⟩, fun h => ⟨h.firstLine_lt, h.consts, h.lineTable⟩⟩

/-- None of the constants is a double. -/
def HasNoFloat (c : CodeObject) : Prop := ∀ k ∈ c.consts, k.isFloat = false

instance (c : CodeObject) : Decidable c.HasNoFloat :=
  inferInstanceAs (Decidable (∀ k ∈ c.consts, k.isFloat = false))

theorem isPlain_toJson {c : CodeObject} (h : c.HasNoFloat) : IsPlain c.toJson := by
  have hconsts : ∀ k ∈ c.consts, IsPlain k.toJson := fun k hk => Constant.isPlain_toJson (h k hk)
  simpa [toJson, LineTable.isPlain_toJson] using hconsts

/-- A code object without doubles is read back. -/
theorem ofJson?_toJson {c : CodeObject} (hfloat : c.HasNoFloat) (hfits : c.Fits) :
    ofJson? c.toJson = some c := by
  have hstrings : ∀ texts : List String,
      (Json.list Json.string texts).list? Json.string? = some texts :=
    fun _ => Json.list?_list fun _ _ => rfl
  have hline : (Json.nat c.firstLine).nat? lineLimit = some c.firstLine :=
    Json.nat?_nat hfits.firstLine_lt
  have hcode : (Json.list (fun b : UInt8 => .nat b.toNat) c.code).list? byte? = some c.code :=
    Json.list?_list fun b _ => byte?_nat b
  have hconsts : (Json.list Constant.toJson c.consts).list? Constant.ofJson? = some c.consts :=
    Json.list?_list fun k hk => Constant.ofJson?_toJson (hfloat k hk) (hfits.consts k hk)
  have htable : LineTable.ofJson? c.lineTable.toJson = some c.lineTable :=
    LineTable.ofJson?_toJson hfits.lineTable
  rw [ofJson?, toJson, Json.fields?_object fieldNames rfl (by decide)]
  simp [Json.withDefault, Json.string?, hstrings, hline, hcode, hconsts, htable]

end CodeObject

/-! ## Targets -/

namespace Target

/-- The numbers in the code objects of the target are numbers of their types. -/
def Fits (t : Target) : Prop := ∀ c ∈ t.units, c.Fits

instance (t : Target) : Decidable t.Fits := inferInstanceAs (Decidable (∀ c ∈ t.units, c.Fits))

/-- No code object of the target has a double among its constants. -/
def HasNoFloat (t : Target) : Prop := ∀ c ∈ t.units, c.HasNoFloat

instance (t : Target) : Decidable t.HasNoFloat :=
  inferInstanceAs (Decidable (∀ c ∈ t.units, c.HasNoFloat))

/-- The document of a target without doubles is plain. -/
theorem isPlain_toJson {t : Target} (h : t.HasNoFloat) : IsPlain t.toJson := by
  cases t with
  | code unit =>
    have hunit : IsPlain unit.toJson := CodeObject.isPlain_toJson (h unit List.mem_cons_self)
    simpa [toJson] using hunit
  | container name members =>
    have hmembers : ∀ m ∈ (members.map CodeObject.toJson).toList, IsPlain m.2 :=
      List.forall_mem_map.2 fun e he => CodeObject.isPlain_toJson (h e.2 (List.mem_map_of_mem he))
    simpa [toJson] using hmembers

/-- A target without doubles is read back, a container with all its members, whether or not a
container may be listed by position. -/
theorem ofJson?_toJson {t : Target} (hfloat : t.HasNoFloat) (hfits : t.Fits)
    (style : Json.RecordStyle) : ofJson? style t.toJson = some t := by
  cases t with
  | code unit =>
    have hunit : CodeObject.ofJson? unit.toJson = some unit :=
      CodeObject.ofJson?_toJson (hfloat unit List.mem_cons_self) (hfits unit List.mem_cons_self)
    show (CodeObject.ofJson? unit.toJson).map Target.code = _
    rw [hunit, Option.map_some]
  | container name members =>
    have hmembers : (Json.object (members.map CodeObject.toJson).toList).map? CodeObject.ofJson? =
        some members :=
      Json.map?_map fun c hc => CodeObject.ofJson?_toJson (hfloat c hc) (hfits c hc)
    simp only [toJson, ofJson?, Json.variant?]
    rw [Json.contentFields?_object style ["name", "members"] rfl (by decide)]
    simp [Json.required, Json.string?, hmembers]

end Target

end BytecodeDebugger
