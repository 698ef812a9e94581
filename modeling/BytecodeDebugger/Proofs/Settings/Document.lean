import BytecodeDebugger.Proofs.Code.Document
import BytecodeDebugger.Settings.Basic

/-!
# Documents of settings

Settings are read back from their document: a count that is not set is written as `null`, which no
count is, and the style and the format are written by their names.

Main facts: `Settings.ofJson?_toJson` (settings are read back) and `documents_read_back` (targets
and settings are what their texts say, on one line or with one item a line).
-/

namespace BytecodeDebugger

open Json (IsPlain)
open Text (lineLimit offsetLimit)

/-- A style is known by its name. -/
@[simp] theorem HighlightStyle.ofName?_name (s : HighlightStyle) : ofName? s.name = some s := by
  cases s <;> decide

/-- A format is known by its name in documents. -/
@[simp] theorem OutputFormat.ofName?_name (f : OutputFormat) : ofName? f.name = some f := by
  cases f <;> decide

namespace Settings

/-- The counts of the settings are numbers of their types. -/
structure Fits (s : Settings) : Prop where
  listSize_lt : s.listSize < lineLimit
  statementCap_lt : ∀ n ∈ s.statementCap, n < offsetLimit
  minAbbrev_lt : ∀ n ∈ s.minAbbrev, n < offsetLimit

theorem isPlain_toJson (s : Settings) : IsPlain s.toJson := by
  simp [toJson]

theorem option?_count {count : Option Nat} (h : ∀ n ∈ count, n < offsetLimit) :
    (Json.option Json.nat count).option? (Json.nat? offsetLimit) = some count :=
  Json.option?_option (fun _ hnull => Json.noConfusion hnull) fun n hn => Json.nat?_nat (h n hn)

/-- Settings are read back. -/
theorem ofJson?_toJson {s : Settings} (h : s.Fits) : ofJson? s.toJson = some s := by
  have hsize : (Json.nat s.listSize).nat? lineLimit = some s.listSize := Json.nat?_nat h.listSize_lt
  have hcap := option?_count h.statementCap_lt
  have habbrev := option?_count h.minAbbrev_lt
  rw [ofJson?, toJson, Json.fields?_object fieldNames rfl (by decide)]
  simp [Json.withDefault, Json.plainName?, Json.variant?, Json.bool?, hsize, hcap, habbrev]

end Settings

/-- Targets without doubles and settings are read back from their text, whether it is written on one
line or with one item a line. -/
theorem documents_read_back :
    (∀ t : Target, t.HasNoFloat → t.Fits →
      Target.ofText? t.toJson.compact = some t ∧ Target.ofText? t.toJson.pretty = some t) ∧
    ∀ s : Settings, s.Fits →
      Settings.ofText s.toJson.compact = .ok s ∧ Settings.ofText s.toText = .ok s := by
  refine ⟨fun t hfloat hfits => ?_, fun s hfits => ?_⟩
  · have hplain := Target.isPlain_toJson hfloat
    have hread := Target.ofJson?_toJson hfloat hfits .positional
    simp [Target.ofText?, hplain.parse?_compact, hplain.parse?_pretty, hread]
  · have hplain := s.isPlain_toJson
    have hread := Settings.ofJson?_toJson hfits
    simp [Settings.ofText, Settings.toText, hplain.parse?_compact, hplain.parse?_pretty, hread]

/-- A container whose texts hold quotes, backslashes and controls and whose numbers are the largest
and the smallest ones. -/
def awkwardTarget : Target :=
  .container "two\n\"lines\""
    (NameMap.ofList
      [("run\t\\", { CodeObject.empty with
          name := "\u0007\r\n"
          firstLine := 4294967295
          code := [0, 127, 255]
          consts := [.none, .bool true, .int (-9223372036854775808), .str "it's \"\u001f\"\\\n",
            .code "inner"]
          names := ["é€𝄞", ""]
          lineTable := .ofPairs [(18446744073709551615, 4294967295), (0, 1)] }),
        ("", .empty)])

/-- Settings with one count that is zero and one that is not set. -/
def awkwardSettings : Settings :=
  { Settings.initial with
    highlight := .dark, listSize := 4294967295, statementCap := some 0, format := .jsonLines }

/-- The awkward target and the awkward settings are read back. -/
theorem documents_read_back_awkward :
    (Target.ofText? awkwardTarget.toJson.compact = some awkwardTarget ∧
      Target.ofText? awkwardTarget.toJson.pretty = some awkwardTarget) ∧
    Settings.ofText awkwardSettings.toJson.compact = .ok awkwardSettings ∧
      Settings.ofText awkwardSettings.toText = .ok awkwardSettings :=
  ⟨documents_read_back.1 awkwardTarget (by decide) (by decide),
    documents_read_back.2 awkwardSettings ⟨by decide, by decide, by decide⟩⟩

end BytecodeDebugger
