/-!
# Values of settings

A setting is a switch, a number or a text. Numbers are seen through 64 bits with a sign, so a count
of `2 ^ 63` or more shows as a negative number.

Main fact: `signed_of_lt` (smaller counts show as they are).
-/

namespace BytecodeDebugger

/-- The value of a setting. -/
inductive SettingValue where
  | bool (value : Bool)
  | int (value : Int)
  | text (value : String)
  deriving DecidableEq, Repr

namespace SettingValue

/-- How a value is shown. -/
def shown : SettingValue → String
  | .bool true => "on"
  | .bool false => "off"
  | .int n => toString n
  | .text s => s

/-- What the value is. -/
def typeName : SettingValue → String
  | .bool _ => "bool"
  | .int _ => "int"
  | .text _ => "text"

/-- A count of 64 bits as a number with a sign. -/
def signed (n : Nat) : Int :=
  if n < 0x8000000000000000 then n else (n : Int) - 0x10000000000000000

/-- The value of a count. -/
def ofCount (n : Nat) : SettingValue := .int (signed n)

theorem signed_of_lt {n : Nat} (h : n < 0x8000000000000000) : signed n = n := by
  unfold signed
  rw [if_pos h]

theorem signed_neg_of_le {n : Nat} (h : 0x8000000000000000 ≤ n)
    (hl : n < 0x10000000000000000) : signed n < 0 := by
  unfold signed
  split <;> omega

end SettingValue

/-- Settings as their readers see them: the value of each name that has one. -/
abbrev SettingsView := String → Option SettingValue

namespace SettingsView

/-- The number that a setting holds. -/
def int? (v : SettingsView) (name : String) : Option Int :=
  match v name with
  | some (.int n) => some n
  | _ => none

/-- The switch that a setting holds. -/
def bool? (v : SettingsView) (name : String) : Option Bool :=
  match v name with
  | some (.bool b) => some b
  | _ => none

end SettingsView

end BytecodeDebugger
