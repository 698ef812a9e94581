import BytecodeDebugger.Registry.Basic
import BytecodeDebugger.Settings.Value

/-!
# Finding entries

A token stands for the entry of that name, else for the entry of that alias, else for the only entry
whose name it begins, if it is long enough. The setting `abbrev` replaces how long it must be.

Main facts: `find_of_get?` (a full name is always found) and `lookupWith_of_no_abbrev` (without the
setting, entries have their own least abbreviation).
-/

namespace BytecodeDebugger

/-- Why a token stands for no entry. -/
inductive LookupError where
  | notFound (token : String)
  /-- Several names begin with the token. -/
  | ambiguous (token : String) (candidates : List String)
  deriving DecidableEq, Repr

/-- The wording of a failure. -/
def LookupError.message : LookupError → String
  | .notFound token => "Undefined command: \"" ++ token ++ "\". Try \"help\"."
  | .ambiguous token candidates =>
    "Ambiguous command \"" ++ token ++ "\": " ++ String.intercalate ", " candidates

namespace Registry

variable {α : Type}

/-- The entries whose names begin with a token; an empty token begins none. -/
def candidates (r : Registry α) (token : String) : List (Entry α) :=
  r.toList.filter fun e => !token.isEmpty && token.toList.isPrefixOf e.name.toList

/-- The name that a token stands for; `min` replaces the least abbreviation of every entry. -/
def find (r : Registry α) (token : String) (min : Option Nat) : Except LookupError String :=
  match r.get? token with
  | some e => .ok e.name
  | none =>
    match r.aliases.find? token with
    | some name => .ok name
    | none =>
      match r.candidates token with
      | [] => .error (.notFound token)
      | [e] =>
        if min.getD e.minAbbrev ≤ token.length then .ok e.name else .error (.notFound token)
      | es => .error (.ambiguous token (es.map fun e => e.name))

/-- The entry that a token stands for, or why there is none. -/
def resolve (r : Registry α) (token : String) : Except LookupError (Entry α) :=
  match r.find token none with
  | .error e => .error e
  | .ok name =>
    match r.get? name with
    | some e => .ok e
    | none => .error (.notFound token)

/-- The entry that a token stands for. -/
def lookup (r : Registry α) (token : String) : Option (Entry α) :=
  match r.resolve token with
  | .ok e => some e
  | .error _ => none

/-- The least abbreviation that the settings ask for, if it is positive. -/
def minOverride (settings : SettingsView) : Option Nat :=
  match settings.int? "abbrev" with
  | some n => if 0 < n then some n.toNat else none
  | none => none

/-- The entry that a token stands for under settings. -/
def lookupWith (r : Registry α) (token : String) (settings : SettingsView) : Option (Entry α) :=
  match r.find token (minOverride settings) with
  | .error _ => none
  | .ok name => r.get? name

/-- Changes the value of the entry that a token stands for. Yields the entry as it was changed. -/
def modify (r : Registry α) (token : String) (f : α → α) : Option (Entry α × Registry α) :=
  match r.find token none with
  | .error _ => none
  | .ok name =>
    match r.get? name with
    | none => none
    | some e =>
      let e := { e with value := f e.value }
      some (e, { r with entries := r.entries.insert name e })

/-- A full name is always found. -/
theorem find_of_get? {r : Registry α} {token : String} {e : Entry α} (min : Option Nat)
    (h : r.get? token = some e) : r.find token min = .ok e.name := by
  simp [find, h]

/-- Without the setting, entries have their own least abbreviation. -/
theorem lookupWith_of_no_abbrev {r : Registry α} {token : String} {settings : SettingsView}
    (h : minOverride settings = none) : r.lookupWith token settings = r.lookup token := by
  unfold lookupWith lookup resolve
  rw [h]
  cases r.find token none with
  | error e => rfl
  | ok name => cases hg : r.get? name <;> simp [hg]

end Registry

end BytecodeDebugger
