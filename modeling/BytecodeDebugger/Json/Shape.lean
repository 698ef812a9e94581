import BytecodeDebugger.Json.Value
import BytecodeDebugger.Store.NameMap

/-!
# Reading records out of JSON values

How the parts of a domain type are found in a document. A record is an object whose keys are the
names of its fields, or an array of its fields in order; unknown keys are skipped and a repeated key
of a field is refused. A value of an enumeration is a name, or an object with the name as its only
key. Numbers are refused unless they fit their type.
-/

namespace BytecodeDebugger.Json

/-! ## Single values -/

/-- A natural number below a limit. -/
def nat? (limit : Nat) : Json → Option Nat
  | .number l =>
    match l.integer? with
    | some (.ofNat n) => if n < limit then some n else none
    | _ => none
  | _ => none

/-- A whole number of 64 bits with a sign. -/
def int64? : Json → Option Int
  | .number l =>
    match l.integer? with
    | some n => if -0x8000000000000000 ≤ n ∧ n < 0x8000000000000000 then some n else none
    | none => none
  | _ => none

/-- A double. -/
def double? : Json → Option Decimal.Binary64
  | .number l => Decimal.Binary64.ofLiteral? l
  | _ => none

/-- A truth value. -/
def bool? : Json → Option Bool
  | .bool b => some b
  | _ => none

/-- A text. -/
def string? : Json → Option String
  | .string s => some s
  | _ => none

/-- A list, read item by item. -/
def list? {α : Type} (read : Json → Option α) : Json → Option (List α)
  | .array items => items.mapM read
  | _ => none

/-- A value that may be `null`. -/
def option? {α : Type} (read : Json → Option α) : Json → Option (Option α)
  | .null => some none
  | j => (read j).map some

/-- A map from names; of two entries with one name the later one counts. -/
def map? {α : Type} (read : Json → Option α) : Json → Option (NameMap α)
  | .object members =>
    (members.mapM fun m => (read m.2).map fun a => (m.1, a)).map NameMap.ofList
  | _ => none

/-! ## Records and enumerations -/

/-- The values of a key. -/
def valuesOf (key : String) (members : List (String × Json)) : List Json :=
  (members.filter fun m => m.1 == key).map (·.2)

/-- The fields of a record, each absent if it is not given. -/
def fields? (names : List String) : Json → Option (List (Option Json))
  | .object members =>
    names.mapM fun name =>
      match valuesOf name members with
      | [] => some none
      | [j] => some (some j)
      | _ => none
  | .array items =>
    if items.length ≤ names.length then
      some (items.map some ++ List.replicate (names.length - items.length) none)
    else none
  | _ => none

/-- A field that must be given. -/
def required {α : Type} (read : Json → Option α) (field : Option Json) : Option α :=
  field.bind read

/-- A field with a default. -/
def withDefault {α : Type} (default : α) (read : Json → Option α) : Option Json → Option α
  | none => some default
  | some j => read j

/-- The name of a value of an enumeration, and its content. -/
def variant? : Json → Option (String × Option Json)
  | .string name => some (name, none)
  | .object [(name, content)] => some (name, some content)
  | _ => none

/-- Whether the record that a value of an enumeration holds may be listed by position. -/
inductive RecordStyle where
  | named
  | positional
  deriving DecidableEq, Repr

/-- The fields of the record that a value of an enumeration holds. -/
def contentFields? (style : RecordStyle) (names : List String) (content : Json) :
    Option (List (Option Json)) :=
  match style, content with
  | .named, .array _ => none
  | _, j => j.fields? names

/-- The name of a value without content. -/
def plainName? (j : Json) : Option String :=
  match variant? j with
  | some (name, none) => some name
  | some (name, some .null) => some name
  | _ => none

end BytecodeDebugger.Json
