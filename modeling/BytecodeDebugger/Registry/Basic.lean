import BytecodeDebugger.Store.NameMap
import BytecodeDebugger.Text.Quoted

/-!
# Registries

Entries that are found by their name, by an alias, or by an abbreviation of their name. Each entry
says how many characters an abbreviation must have at least. Registration refuses an entry with an
abbreviation that another entry accepts too.

Main fact: `sharedAbbreviation_comm` (sharing an abbreviation is symmetric).
-/

namespace BytecodeDebugger

/-- Something to be found by name. -/
structure Entry (α : Type) where
  name : String
  /-- Other names, which match as a whole only. -/
  aliases : List String
  /-- The least number of characters of an abbreviation. -/
  minAbbrev : Nat
  /-- Whether the name is listed. -/
  listed : Bool
  value : α
  deriving DecidableEq, Repr

/-- The entry with its value changed. -/
def Entry.map {α β : Type} (f : α → β) (e : Entry α) : Entry β :=
  ⟨e.name, e.aliases, e.minAbbrev, e.listed, f e.value⟩

/-- Why an entry is refused. -/
inductive RegistryError where
  /-- A name or an alias is taken. -/
  | duplicateName (name : String)
  /-- Two names accept one abbreviation. -/
  | ambiguousAbbreviation (first second shared : String)
  /-- No abbreviation can be long enough. -/
  | abbreviationTooLong (name : String) (minAbbrev : Nat)
  deriving DecidableEq, Repr

/-- The wording of a refusal. -/
def RegistryError.message : RegistryError → String
  | .duplicateName name => "name " ++ Text.quoted name ++ " is already registered"
  | .ambiguousAbbreviation first second shared =>
    Text.quoted first ++ " and " ++ Text.quoted second ++ " both accept the abbreviation " ++
      Text.quoted shared
  | .abbreviationTooLong name min =>
    "minimum abbreviation " ++ toString min ++ " of " ++ Text.quoted name ++
      " is longer than the name"

/-- The least abbreviation that two names accept, if they share one. -/
def sharedAbbreviation (a : String) (minA : Nat) (b : String) (minB : Nat) : Option String :=
  let least := max (max minA minB) 1
  if least ≤ min a.length b.length ∧ a.toList.take least = b.toList.take least then
    some (String.ofList (a.toList.take least))
  else none

/-- Entries by name, and the names that aliases stand for. -/
structure Registry (α : Type) where
  entries : NameMap (Entry α)
  aliases : NameMap String
  deriving DecidableEq

namespace Registry

variable {α β : Type}

/-- The registry without entries. -/
def empty : Registry α := ⟨.empty, .empty⟩

instance : Inhabited (Registry α) := ⟨empty⟩

/-- The number of entries. -/
def size (r : Registry α) : Nat := r.entries.size

/-- The entries in the order of their names. -/
def toList (r : Registry α) : List (Entry α) := r.entries.values

/-- The names that are listed, in order. -/
def listedNames (r : Registry α) : List String :=
  (r.toList.filter fun e => e.listed).map fun e => e.name

/-- The entry of a name. -/
def get? (r : Registry α) (name : String) : Option (Entry α) := r.entries.find? name

/-- Whether a name or an alias is taken. -/
def isTaken (r : Registry α) (name : String) : Bool :=
  r.entries.contains name || r.aliases.contains name

/-- The first name in order that shares an abbreviation with an entry, and the abbreviation. -/
def conflict? (r : Registry α) (e : Entry α) : Option (String × String) :=
  r.toList.findSome? fun other =>
    (sharedAbbreviation e.name e.minAbbrev other.name other.minAbbrev).map fun shared =>
      (other.name, shared)

/-- Registers an entry. Its length is checked first, then its name and its aliases in turn, then its
abbreviations; only then do its aliases and the entry go in. -/
def enter (r : Registry α) (e : Entry α) : Except RegistryError Unit × Registry α :=
  if e.name.length < e.minAbbrev then (.error (.abbreviationTooLong e.name e.minAbbrev), r)
  else if r.isTaken e.name then (.error (.duplicateName e.name), r)
  else
    match e.aliases.find? fun a => a == e.name || r.isTaken a with
    | some a => (.error (.duplicateName a), r)
    | none =>
      match r.conflict? e with
      | some (other, shared) => (.error (.ambiguousAbbreviation other e.name shared), r)
      | none =>
        (.ok (),
          { entries := r.entries.insert e.name e
            aliases := e.aliases.foldl (fun m a => m.insert a e.name) r.aliases })

/-- The registry with one more entry, or why the entry is refused. -/
def register (r : Registry α) (e : Entry α) : Except RegistryError (Registry α) :=
  match r.enter e with
  | (.ok (), r) => .ok r
  | (.error refusal, _) => .error refusal

/-- The registry with further entries, up to the first one that is refused. -/
def registerAll (r : Registry α) : List (Entry α) → Except RegistryError (Registry α)
  | [] => .ok r
  | e :: rest =>
    match r.register e with
    | .error err => .error err
    | .ok r => registerAll r rest

/-- The registry that one call for each entry leads to; those that are refused are not in it. -/
def ofList (entries : List (Entry α)) : Registry α :=
  entries.foldl (fun r e => (r.enter e).2) empty

/-- The registry with every value changed. -/
def map (f : α → β) (r : Registry α) : Registry β :=
  ⟨r.entries.map fun e => e.map f, r.aliases⟩

/-- Sharing an abbreviation is symmetric. -/
theorem sharedAbbreviation_comm (a : String) (minA : Nat) (b : String) (minB : Nat) :
    sharedAbbreviation a minA b minB = sharedAbbreviation b minB a minA := by
  unfold sharedAbbreviation
  rw [Nat.max_comm minA minB, Nat.min_comm a.length b.length]
  generalize max (max minB minA) 1 = least
  by_cases h : a.toList.take least = b.toList.take least
  · simp only [h]
  · simp only [h, Ne.symm h, and_false, if_false]

end Registry

end BytecodeDebugger
