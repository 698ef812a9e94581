import BytecodeDebugger.Wire.IoError

/-!
# Files and paths

The files of a host as a tree, and the way a path takes through it. A path is a list of names with
slashes between them. It starts at the root if a slash stands in front, and at the directory at hand
if not. An empty name and a dot stay in a directory, two dots lead one level up, and at the root
stay there.

Main facts: `walk_append` (a path is walked one part after the other) and `walk_blank` (empty names
and dots lead nowhere).
-/

namespace BytecodeDebugger

/-- A file, with what is in it if it is a directory. -/
inductive FileTree where
  | directory (entries : List (String × FileTree))
  | plain

namespace FileTree

/-- What a directory has under a name. -/
def entry? (name : String) : List (String × FileTree) → Option FileTree
  | [] => none
  | (other, file) :: rest => if other = name then some file else entry? name rest

/-- Whether a name stays where it is. -/
def isBlank (name : String) : Bool := name == "" || name == "."

/-- Follows a name. A place is a file with the directories above it, the lowest one first. -/
def step (name : String) : List FileTree → Except IoError (List FileTree)
  | .directory entries :: above =>
    if isBlank name then .ok (.directory entries :: above)
    else if name = ".." then .ok (if above.isEmpty then [.directory entries] else above)
    else
      match entry? name entries with
      | some file => .ok (file :: .directory entries :: above)
      | none => .error .noSuchFile
  | _ => .error .notADirectory

/-- Follows names one after the other. -/
def walk : List String → List FileTree → Except IoError (List FileTree)
  | [], place => .ok place
  | name :: rest, place =>
    match step name place with
    | .ok place => walk rest place
    | .error e => .error e

/-- The names of a path. -/
def names (path : String) : List String := path.splitOn "/"

/-- Whether a path starts at the root. -/
def isAbsolute (path : String) : Bool := path.toList.head? == some '/'

/-- A path is walked one part after the other. -/
theorem walk_append (front rest : List String) (place : List FileTree) :
    walk (front ++ rest) place = (walk front place).bind (walk rest) := by
  induction front generalizing place with
  | nil => rfl
  | cons name front ih =>
    simp only [List.cons_append, walk]
    cases step name place with
    | error e => rfl
    | ok place => exact ih place

/-- Empty names and dots lead nowhere. -/
theorem walk_blank {blanks : List String} (h : ∀ name ∈ blanks, isBlank name = true)
    (entries : List (String × FileTree)) (above : List FileTree) :
    walk blanks (.directory entries :: above) = .ok (.directory entries :: above) := by
  induction blanks with
  | nil => rfl
  | cons name blanks ih =>
    simp only [List.mem_cons, forall_eq_or_imp] at h
    simp [walk, step, h.1, ih h.2]

end FileTree

end BytecodeDebugger
