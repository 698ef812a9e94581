import BytecodeDebugger.Connect.Options
import BytecodeDebugger.Text.Unsigned

/-!
# Connection options on a command line

Each option has two dashes, its name and a value, which follows an equals sign or is the next word.
An option may be given once, in any order; nothing else may be given. The first problem is reported,
but a value in a word of its own is looked at only when the next option begins or the words end.

Main facts: `parse_nil` (without words the options are the initial ones) and
`Word.ofString_eq_plain_iff` (an option has a dash in front).
-/

namespace BytecodeDebugger

/-- Why a command line is refused. -/
inductive UsageError where
  /-- A value is missing, empty where it may not be, or none of the values of the option. -/
  | invalidValue
  /-- A value is no port. -/
  | valueValidation
  /-- An option is given twice. -/
  | argumentConflict
  /-- A word that is no option. -/
  | unknownArgument
  /-- A value where there may be none. -/
  | tooManyValues
  /-- Help is asked for. -/
  | displayHelp
  deriving DecidableEq, Repr

/-- The name of a reason. -/
def UsageError.name : UsageError → String
  | .invalidValue => "InvalidValue"
  | .valueValidation => "ValueValidation"
  | .argumentConflict => "ArgumentConflict"
  | .unknownArgument => "UnknownArgument"
  | .tooManyValues => "TooManyValues"
  | .displayHelp => "DisplayHelp"

namespace CommandLine

/-- The options. -/
inductive Field where
  | io
  | host
  | port
  | socketPath
  deriving DecidableEq, Repr

/-- The option of a name. -/
def Field.ofName? (name : String) : Option Field :=
  match name with
  | "io" => some .io
  | "host" => some .host
  | "port" => some .port
  | "socket-path" => some .socketPath
  | _ => none

/-- The options read so far. -/
structure Progress where
  options : ConnectionOptions
  /-- The options that were given. -/
  given : List Field
  /-- The option read last, if its value was not looked at yet, and the word after it. -/
  pending : Option (Field × Option String)

/-- Nothing read yet. -/
def Progress.start : Progress := ⟨.initial, [], none⟩

/-- A port, which may have a sign and leading zeros. -/
def port? (text : String) : Option Nat :=
  match text.toList with
  | '-' :: rest => if rest ≠ [] ∧ rest.all (· == '0') then some 0 else none
  | _ =>
    match Text.parseUnsigned portLimit text with
    | .ok n => some n
    | .error _ => none

/-- The options with a value. -/
def setField (o : ConnectionOptions) (value : String) : Field → Except UsageError ConnectionOptions
  | .io =>
    match TransportKind.ofName? value with
    | some kind => .ok { o with kind }
    | none => .error .invalidValue
  | .host => .ok { o with host := value }
  | .port =>
    match port? value with
    | some port => .ok { o with port }
    | none => .error .valueValidation
  | .socketPath =>
    if value.isEmpty then .error .invalidValue else .ok { o with socketPath := some value }

/-- Takes the value of an option. -/
def take (p : Progress) (field : Field) (value : String) : Except UsageError Progress :=
  if p.given.contains field then .error .argumentConflict
  else
    (setField p.options value field).map fun options =>
      { p with options, given := field :: p.given }

/-- Looks at the value that was not looked at yet. -/
def settle (p : Progress) : Except UsageError Progress :=
  match p.pending with
  | none => .ok p
  | some (_, none) => .error .invalidValue
  | some (field, some value) => take { p with pending := none } field value

/-- The name of an option, and the value after an equals sign. -/
def splitOption (cs : List Char) : String × Option String :=
  match cs.span (· != '=') with
  | (name, []) => (String.ofList name, none)
  | (name, _ :: value) => (String.ofList name, some (String.ofList value))

/-- What a word is. -/
inductive Word where
  /-- Two dashes: nothing after them is an option. -/
  | stop
  | option (field : Field) (value : Option String)
  /-- Help is asked for; nothing is to follow an equals sign. -/
  | help (hasValue : Bool)
  | unknownOption
  /-- A word that is no option. -/
  | plain
  deriving DecidableEq, Repr

/-- What a word is. -/
def Word.ofString (word : String) : Word :=
  match word.toList with
  | ['-', '-'] => .stop
  | '-' :: '-' :: cs =>
    match splitOption cs with
    | ("help", value) => .help value.isSome
    | (name, value) =>
      match Field.ofName? name with
      | none => .unknownOption
      | some field => .option field value
  | ['-'] => .plain
  | '-' :: 'h' :: _ => .help false
  | '-' :: _ => .unknownOption
  | _ => .plain

/-- The options of words, after those read so far. -/
def parseFrom (p : Progress) : List String → Except UsageError ConnectionOptions
  | [] => (settle p).map Progress.options
  | word :: rest =>
    match Word.ofString word with
    | .stop => if rest.isEmpty then (settle p).map Progress.options else .error .unknownArgument
    | .unknownOption => .error .unknownArgument
    | .help true => .error .tooManyValues
    | .help false =>
      match settle p with
      | .error e => .error e
      | .ok _ => .error .displayHelp
    | .option field none =>
      match settle p with
      | .error e => .error e
      | .ok p => parseFrom { p with pending := some (field, none) } rest
    | .option field (some value) =>
      match settle p with
      | .error e => .error e
      | .ok p =>
        match take p field value with
        | .error e => .error e
        | .ok p => parseFrom p rest
    | .plain =>
      match p.pending with
      | some (field, none) => parseFrom { p with pending := some (field, some word) } rest
      | _ => .error .unknownArgument

/-- The options of a command line. -/
def parse (words : List String) : Except UsageError ConnectionOptions :=
  parseFrom .start words

@[simp] theorem parse_nil : parse [] = .ok .initial := rfl

/-- A word is no option exactly if no dash is in front of it, or if it is a single dash. -/
theorem Word.ofString_eq_plain_iff {word : String} :
    Word.ofString word = .plain ↔ word = "-" ∨ word.toList.head? ≠ some '-' := by
  rw [← String.toList_inj]
  unfold Word.ofString
  split
  case h_1 hword => simp [hword]
  case h_2 cs _ hword =>
    rw [hword]
    split
    · simp
    · split <;> simp
  case h_3 hword => simp [hword]
  case h_4 hword => simp [hword]
  case h_5 cs _ _ hne _ hword =>
    rw [hword]
    simpa using fun h => hne h
  case h_6 hne =>
    simp only [true_iff]
    refine .inr fun hhead => ?_
    obtain ⟨cs, hcs⟩ := List.head?_eq_some_iff.1 hhead
    exact hne cs hcs

end CommandLine

end BytecodeDebugger
