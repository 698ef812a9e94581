import BytecodeDebugger.Command.Handler
import BytecodeDebugger.Registry.Lookup

/-!
# Commands

A command is found by name in a registry. It says how many arguments it takes and whether it needs a
running program, and has a line of help; a command may have subcommands of its own.
-/

namespace BytecodeDebugger

/-- What a command says about itself. Subcommands are known by their lines of help. -/
structure CommandInfo where
  minArgs : Nat
  /-- The greatest number of arguments, if there is a limit. -/
  maxArgs : Option Nat
  needsProgram : Bool
  /-- The line of help. -/
  summary : String
  subcommands : Option (Registry String)

/-- A command. It runs with what all commands say about themselves and with its arguments. -/
structure Command where
  info : CommandInfo
  run : Registry CommandInfo → List String → Handler Unit

/-- A part of a command that has its own name. -/
structure Subcommand where
  /-- The line of help. -/
  summary : String
  run : List String → Handler Unit

/-- What is said about a name that is no command. -/
def undefinedCommand (name : String) : String :=
  "Undefined command: \"" ++ name ++ "\". Try \"help\"."

/-- The heading of the subcommands of a command. -/
def subcommandHeading (command : String) : String := "List of " ++ command ++ " subcommands:"

/-- Runs the subcommand that the first argument names; without arguments the names are listed. -/
def runSubcommand (command : String) (subcommands : Registry Subcommand) :
    List String → Handler Unit
  | [] => do
    Handler.say (subcommandHeading command)
    Handler.say (String.intercalate " " subcommands.listedNames)
  | name :: args => do
    let w ← get
    match subcommands.lookupWith name w.settings.view with
    | some sub => sub.value.run args
    | none =>
      Handler.fail
        ["Undefined \"" ++ command ++ "\" subcommand: \"" ++ name ++ "\". Try \"help " ++ command ++
          "\"."]

end BytecodeDebugger
