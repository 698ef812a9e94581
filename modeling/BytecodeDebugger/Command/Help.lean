import BytecodeDebugger.Command.Basic
import BytecodeDebugger.Text.Pad

/-!
# Help

`help` lists the commands; with a name it tells about one command, and with a second name about one
of its subcommands.
-/

namespace BytecodeDebugger.Help

/-- The line of a command in the list of commands. -/
def commandLine (e : Entry CommandInfo) : String :=
  "  " ++ Text.padRight 12 e.name ++ " -- " ++ e.value.summary

/-- The line of a subcommand in the list of subcommands. -/
def subcommandLine (command : String) (e : Entry String) : String :=
  "  " ++ command ++ " " ++ Text.padRight 10 e.name ++ " -- " ++ e.value

/-- The lines about a command. -/
def aboutCommand (e : Entry CommandInfo) : List String :=
  [e.name ++ " -- " ++ e.value.summary] ++
  (if e.aliases.isEmpty then [] else ["Aliases: " ++ String.intercalate ", " e.aliases]) ++
  (match e.value.subcommands with
    | none => []
    | some subs =>
      subcommandHeading e.name ::
        (subs.toList.filter fun s => s.listed).map (subcommandLine e.name))

/-- The line about a subcommand. -/
def aboutSubcommand (settings : SettingsView) (e : Entry CommandInfo) (name : String) :
    Except (List String) String :=
  match e.value.subcommands with
  | none => .error ["Command \"" ++ e.name ++ "\" has no subcommands."]
  | some subs =>
    match subs.lookupWith name settings with
    | some sub => .ok (e.name ++ " " ++ sub.name ++ " -- " ++ sub.value)
    | none => .error ["Undefined \"" ++ e.name ++ "\" subcommand: \"" ++ name ++ "\"."]

/-- What help is about: the lines to show, or why there are none. -/
def linesFor (commands : Registry CommandInfo) (settings : SettingsView) :
    List String → Except (List String) (List String)
  | [] => .ok ("List of commands:" :: commands.toList.map commandLine)
  | name :: rest =>
    match commands.lookupWith name settings with
    | none => .error [undefinedCommand name]
    | some e =>
      match rest with
      | [] => .ok (aboutCommand e)
      | sub :: _ => (aboutSubcommand settings e sub).map fun line => [line]

/-- `help [COMMAND [SUBCOMMAND]]` -/
def command : Entry Command where
  name := "help"
  aliases := ["?"]
  minAbbrev := 1
  listed := true
  value :=
    { info := ⟨0, some 2, false, "Print commands or give help for command(s)", none⟩
      run := fun commands args => do
        let w ← get
        Handler.sayAll (← Handler.orFail (linesFor commands w.settings.view args)) }

end BytecodeDebugger.Help
