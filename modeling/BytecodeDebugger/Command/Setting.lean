import BytecodeDebugger.Command.Basic

/-!
# Changing and showing settings

`set` changes one of four settings, `show` shows one or all of them. A switch is set by a word such
as `on` or `off`, and turned on without one.

Main facts: `run_setter` (a setting is changed without a call, or not at all) and `run_showSetting`
(a setting is shown in one call).
-/

namespace BytecodeDebugger.Setting

/-- The switch that a word stands for, in any letter case. -/
def parseSwitch (word : String) : Except (List String) Bool :=
  match Text.foldCase word with
  | "on" => .ok true
  | "1" => .ok true
  | "yes" => .ok true
  | "true" => .ok true
  | "off" => .ok false
  | "0" => .ok false
  | "no" => .ok false
  | "false" => .ok false
  | _ => .error ["Expecting 'on', 1, 'off', or 0. Got: " ++ word ++ "."]

/-- The settings with a switch set by a word, or turned on. -/
def changeSwitch (name : String) (s : Settings) (args : List String) :
    Except (List String) Settings := do
  let value ←
    match args with
    | [] => pure true
    | word :: _ => parseSwitch word
  match s.setBool name value with
  | .ok s => return s
  | .error e => throw [e.message]

/-- The settings with another style. -/
def changeHighlight (s : Settings) : List String → Except (List String) Settings
  | [] => .error ["Expecting one of: plain, light, dark."]
  | word :: _ =>
    match HighlightStyle.ofString? word with
    | some style => .ok { s with highlight := style }
    | none => .error [HighlightStyle.unknownMessage word]

/-- The settings with another format. -/
def changeFormat (s : Settings) : List String → Except (List String) Settings
  | [] => .error ["Expecting one of: text, json, jsonl."]
  | word :: _ =>
    match OutputFormat.ofString? word with
    | some format => .ok { s with format := format }
    | none => .error [OutputFormat.unknownMessage word]

/-- A subcommand of `set`, by how it changes the settings. -/
def setter (name : String) (minAbbrev : Nat) (summary : String)
    (change : Settings → List String → Except (List String) Settings) : Entry Subcommand where
  name := name
  aliases := []
  minAbbrev := minAbbrev
  listed := true
  value :=
    { summary
      run := fun args => do
        let w ← get
        let settings ← Handler.orFail (change w.settings args)
        set { w with settings } }

/-- The subcommands of `set`. -/
def setters : Registry Subcommand :=
  .ofList
    [setter "skip" 2 "Set stopping before def or class statements" (changeSwitch "skip"),
      setter "different" 3 "Set consecutive stops must be on different positions"
        (changeSwitch "different"),
      setter "highlight" 2 "Set the colour scheme of listings" changeHighlight,
      setter "format" 3 "Set the output format of disassembly" changeFormat]

/-- Shows a setting. -/
def showSetting (name : String) : Handler Unit := do
  let w ← get
  match w.settings.view name with
  | some value => Handler.say (name ++ " is " ++ value.shown ++ ".")
  | none => Handler.fail [name ++ " is not set."]

/-- A subcommand of `show`. -/
def shower (name : String) (minAbbrev : Nat) (summary : String) : Entry Subcommand where
  name := name
  aliases := []
  minAbbrev := minAbbrev
  listed := true
  value := { summary, run := fun _ => showSetting name }

/-- The subcommands of `show`. -/
def showers : Registry Subcommand :=
  .ofList
    [shower "skip" 2 "Show stopping before def or class statements",
      shower "different" 3 "Show whether consecutive stops differ in position",
      shower "highlight" 2 "Show the colour scheme of listings",
      shower "format" 3 "Show the output format of disassembly"]

/-- `set [NAME [VALUE]]` -/
def setCommand : Entry Command where
  name := "set"
  aliases := []
  minAbbrev := 3
  listed := true
  value :=
    { info :=
        ⟨0, none, false, "Modify parts of the debugger environment",
          some (setters.map Subcommand.summary)⟩
      run := fun _ args => runSubcommand "set" setters args }

/-- `show [NAME]` -/
def showCommand : Entry Command where
  name := "show"
  aliases := []
  minAbbrev := 2
  listed := true
  value :=
    { info :=
        ⟨0, some 1, false, "Generic command for showing things about the debugger",
          some (showers.map Subcommand.summary)⟩
      run := fun _ args =>
        match args with
        | [] => showers.toList.forM fun sub => sub.value.run []
        | args => runSubcommand "show" showers args }

/-- A subcommand of `set` changes the settings and nothing else, or nothing at all, and tells the
user nothing. -/
theorem run_setter (name : String) (minAbbrev : Nat) (summary : String)
    (change : Settings → List String → Except (List String) Settings) (args : List String)
    (w : Workspace) :
    ((setter name minAbbrev summary change).value.run args).run w =
      .done (match change w.settings args with
        | .ok settings => (.ok (), { w with settings })
        | .error causes => (.error (.report causes), w)) := by
  have hread : ((setter name minAbbrev summary change).value.run args).run w =
      Handler.run (Handler.orFail (change w.settings args) >>= fun settings =>
        set { w with settings }) w := rfl
  rw [hread]
  cases change w.settings args <;> rfl

/-- A setting is shown in one line. -/
theorem run_showSetting (name : String) (w : Workspace) :
    (showSetting name).run w =
      match w.settings.view name with
      | some value => (Handler.say (name ++ " is " ++ value.shown ++ ".")).run w
      | none => .done (.error (.report [name ++ " is not set."]), w) := by
  have hread : (showSetting name).run w = Handler.run (match w.settings.view name with
      | some value => Handler.say (name ++ " is " ++ value.shown ++ ".")
      | none => Handler.fail [name ++ " is not set."]) w := rfl
  rw [hread]
  cases w.settings.view name <;> rfl

end BytecodeDebugger.Setting
