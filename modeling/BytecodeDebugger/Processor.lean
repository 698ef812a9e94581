import BytecodeDebugger.Command.Disassemble
import BytecodeDebugger.Command.Help
import BytecodeDebugger.Command.List
import BytecodeDebugger.Command.Quit
import BytecodeDebugger.Command.Script
import BytecodeDebugger.Command.Setting

/-!
# The command processor

Command lines are cut into words; the first one names a command, the others are its arguments. What
a command cannot do is reported to the user, and the processor goes on; a failure of the connection
ends it.

Main fact: `executeLine_of_words_eq_nil` (a blank line does nothing).
-/

namespace BytecodeDebugger

/-- Whether the processor goes on after a command line. -/
inductive Flow where
  | goOn
  | quit
  deriving DecidableEq, Repr

/-- The built-in commands. -/
def builtinCommands : List (Entry Command) :=
  [Disassemble.command, Help.command, SourceList.command, Quit.command, Setting.setCommand,
    Setting.showCommand]

/-- Commands, and what they work on. -/
structure Processor where
  commands : Registry Command
  settings : Settings
  debuggee : Debuggee
  prompt : String

namespace Processor

/-- The prompt of a fresh processor. -/
def initialPrompt : String := "(vmdbg) "

/-- A processor without commands. -/
def bare (settings : Settings) (debuggee : Debuggee) : Processor :=
  ⟨.empty, settings, debuggee, initialPrompt⟩

/-- A processor with the built-in commands. -/
def new (settings : Settings) (debuggee : Debuggee) : Processor :=
  { bare settings debuggee with commands := .ofList builtinCommands }

/-- The processor with one more command. -/
def register (p : Processor) (e : Entry Command) : Except RegistryError Processor :=
  (p.commands.register e).map fun commands => { p with commands }

/-- What the commands say about themselves. -/
def infos (p : Processor) : Registry CommandInfo := p.commands.map fun c => c.info

/-- Why a command is not run with so many arguments, if it is not. -/
def refusal? (p : Processor) (name : String) (info : CommandInfo) (count : Nat) : Option String :=
  if count < info.minArgs then
    some
      ("Command '" ++ name ++ "' needs at least " ++ toString info.minArgs ++
        " argument(s); got " ++ toString count ++ ".")
  else
    match info.maxArgs.filter fun max => max < count with
    | some max =>
      some
        ("Command '" ++ name ++ "' can take at most " ++ toString max ++ " argument(s); got " ++
          toString count ++ ".")
    | none =>
      if info.needsProgram && !p.debuggee.isRunning then
        some "The program being debugged is not being run."
      else none

/-- Reports a fault and goes on as given. -/
def report (p : Processor) (flow : Flow) (text : String) :
    Dialogue (Except ConnectError Flow × Processor) :=
  .write (.fault text) fun
    | .ok () => .done (.ok flow, p)
    | .error e => .done (.error e, p)

/-- Runs a command. What it changed stays changed when it fails. -/
def perform (p : Processor) (command : Command) (args : List String) :
    Dialogue (Except ConnectError Flow × Processor) := do
  let (outcome, w) ← (command.run p.infos args).run ⟨p.settings, p.debuggee, false⟩
  let p := { p with settings := w.settings, debuggee := w.debuggee }
  let flow := if w.quit then Flow.quit else Flow.goOn
  match outcome with
  | .ok () => return (.ok flow, p)
  | .error (.connect e) => return (.error e, p)
  | .error (.report causes) => p.report flow (String.intercalate ": " causes)

/-- Executes a command line. -/
def executeLine (p : Processor) (line : String) :
    Dialogue (Except ConnectError Flow × Processor) :=
  match Text.words line with
  | [] => .done (.ok .goOn, p)
  | name :: args =>
    match p.commands.lookupWith name p.settings.view with
    | none => p.report .goOn (undefinedCommand name)
    | some e =>
      match p.refusal? e.name e.value.info args.length with
      | some text => p.report .goOn text
      | none => p.perform e.value args

variable {σ : Type}

/-- Executes up to `lines` command lines of a user. -/
def runWithin (i : Interface σ) : (lines : Nat) → Processor → σ →
    (Except ConnectError Unit × Processor) × σ
  | 0, p, s => ((.ok (), p), s)
  | lines + 1, p, s =>
    match i.readCommand p.prompt s with
    | (.error e, s) => ((.error e, p), s)
    | (.ok none, s) => ((.ok (), p), s)
    | (.ok (some line), s) =>
      match (p.executeLine line).runOn i s with
      | ((.error e, p), s) => ((.error e, p), s)
      | ((.ok .quit, p), s) => ((.ok (), p), s)
      | ((.ok .goOn, p), s) => runWithin i lines p s

/-- Executes the command lines of a user until their end, a quit or a failure of the connection.
Each line comes off the backlog, and after them the input ends. -/
def run (i : Interface σ) (p : Processor) (s : σ) : (Except ConnectError Unit × Processor) × σ :=
  runWithin i (i.backlog s + 1) p s

/-- A blank line does nothing. -/
theorem executeLine_of_words_eq_nil (p : Processor) {line : String} (h : Text.words line = []) :
    p.executeLine line = .done (.ok .goOn, p) := by
  simp [executeLine, h]

end Processor

end BytecodeDebugger
