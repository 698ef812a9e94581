import BytecodeDebugger.Command.Basic

/-!
# Scripted commands

A command can be given as a list of effects, which happen one after the other until one of them ends
the command.
-/

namespace BytecodeDebugger

/-- What a scripted command does. -/
inductive Effect where
  /-- Shows the arguments. -/
  | arguments
  | say (text : String)
  | sayFault (text : String)
  /-- Asks a question and shows the answer. -/
  | confirm (question : String) (default : Bool)
  /-- Ends the debugger after the command. -/
  | quit
  /-- Ends the command as if the connection were lost. -/
  | disconnect
  /-- Ends the command with a report. -/
  | fail (causes : List String)
  deriving DecidableEq, Repr

/-- Makes an effect happen. -/
def Effect.perform (args : List String) : Effect → Handler Unit
  | .arguments => Handler.say (String.intercalate "|" args)
  | .say text => Handler.say text
  | .sayFault text => Handler.sayFault text
  | .confirm question default => do
    let answer ← Handler.confirm question default
    Handler.say (if answer then "true" else "false")
  | .quit => modify fun w => { w with quit := true }
  | .disconnect => throw (.connect .notConnected)
  | .fail causes => Handler.fail causes

/-- The command of a list of effects. -/
def Command.ofEffects (info : CommandInfo) (effects : List Effect) : Command where
  info := info
  run := fun _ args => effects.forM fun e => e.perform args

end BytecodeDebugger
