import BytecodeDebugger.Command.Basic

/-!
# Quitting

`quit` ends the debugger. It asks first, unless it is forced or the settings say not to ask.
-/

namespace BytecodeDebugger.Quit

/-- `quit [!]` -/
def command : Entry Command where
  name := "quit"
  aliases := ["q", "exit"]
  minAbbrev := 4
  listed := true
  value :=
    { info := ⟨0, some 1, false, "Terminate the program and the debugger", none⟩
      run := fun _ args => do
        let w ← get
        let sure ←
          if args.head? = some "!" then pure true
          else if w.settings.confirm then Handler.confirm "Really quit?" false
          else pure true
        if sure then set { w with quit := true }
        else Handler.say "Quit not confirmed." }

end BytecodeDebugger.Quit
