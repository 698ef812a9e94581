import BytecodeDebugger.Processor
import BytecodeDebugger.Proofs.Command.Surfacing
import BytecodeDebugger.Proofs.Registry.Admission

/-!
# Failures of the connection

A command line surfaces the failure of a call if it comes to that failure and makes no further call.
All calls of the built-in commands do so but those that write a listing. A failure of these is
reported to the user like everything else that a command cannot do, and the debugger goes on.

Main facts: `perform_cases` (the built-in commands), `executeLine_cases` (a command line surfaces
failures or writes a listing), `executeLine_of_refused` (what becomes of a listing that is refused)
and `executeLine_surfaces_iff`.
-/

namespace BytecodeDebugger

/-! ## Commands -/

section commands

open Handler

variable {w : Workspace} {infos : Registry CommandInfo} {args : List String}

theorem Help.surfacesIn_command : (Help.command.value.run infos args).SurfacesIn w :=
  surfacesIn_get.bind fun _ _ => (surfacesIn_orFail _).bind fun _ _ => surfacesIn_sayAll _

/-- The command `quit` surfaces failures, that of its question too. -/
theorem Quit.surfacesIn_command : (Quit.command.value.run infos args).SurfacesIn w := by
  refine surfacesIn_get.bind fun w _ => ?_
  have hanswer : ∀ (sure : Bool) w', Handler.SurfacesIn
      (if sure = true then set { w with quit := true } else say "Quit not confirmed.") w' := by
    rintro (_ | _) w'
    · exact surfacesIn_say _
    · exact surfacesIn_set _
  dsimp only
  split
  · exact (surfacesIn_pure true).bind hanswer
  · split
    · exact (surfacesIn_confirm _ _).bind hanswer
    · exact (surfacesIn_pure true).bind hanswer

/-- A subcommand of `set` surfaces failures, whatever it changes. -/
theorem Setting.surfacesIn_setter (name : String) (minAbbrev : Nat) (summary : String)
    (change : Settings → List String → Except (List String) Settings) :
    ((Setting.setter name minAbbrev summary change).value.run args).SurfacesIn w :=
  surfacesIn_of_run_eq_done (Setting.run_setter name minAbbrev summary change args w)

/-- A subcommand of `show` surfaces failures. -/
theorem Setting.surfacesIn_shower (name : String) (minAbbrev : Nat) (summary : String) :
    ((Setting.shower name minAbbrev summary).value.run args).SurfacesIn w := by
  show (Setting.showSetting name).SurfacesIn w
  refine surfacesIn_get.bind fun w' _ => ?_
  split
  · exact surfacesIn_say _
  · exact surfacesIn_fail _

/-- A command surfaces failures if its subcommands do. -/
theorem surfacesIn_runSubcommand {command : String} {subcommands : Registry Subcommand}
    (h : ∀ e ∈ subcommands.toList, ∀ args w, (e.value.run args).SurfacesIn w) :
    (runSubcommand command subcommands args).SurfacesIn w := by
  cases args with
  | nil => exact (surfacesIn_say _).bind fun _ _ => surfacesIn_say _
  | cons name args =>
    refine surfacesIn_get.bind fun w' _ => ?_
    split
    · next sub hsub => exact h sub (Registry.mem_toList_of_lookupWith hsub) args _
    · exact surfacesIn_fail _

theorem Setting.surfacesIn_setCommand : (Setting.setCommand.value.run infos args).SurfacesIn w := by
  refine surfacesIn_runSubcommand ?_
  intro e he args w
  have hmem := Registry.mem_of_mem_toList_ofList he
  simp only [List.mem_cons, List.not_mem_nil, or_false] at hmem
  rcases hmem with rfl | rfl | rfl | rfl <;> exact Setting.surfacesIn_setter _ _ _ _

/-- The command `show` surfaces failures. -/
theorem Setting.surfacesIn_showCommand :
    (Setting.showCommand.value.run infos args).SurfacesIn w := by
  have hshowers : ∀ e ∈ Setting.showers.toList, ∀ args w, (e.value.run args).SurfacesIn w := by
    intro e he args w
    have hmem := Registry.mem_of_mem_toList_ofList he
    simp only [List.mem_cons, List.not_mem_nil, or_false] at hmem
    rcases hmem with rfl | rfl | rfl | rfl <;> exact Setting.surfacesIn_shower _ _ _
  cases args with
  | nil => exact surfacesIn_forM fun e he w => hshowers e he [] w
  | cons name args =>
    show (runSubcommand "show" Setting.showers (name :: args)).SurfacesIn w
    exact surfacesIn_runSubcommand hshowers

/-- A disassembly in a format other than the annotated text surfaces failures. -/
theorem Disassemble.surfacesIn_writeDocuments (format : OutputFormat) (table : OpcodeTable)
    (p : ListingPolicy) (current : Option Nat) (units : List CodeObject) :
    (Disassemble.writeDocuments format table p current units).SurfacesIn w := by
  induction units generalizing w with
  | nil => exact surfacesIn_pure ()
  | cons code rest ih =>
    unfold Disassemble.writeDocuments
    cases formatDisassembly format ⟨code, table, current⟩ p with
    | error e => exact surfacesIn_fail _
    | ok text => exact (surfacesIn_sayAll _).bind fun _ _ => ih

/-- The calls of the listing that `disassemble` writes, if it writes one. -/
def Disassemble.listingWrites (w : Workspace) (args : List String) : List Write :=
  match subject w.debuggee (splitName args).1,
    parseBounds w.settings.listingPolicy (splitName args).2, w.settings.format with
  | .ok (target, current), .ok p, .text =>
    (BytecodeDebugger.disassemble target w.debuggee.table p current).writes
  | _, _, _ => []

/-- What `disassemble` does in a workspace. -/
theorem Disassemble.run_command :
    (command.value.run infos args).run w =
      match subject w.debuggee (splitName args).1 with
      | .error causes => .done (.error (.report causes), w)
      | .ok (target, current) =>
        match parseBounds w.settings.listingPolicy (splitName args).2 with
        | .error causes => .done (.error (.report causes), w)
        | .ok p =>
          match w.settings.format with
          | .text => (writeText target w.debuggee.table p current).run w
          | format => (writeDocuments format w.debuggee.table p current target.units).run w := by
  show Handler.run (get >>= _) w = _
  rw [run_get_bind, run_orFail_bind]
  cases subject w.debuggee (splitName args).1 with
  | error causes => rfl
  | ok found =>
    dsimp only
    rw [run_orFail_bind]
    cases parseBounds w.settings.listingPolicy (splitName args).2 with
    | error causes => rfl
    | ok p => cases w.settings.format <;> rfl

/-- `disassemble` writes a listing, or surfaces the failure of a call. -/
theorem Disassemble.command_cases :
    ((command.value.run infos args).SurfacesIn w ∧ listingWrites w args = []) ∨
      (command.value.run infos args).WritesListingIn w (listingWrites w args) := by
  unfold listingWrites SurfacesIn WritesListingIn
  rw [run_command]
  cases subject w.debuggee (splitName args).1 with
  | error causes => exact .inl ⟨trivial, rfl⟩
  | ok found =>
    obtain ⟨target, current⟩ := found
    cases parseBounds w.settings.listingPolicy (splitName args).2 with
    | error causes => exact .inl ⟨trivial, rfl⟩
    | ok p =>
      cases w.settings.format with
      | text =>
        refine .inr (writesListingIn_list_bind (fun _ => rfl) ?_)
        cases (BytecodeDebugger.disassemble target w.debuggee.table p current).outcome <;>
          exact ⟨_, rfl⟩
      | json => exact .inl ⟨surfacesIn_writeDocuments .json _ _ _ _, rfl⟩
      | jsonLines => exact .inl ⟨surfacesIn_writeDocuments .jsonLines _ _ _ _, rfl⟩

/-- The calls of the listing that `list` writes, if it writes one. -/
def SourceList.listingWrites (w : Workspace) (args : List String) : List Write :=
  match request w.debuggee (max w.settings.listSize 1) args with
  | .ok (some filename, first, last) =>
    (listing w.debuggee w.settings.highlight ⟨filename, first, last⟩).writes
  | _ => []

/-- What `list` does in a workspace. -/
theorem SourceList.run_command :
    (command.value.run infos args).run w =
      match request w.debuggee (max w.settings.listSize 1) args with
      | .error causes => .done (.error (.report causes), w)
      | .ok (none, _, _) =>
        .done (.error (.report ["No default source file; use list FILE:LINE"]), w)
      | .ok (some filename, first, last) =>
        Handler.run (do
          match ← list (listing w.debuggee w.settings.highlight ⟨filename, first, last⟩) with
          | .error e => fail e.chain
          | .ok shown => set { w with debuggee := goOnAfter w.debuggee filename shown }) w := by
  show Handler.run (get >>= _) w = _
  rw [run_get_bind, run_orFail_bind]
  cases request w.debuggee (max w.settings.listSize 1) args with
  | error causes => rfl
  | ok found =>
    obtain ⟨file, first, last⟩ := found
    cases file <;> rfl

/-- `list` writes a listing, or surfaces the failure of a call. -/
theorem SourceList.command_cases :
    ((command.value.run infos args).SurfacesIn w ∧ listingWrites w args = []) ∨
      (command.value.run infos args).WritesListingIn w (listingWrites w args) := by
  unfold listingWrites SurfacesIn WritesListingIn
  rw [run_command]
  cases request w.debuggee (max w.settings.listSize 1) args with
  | error causes => exact .inl ⟨trivial, rfl⟩
  | ok found =>
    obtain ⟨file, first, last⟩ := found
    cases file with
    | none => exact .inl ⟨trivial, rfl⟩
    | some filename =>
      refine .inr (writesListingIn_list_bind (fun _ => rfl) ?_)
      cases (listing w.debuggee w.settings.highlight ⟨filename, first, last⟩).outcome <;>
        exact ⟨_, rfl⟩

end commands

/-! ## Command lines -/

namespace Processor

open Dialogue

variable {p : Processor} {σ : Type}

/-- The command line surfaces failures: wherever a call fails, it comes to that failure and is over.
-/
def Surfaces (d : Dialogue (Except ConnectError Flow × Processor)) : Prop :=
  d.OnFailure (IsOver fun e r => r.1 = .error e)

theorem surfaces_report (p : Processor) (flow : Flow) (text : String) :
    Surfaces (p.report flow text) :=
  ⟨fun _ => ⟨_, rfl, rfl⟩, trivial⟩

/-- What becomes of what a command came to. -/
def conclude (p : Processor) :
    Except CommandFailure Unit × Workspace → Dialogue (Except ConnectError Flow × Processor)
  | (outcome, w) =>
    let p := { p with settings := w.settings, debuggee := w.debuggee }
    let flow := if w.quit then Flow.quit else Flow.goOn
    match outcome with
    | .ok () => .done (.ok flow, p)
    | .error (.connect e) => .done (.error e, p)
    | .error (.report causes) => p.report flow (String.intercalate ": " causes)

/-- A command runs, and then it is concluded. -/
theorem perform_eq_bind_conclude (p : Processor) (command : Command) (args : List String) :
    p.perform command args =
      (command.run p.infos args).run ⟨p.settings, p.debuggee, false⟩ >>= p.conclude := by
  show Dialogue.andThen _ _ = Dialogue.andThen _ _
  congr

/-- A conclusion surfaces the failure of its report. -/
theorem surfaces_conclude (p : Processor) (r : Except CommandFailure Unit × Workspace) :
    Surfaces (p.conclude r) := by
  obtain ⟨(e | causes) | _, w⟩ := r
  · trivial
  · exact surfaces_report _ _ _
  · trivial

/-- A command that ends with the failure of a call makes its command line come to it. -/
theorem surfaces_perform {command : Command} {args : List String}
    (h : (command.run p.infos args).SurfacesIn ⟨p.settings, p.debuggee, false⟩) :
    Surfaces (p.perform command args) := by
  rw [perform_eq_bind_conclude]
  refine OnFailure.bind h p.surfaces_conclude ?_
  rintro e d ⟨⟨r, w⟩, rfl, rfl⟩
  exact ⟨_, rfl, rfl⟩

/-- A command line that writes a listing reports the failure of one of these calls, and goes on. -/
def WritesListing (p : Processor) (ws : List Write)
    (d : Dialogue (Except ConnectError Flow × Processor)) : Prop :=
  ∃ (rest : Dialogue (Except ConnectError Flow × Processor)) (text : ConnectError → String),
    Surfaces rest ∧ d = Dialogue.writeAll ws >>= fun
      | .ok () => rest
      | .error e => p.report .goOn (text e)

/-- A command that writes a listing makes its command line report a failure of these calls. -/
theorem writesListing_perform {command : Command} {args : List String} {ws : List Write}
    (h : (command.run p.infos args).WritesListingIn ⟨p.settings, p.debuggee, false⟩ ws) :
    p.WritesListing ws (p.perform command args) := by
  obtain ⟨causes, r, hrun⟩ := h
  refine ⟨p.conclude r, fun e => String.intercalate ": " (causes e), p.surfaces_conclude r, ?_⟩
  rw [perform_eq_bind_conclude, hrun, Dialogue.bind_assoc]
  congr
  funext result
  cases result <;> rfl

/-- The calls of the listing that a command writes, if it writes one. -/
def commandWrites (p : Processor) (e : Entry Command) (args : List String) : List Write :=
  let w : Workspace := ⟨p.settings, p.debuggee, false⟩
  if e.name = Disassemble.command.name then Disassemble.listingWrites w args
  else if e.name = SourceList.command.name then SourceList.listingWrites w args
  else []

/-- A built-in command surfaces the failure of every call, or writes a listing. -/
theorem perform_cases {e : Entry Command} (he : e ∈ builtinCommands) (args : List String) :
    (Surfaces (p.perform e.value args) ∧ p.commandWrites e args = []) ∨
      p.WritesListing (p.commandWrites e args) (p.perform e.value args) := by
  simp only [builtinCommands, List.mem_cons, List.not_mem_nil, or_false] at he
  rcases he with rfl | rfl | rfl | rfl | rfl | rfl
  · exact Disassemble.command_cases.imp (fun h => ⟨surfaces_perform h.1, h.2⟩)
      writesListing_perform
  · exact .inl ⟨surfaces_perform Help.surfacesIn_command, rfl⟩
  · exact SourceList.command_cases.imp (fun h => ⟨surfaces_perform h.1, h.2⟩)
      writesListing_perform
  · exact .inl ⟨surfaces_perform Quit.surfacesIn_command, rfl⟩
  · exact .inl ⟨surfaces_perform Setting.surfacesIn_setCommand, rfl⟩
  · exact .inl ⟨surfaces_perform Setting.surfacesIn_showCommand, rfl⟩

/-- The calls of the listing that a command line writes, if it writes one. -/
def listingWrites (p : Processor) (line : String) : List Write :=
  match Text.words line with
  | [] => []
  | name :: args =>
    match p.commands.lookupWith name p.settings.view with
    | none => []
    | some e =>
      match p.refusal? e.name e.value.info args.length with
      | some _ => []
      | none => p.commandWrites e args

/-- A command line of a processor with the built-in commands surfaces the failure of every call, or
writes a listing. -/
theorem executeLine_cases (hcommands : p.commands = .ofList builtinCommands) (line : String) :
    (Surfaces (p.executeLine line) ∧ p.listingWrites line = []) ∨
      p.WritesListing (p.listingWrites line) (p.executeLine line) := by
  unfold executeLine listingWrites
  cases Text.words line with
  | nil => exact .inl ⟨trivial, rfl⟩
  | cons name args =>
    dsimp only
    cases hlookup : p.commands.lookupWith name p.settings.view with
    | none => exact .inl ⟨p.surfaces_report _ _, rfl⟩
    | some e =>
      dsimp only
      cases p.refusal? e.name e.value.info args.length with
      | some text => exact .inl ⟨p.surfaces_report _ _, rfl⟩
      | none =>
        rw [hcommands] at hlookup
        exact perform_cases
          (Registry.mem_of_mem_toList_ofList (Registry.mem_toList_of_lookupWith hlookup)) args

/-- A user who refuses a call of a listing is told so in one more call. The line goes on if that
call is taken, and comes to its failure otherwise; what the listing met with is lost. -/
theorem executeLine_of_refused (hcommands : p.commands = .ofList builtinCommands) {line : String}
    {i : Interface σ} {s t : σ} {e : ConnectError}
    (hrefused : (Dialogue.writeAll (p.listingWrites line)).runOn i s = (.error e, t)) :
    ∃ k r, k < (p.listingWrites line).length ∧
      (p.executeLine line).failuresOn i s = List.replicate k none ++ [some e, r] ∧
      ((p.executeLine line).runOn i s).1.1 =
        match r with
        | none => .ok .goOn
        | some e' => .error e' := by
  obtain ⟨k, hk, hcalls⟩ := failuresOn_writeAll_of_error hrefused
  rcases executeLine_cases hcommands line with ⟨-, hnone⟩ | ⟨rest, text, -, hline⟩
  · rw [hnone] at hk
    exact absurd hk (Nat.not_lt_zero k)
  · rw [hline, failuresOn_bind, runOn_bind, hrefused, hcalls]
    rcases hreport : i.write (.fault (text e)) t with ⟨r, t'⟩
    refine ⟨k, failure? r, hk, ?_, ?_⟩
    · cases r <;> simp [report, failuresOn, hreport]
    · cases r <;> simp [report, runOn, hreport, failure?]

/-- Whenever a call of the dialogue held with a user fails, the dialogue comes to that failure and
makes no further call. -/
def SurfacesOn (i : Interface σ) (s : σ) (d : Dialogue (Except ConnectError Flow × Processor)) :
    Prop :=
  ∀ e before after, d.failuresOn i s = before ++ some e :: after →
    after = [] ∧ (d.runOn i s).1.1 = .error e

/-- A user who is out of reach for the first call, and back for the next one. -/
def outOfReachOnce : ScriptedUser := ⟨.new [0], [], [], [], []⟩

/-- A broken connection is surfaced by the command lines that write no listing, and by no others.
With the built-in commands, whatever the settings and the program: whichever call of whichever user
fails, the command line comes to that failure and makes no further call, exactly if the command line
makes no call to write a listing. -/
theorem executeLine_surfaces_iff (settings : Settings) (debuggee : Debuggee)
    (prompt line : String) :
    (∀ (σ : Type) (i : Interface σ) (s : σ),
      SurfacesOn i s ({ new settings debuggee with prompt }.executeLine line)) ↔
    { new settings debuggee with prompt }.listingWrites line = [] := by
  generalize hp : { new settings debuggee with prompt } = p
  have hcommands : p.commands = .ofList builtinCommands := hp ▸ rfl
  rcases executeLine_cases hcommands line with ⟨hsurfaces, hnone⟩ | ⟨rest, text, hrest, hline⟩
  · exact ⟨fun _ => hnone, fun _ _ _ _ _ _ _ hfails => hsurfaces.eq_nil_of_isOver hfails⟩
  · cases hwrites : p.listingWrites line with
    | nil =>
      rw [hwrites] at hline
      refine ⟨fun _ => rfl, fun _ _ _ _ _ _ _ hfails => ?_⟩
      have hsurfaces : Surfaces (p.executeLine line) := by
        rw [hline]
        exact hrest
      exact hsurfaces.eq_nil_of_isOver hfails
    | cons w ws =>
      -- the user refuses the first call of the listing, and is told so in a second call
      refine ⟨fun h => ?_, fun h => absurd h (List.cons_ne_nil w ws)⟩
      have hfirst := h ScriptedUser ScriptedUser.interface outOfReachOnce .notConnected [] [none]
      rw [hline, hwrites] at hfirst
      exact absurd (hfirst rfl).1 (List.cons_ne_nil _ _)

/-- A processor that knows one code object, which returns at once. -/
def knowingReturn : Processor :=
  new Settings.initial
    { Debuggee.unknown with
      targets := .ofList [("f", .code { CodeObject.empty with name := "f", code := [83] })] }

/-- A user who is out of reach for the second line of the list of commands only: that failure is
surfaced, and none of the further lines is offered. -/
theorem executeLine_surfaces_help :
    let user : ScriptedUser := ⟨.new [1], [], [], [], []⟩
    knowingReturn.listingWrites "help" = [] ∧
      (knowingReturn.executeLine "help").failuresOn ScriptedUser.interface user =
        [none, some .notConnected] ∧
      ((knowingReturn.executeLine "help").runOn ScriptedUser.interface user).1.1 =
        .error .notConnected := by
  intro user
  have hwrites : knowingReturn.listingWrites "help" = [] := by decide +kernel
  have hfails : (knowingReturn.executeLine "help").failuresOn ScriptedUser.interface user =
      [none] ++ some .notConnected :: [] := by decide +kernel
  have hsurfaces := (executeLine_surfaces_iff Settings.initial knowingReturn.debuggee initialPrompt
    "help").2 hwrites ScriptedUser ScriptedUser.interface user
  exact ⟨hwrites, hfails, (hsurfaces _ _ _ hfails).2⟩

/-- A user who is out of reach when the heading of a disassembly is written is told so, and the
debugger goes on as if nothing had failed. -/
theorem executeLine_reports_refused_heading :
    (knowingReturn.executeLine "disassemble f").failuresOn ScriptedUser.interface outOfReachOnce =
        [some .notConnected, none] ∧
      ((knowingReturn.executeLine "disassemble f").runOn ScriptedUser.interface
        outOfReachOnce).1.1 = .ok .goOn := by
  decide +kernel

end Processor

end BytecodeDebugger
