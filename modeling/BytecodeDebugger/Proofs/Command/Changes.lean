import BytecodeDebugger.Proofs.Command.Failure
import BytecodeDebugger.Proofs.Command.Unbroken

/-!
# What command lines change

Every command works on all settings and on all that is known about the program. What it may make of
them is little: `set` assigns one setting, `list` moves to where a bare `list` goes on, `quit` asks
the debugger to quit, and everything else leaves them as they are. A line that is rejected, and a
command that fails, changes nothing at all.

Main facts: `changes_of_mem_builtinCommands` (what one command may do), `executeLine_comesTo` (what
a line may come to) and `executeLine_changes_announced`.
-/

namespace BytecodeDebugger

open Dialogue Handler

variable {σ : Type} {i : Interface σ} {s : σ}

/-! ## What is announced -/

/-- The value that a switch gets from the arguments of `set`: that of the first word, or on. -/
inductive Setting.Switches : List String → Bool → Prop
  | bare : Switches [] true
  | word {word : String} {rest : List String} {value : Bool} (h : parseSwitch word = .ok value) :
    Switches (word :: rest) value

/-- The settings that assigning one of them comes to, by its name and the arguments of `set`. -/
inductive Setting.Assigns (settings : Settings) : String → List String → Settings → Prop
  | skip {args : List String} {value : Bool} (h : Switches args value) :
    Assigns settings "skip" args { settings with skip := value }
  | different {args : List String} {value : Bool} (h : Switches args value) :
    Assigns settings "different" args { settings with different := value }
  | highlight {word : String} {rest : List String} {style : HighlightStyle}
    (h : HighlightStyle.ofString? word = some style) :
    Assigns settings "highlight" (word :: rest) { settings with highlight := style }
  | format {word : String} {rest : List String} {format : OutputFormat}
    (h : OutputFormat.ofString? word = some format) :
    Assigns settings "format" (word :: rest) { settings with format }

/-- What `list` consults to list lines of a file. -/
def SourceList.context (d : Debuggee) (filename : String) : SourceContext :=
  ⟨d.sources.provider, d.breakpoints,
    if d.currentFile? = some filename then d.currentLine? else none⟩

/-- The calls list a line of a source file. -/
def SourceList.Shows (w : Workspace) (filename : String) (line : Nat) (writes : List Write) :
    Prop :=
  ∃ text, w.debuggee.sources.line? filename line = some text ∧
    .line (sourceRow (context w.debuggee filename) filename w.settings.highlight line text) ∈ writes

/-- What a command may make of a workspace when it is run on arguments; the user may be asked
whether they are sure. -/
inductive Changes (w : Workspace) (sure : Prop) : Entry Command → List String → Workspace → Prop
  | nothing {e : Entry Command} {args : List String} : Changes w sure e args w
  | setting {word : String} {args : List String} {sub : Entry Subcommand} {settings : Settings}
    (hsub : Setting.setters.lookupWith word w.settings.view = some sub)
    (h : Setting.Assigns w.settings sub.name args settings) :
    Changes w sure Setting.setCommand (word :: args) { w with settings }
  | listNext {args : List String} {filename : String} {line : Nat}
    (h : SourceList.Shows w filename line (SourceList.listingWrites w args)) :
    Changes w sure SourceList.command args
      { w with debuggee := SourceList.goOnAfter w.debuggee filename (some line) }
  | quit {args : List String}
    (h : args.head? = some "!" ∨ w.settings.confirm = false ∨ sure) :
    Changes w sure Quit.command args { w with quit := true }

/-! ## Commands -/

section commands

variable {w : Workspace} {infos : Registry CommandInfo} {args : List String} {sure : Prop}

/-- A handler that leaves the workspace alone. -/
theorem settlesOn_nothing {h : Handler Unit} {e : Entry Command}
    (hh : h.KeepsOn i s w) :
    h.SettlesOn i s w fun _ w' => Changes w sure e args w' :=
  hh.mono fun _ _ hw => hw ▸ .nothing

theorem Help.keepsOn_command :
    (Help.command.value.run infos args).KeepsOn i s w :=
  settlesOn_get_bind (settlesOn_orFail_bind fun lines _ => keepsOn_sayAll lines)

/-- The command `quit` asks the debugger to quit if it is told to, or if nobody is to be asked, or
if the user is sure. -/
theorem Quit.settlesOn_command :
    (Quit.command.value.run infos args).SettlesOn i s w fun _ w' =>
      Changes w ((i.confirm "Really quit?" false s).1 = .ok true) Quit.command args w' := by
  refine settlesOn_get_bind ?_
  dsimp only
  split
  · next hforced => exact settlesOn_set (.quit (.inl hforced))
  · split
    · refine (settlesOn_confirm _ _).bind ?_
      rintro (_ | _) s' hanswer
      · exact settlesOn_nothing (keepsOn_say _)
      · exact settlesOn_set (.quit (.inr (.inr hanswer)))
    · next hconfirm =>
      exact settlesOn_set (.quit (.inr (.inl (eq_false_of_ne_true hconfirm))))

/-- A switch is changed to what the arguments say. -/
theorem Setting.exists_switches_of_changeSwitch {name : String} {settings t : Settings}
    (h : changeSwitch name settings args = .ok t) :
    ∃ value, Switches args value ∧ settings.setBool name value = .ok t := by
  cases args with
  | nil =>
    cases hset : settings.setBool name true with
    | error e =>
      simp only [changeSwitch, hset, bind, Except.bind, pure, Except.pure] at h
      cases h
    | ok t' =>
      simp only [changeSwitch, hset, bind, Except.bind, pure, Except.pure] at h
      cases h
      exact ⟨true, .bare, hset⟩
  | cons word rest =>
    cases hword : parseSwitch word with
    | error causes =>
      simp only [changeSwitch, hword] at h
      cases h
    | ok value =>
      cases hset : settings.setBool name value with
      | error e =>
        simp only [changeSwitch, hword, hset, bind, Except.bind] at h
        cases h
      | ok t' =>
        simp only [changeSwitch, hword, hset, bind, Except.bind, pure, Except.pure] at h
        cases h
        exact ⟨value, .word hword, hset⟩

/-- Another style is assigned. -/
theorem Setting.assigns_of_changeHighlight {settings t : Settings}
    (h : changeHighlight settings args = .ok t) : Assigns settings "highlight" args t := by
  unfold changeHighlight at h
  split at h
  · cases h
  · split at h
    · next style hstyle =>
      cases h
      exact .highlight hstyle
    · cases h

/-- Another format is assigned. -/
theorem Setting.assigns_of_changeFormat {settings t : Settings}
    (h : changeFormat settings args = .ok t) : Assigns settings "format" args t := by
  unfold changeFormat at h
  split at h
  · cases h
  · split at h
    · next format hformat =>
      cases h
      exact .format hformat
    · cases h

/-- A subcommand of `set` assigns a setting if its change does. -/
theorem Setting.settlesOn_setter {name : String} {minAbbrev : Nat} {summary : String}
    {change : Settings → List String → Except (List String) Settings}
    (h : ∀ t, change w.settings args = .ok t → Assigns w.settings name args t) :
    ((setter name minAbbrev summary change).value.run args).SettlesOn i s w fun _ w' =>
      ∃ settings, Assigns w.settings name args settings ∧ w' = { w with settings } := by
  refine settlesOn_get_bind (settlesOn_orFail_bind ?_)
  intro t ht
  exact settlesOn_set ⟨t, h t ht, rfl⟩

/-- Every subcommand of `set` assigns the setting of its name. -/
theorem Setting.settlesOn_of_mem_setters {sub : Entry Subcommand} (hsub : sub ∈ setters.toList) :
    (sub.value.run args).SettlesOn i s w fun _ w' =>
      ∃ settings, Assigns w.settings sub.name args settings ∧ w' = { w with settings } := by
  have hmem := Registry.mem_of_mem_toList_ofList hsub
  simp only [List.mem_cons, List.not_mem_nil, or_false] at hmem
  rcases hmem with rfl | rfl | rfl | rfl
  · apply settlesOn_setter
    intro t ht
    obtain ⟨value, hvalue, hset⟩ := exists_switches_of_changeSwitch ht
    cases hset
    exact .skip hvalue
  · apply settlesOn_setter
    intro t ht
    obtain ⟨value, hvalue, hset⟩ := exists_switches_of_changeSwitch ht
    cases hset
    exact .different hvalue
  · exact settlesOn_setter fun _ => assigns_of_changeHighlight
  · exact settlesOn_setter fun _ => assigns_of_changeFormat

/-- The subcommands of a command are listed, or the one that the first argument names is run. -/
theorem settlesOn_runSubcommand {command : String} {subcommands : Registry Subcommand}
    {Q : Unit → Workspace → Prop} (hlisted : args = [] → Q () w)
    (hsub : ∀ word rest sub, args = word :: rest →
      subcommands.lookupWith word w.settings.view = some sub →
      (sub.value.run rest).SettlesOn i s w Q) :
    (runSubcommand command subcommands args).SettlesOn i s w Q := by
  cases args with
  | nil =>
    refine (keepsOn_say _).bind fun _ _ => (keepsOn_say _).mono ?_
    rintro - _ rfl
    exact hlisted rfl
  | cons word rest =>
    refine settlesOn_get_bind ?_
    split
    · next sub hlookup => exact hsub word rest sub rfl hlookup
    · exact settlesOn_fail _ _

/-- The command `set` assigns at most one setting. -/
theorem Setting.settlesOn_setCommand :
    (Setting.setCommand.value.run infos args).SettlesOn i s w fun _ w' =>
      Changes w sure Setting.setCommand args w' := by
  refine settlesOn_runSubcommand (fun _ => .nothing) ?_
  rintro word rest sub rfl hlookup
  refine (settlesOn_of_mem_setters (Registry.mem_toList_of_lookupWith hlookup)).mono ?_
  rintro - w' ⟨settings, hassigns, rfl⟩
  exact .setting hlookup hassigns

/-- A subcommand of `show` changes nothing. -/
theorem Setting.keepsOn_of_mem_showers {sub : Entry Subcommand} (hsub : sub ∈ showers.toList) :
    (sub.value.run args).KeepsOn i s w := by
  have hshower : ∀ name minAbbrev summary,
      ((shower name minAbbrev summary).value.run args).KeepsOn i s w := by
    intro name minAbbrev summary
    refine settlesOn_get_bind ?_
    split
    · exact keepsOn_say _
    · exact settlesOn_fail _ _
  have hmem := Registry.mem_of_mem_toList_ofList hsub
  simp only [List.mem_cons, List.not_mem_nil, or_false] at hmem
  rcases hmem with rfl | rfl | rfl | rfl <;> exact hshower _ _ _

/-- The command `show` changes nothing. -/
theorem Setting.keepsOn_showCommand :
    (Setting.showCommand.value.run infos args).KeepsOn i s w := by
  cases args with
  | nil => exact keepsOn_forM fun sub hsub s => keepsOn_of_mem_showers hsub
  | cons word rest =>
    show (runSubcommand "show" showers (word :: rest)).SettlesOn i s w _
    refine settlesOn_runSubcommand (fun _ => rfl) ?_
    rintro word rest sub - hlookup
    exact keepsOn_of_mem_showers (Registry.mem_toList_of_lookupWith hlookup)

/-- A disassembly in a format other than the annotated text changes nothing. -/
theorem Disassemble.keepsOn_writeDocuments (format : OutputFormat) (table : OpcodeTable)
    (p : ListingPolicy) (current : Option Nat) (units : List CodeObject) :
    (writeDocuments format table p current units).KeepsOn i s w := by
  induction units generalizing s with
  | nil => exact settlesOn_pure rfl
  | cons code rest ih =>
    unfold writeDocuments
    cases formatDisassembly format ⟨code, table, current⟩ p with
    | error e => exact settlesOn_fail _ _
    | ok text => exact (keepsOn_sayAll _).bind fun _ _ => ih

/-- An annotated listing changes nothing. -/
theorem Disassemble.keepsOn_writeText (target : Target) (table : OpcodeTable) (p : ListingPolicy)
    (current : Option Nat) :
    (writeText target table p current).KeepsOn i s w := by
  refine (settlesOn_list _).bind ?_
  rintro (e | ⟨⟩) s' -
  · exact settlesOn_fail _ _
  · exact settlesOn_pure rfl

/-- The command `disassemble` changes nothing. -/
theorem Disassemble.keepsOn_command :
    (Disassemble.command.value.run infos args).KeepsOn i s w := by
  refine settlesOn_get_bind (settlesOn_orFail_bind ?_)
  rintro ⟨target, current⟩ -
  refine settlesOn_orFail_bind ?_
  intro p _
  split
  · exact keepsOn_writeText _ _ _ _
  · exact keepsOn_writeDocuments _ _ _ _ _

/-- If a listing of source lines comes to a last line, it has listed that one, or there was one
before. -/
theorem exists_mem_writes_sourceRows {c : SourceContext} {filename : String}
    {style : HighlightStyle} {shown : Option Nat} {line count n : Nat}
    (h : (sourceRows c filename style shown line count).outcome = .ok (some n)) :
    shown = some n ∨ ∃ text, c.sources.line filename n = some text ∧
      .line (sourceRow c (c.sources.canonicalName filename) style n text) ∈
        (sourceRows c filename style shown line count).writes := by
  induction count generalizing shown line with
  | zero =>
    cases h
    exact .inl rfl
  | succ count ih =>
    unfold sourceRows at h ⊢
    cases htext : c.sources.line filename line with
    | none =>
      simp only [htext, Listing.after, Listing.result] at h
      cases h
      exact .inl rfl
    | some text =>
      simp only [htext, Listing.after] at h ⊢
      refine .inr ?_
      rcases ih h with hline | ⟨text', htext', hmem⟩
      · cases hline
        exact ⟨text, htext, List.mem_append_left _ (List.mem_singleton_self _)⟩
      · exact ⟨text', htext', List.mem_append_right _ hmem⟩

/-- A listing that comes to a last line has listed it. -/
theorem exists_mem_writes_renderSource {r : SourceRequest} {c : SourceContext}
    {style : HighlightStyle} {n : Nat} (h : (renderSource r c style).outcome = .ok (some n)) :
    ∃ text, c.sources.line r.filename n = some text ∧
      .line (sourceRow c (c.sources.canonicalName r.filename) style n text) ∈
        (renderSource r c style).writes := by
  unfold renderSource at h ⊢
  cases hmax : c.sources.lineCount r.filename with
  | none =>
    simp only [hmax] at h
    cases h
  | some max =>
    simp only [hmax] at h ⊢
    split at h
    · cases h
    · next hfirst =>
      rw [if_neg hfirst]
      rcases exists_mem_writes_sourceRows h with hnone | ⟨text, htext, hmem⟩
      · cases hnone
      · exact ⟨text, htext, List.mem_append_right _ hmem⟩

/-- The command `list` moves to where a bare `list` goes on, if it has listed a line. -/
theorem SourceList.settlesOn_command :
    (SourceList.command.value.run infos args).SettlesOn i s w fun _ w' =>
      Changes w sure SourceList.command args w' := by
  refine settlesOn_get_bind (settlesOn_orFail_bind ?_)
  rintro ⟨(_ | filename), first, last⟩ hrequest
  · exact settlesOn_fail _ _
  · refine (settlesOn_list _).bind ?_
    rintro (e | (_ | line)) s' houtcome
    · exact settlesOn_fail _ _
    · exact settlesOn_set .nothing
    · refine settlesOn_set (.listNext ?_)
      obtain ⟨text, htext, hmem⟩ := exists_mem_writes_renderSource houtcome.symm
      refine ⟨text, htext, ?_⟩
      unfold listingWrites
      rw [hrequest]
      exact hmem

/-- Every built-in command comes to a change that it announces, or fails and changes nothing. -/
theorem changes_of_mem_builtinCommands {e : Entry Command} (he : e ∈ builtinCommands)
    (infos : Registry CommandInfo) (args : List String) :
    (e.value.run infos args).SettlesOn i s w fun _ w' =>
      Changes w ((i.confirm "Really quit?" false s).1 = .ok true) e args w' := by
  simp only [builtinCommands, List.mem_cons, List.not_mem_nil, or_false] at he
  rcases he with rfl | rfl | rfl | rfl | rfl | rfl
  · exact settlesOn_nothing Disassemble.keepsOn_command
  · exact settlesOn_nothing Help.keepsOn_command
  · exact SourceList.settlesOn_command
  · exact Quit.settlesOn_command
  · exact Setting.settlesOn_setCommand
  · exact settlesOn_nothing Setting.keepsOn_showCommand

end commands

/-! ## Command lines -/

namespace Processor

variable {p : Processor} {line : String}

/-- What a command of the processor works on. -/
def workspace (p : Processor) : Workspace := ⟨p.settings, p.debuggee, false⟩

/-- The line runs a command: it names the command, and gives it arguments that it can be run on. -/
def Runs (p : Processor) (line : String) (e : Entry Command) (args : List String) : Prop :=
  ∃ name, Text.words line = name :: args ∧ p.commands.lookupWith name p.settings.view = some e ∧
    p.refusal? e.name e.value.info args.length = none

/-- The line is rejected: it names no command, or a command that cannot be run on so many arguments
or without a program. -/
def Rejects (p : Processor) (line : String) : Prop :=
  ∃ name args, Text.words line = name :: args ∧
    (p.commands.lookupWith name p.settings.view = none ∨
      ∃ e text, p.commands.lookupWith name p.settings.view = some e ∧
        p.refusal? e.name e.value.info args.length = some text)

/-- The line runs a command whose handler, held with a user, fails. -/
def HandlerFails (p : Processor) (line : String) (i : Interface σ) (s : σ) : Prop :=
  ∃ e args failure w, p.Runs line e args ∧
    (((e.value.run p.infos args).run p.workspace).runOn i s).1 = (.error failure, w)

/-- A line runs one command at most. -/
theorem Runs.unique {e e' : Entry Command} {args args' : List String} (h : p.Runs line e args)
    (h' : p.Runs line e' args') : e = e' ∧ args = args' := by
  obtain ⟨name, hwords, hlookup, -⟩ := h
  obtain ⟨name', hwords', hlookup', -⟩ := h'
  obtain ⟨rfl, rfl⟩ := List.cons.inj (hwords.symm.trans hwords')
  exact ⟨Option.some.inj (hlookup.symm.trans hlookup'), rfl⟩

/-- A line that runs a command is not rejected. -/
theorem Runs.not_rejects {e : Entry Command} {args : List String} (h : p.Runs line e args) :
    ¬ p.Rejects line := by
  rintro ⟨name', args', hwords', hrejects⟩
  obtain ⟨name, hwords, hlookup, hrefusal⟩ := h
  obtain ⟨rfl, rfl⟩ := List.cons.inj (hwords.symm.trans hwords')
  rcases hrejects with hnone | ⟨e', text, hlookup', hrefused⟩
  · cases hlookup.symm.trans hnone
  · cases hlookup.symm.trans hlookup'
    cases hrefusal.symm.trans hrefused

/-- What executing a line comes to that runs a command. -/
theorem Runs.executeLine_eq {e : Entry Command} {args : List String} (h : p.Runs line e args) :
    p.executeLine line = p.perform e.value args := by
  obtain ⟨name, hwords, hlookup, hrefusal⟩ := h
  simp only [executeLine, hwords, hlookup, hrefusal]

/-- A line does nothing, or it is answered with a report, or it runs a command. -/
theorem executeLine_done_or_report_or_runs (p : Processor) (line : String) :
    p.executeLine line = .done (.ok .goOn, p) ∨
      (∃ text, p.executeLine line = p.report .goOn text) ∨ ∃ e args, p.Runs line e args := by
  unfold executeLine
  cases hwords : Text.words line with
  | nil => exact .inl rfl
  | cons name args =>
    dsimp only
    cases hlookup : p.commands.lookupWith name p.settings.view with
    | none => exact .inr (.inl ⟨_, rfl⟩)
    | some e =>
      dsimp only
      cases hrefusal : p.refusal? e.name e.value.info args.length with
      | some text => exact .inr (.inl ⟨text, rfl⟩)
      | none => exact .inr (.inr ⟨e, args, name, hwords, hlookup, hrefusal⟩)

theorem runOn_report {flow : Flow} {text : String} (h : (p.report flow text).Unbroken i s) :
    ((p.report flow text).runOn i s).1 = (.ok flow, p) := by
  obtain ⟨t, hwrite, -⟩ := Unbroken.write h
  simp only [report, runOn, hwrite]

theorem writesOn_report (p : Processor) (flow : Flow) (text : String) :
    (p.report flow text).writesOn i s = [.fault text] := by
  rcases hwrite : i.write (.fault text) s with ⟨e | ⟨⟩, t⟩ <;>
    simp only [report, writesOn, hwrite]

/-- What a line comes to that leaves a workspace behind. -/
def outcome (p : Processor) (w : Workspace) : Except ConnectError Flow × Processor :=
  (.ok (if w.quit then .quit else .goOn), { p with settings := w.settings, debuggee := w.debuggee })

/-- A line comes to a workspace: to the one it began in, or to one that the handler of the command
that it runs has made of that one. -/
theorem executeLine_comesTo (hcommands : p.commands = .ofList builtinCommands)
    (h : (p.executeLine line).Unbroken i s) :
    ∃ w, ((p.executeLine line).runOn i s).1 = p.outcome w ∧
      (w = p.workspace ∨ ∃ e args, p.Runs line e args ∧
        (((e.value.run p.infos args).run p.workspace).runOn i s).1 = (.ok (), w) ∧
        Changes p.workspace ((i.confirm "Really quit?" false s).1 = .ok true) e args w) := by
  rcases p.executeLine_done_or_report_or_runs line with hblank | ⟨text, hreport⟩ | ⟨e, args, hruns⟩
  · rw [hblank]
    exact ⟨p.workspace, rfl, .inl rfl⟩
  · rw [hreport] at h ⊢
    exact ⟨p.workspace, runOn_report h, .inl rfl⟩
  · have hperform := hruns.executeLine_eq
    have he : e ∈ builtinCommands := by
      obtain ⟨name, -, hlookup, -⟩ := hruns
      rw [hcommands] at hlookup
      exact Registry.mem_of_mem_toList_ofList (Registry.mem_toList_of_lookupWith hlookup)
    rw [hperform, perform_eq_bind_conclude] at h ⊢
    rw [unbroken_bind] at h
    obtain ⟨hhandler, hconclude⟩ := h
    have hsettled := changes_of_mem_builtinCommands he p.infos args hhandler
    rw [runOn_bind]
    unfold workspace
    rcases hrun : ((e.value.run p.infos args).run ⟨p.settings, p.debuggee, false⟩).runOn i s with
      ⟨⟨(e' | causes) | ⟨⟩, w⟩, t⟩
    · -- no call has failed, so no handler ends with the failure of one
      rw [hrun] at hsettled
      exact hsettled.elim
    · -- what the handler has to report is reported of the workspace that it began in
      rw [hrun] at hsettled hconclude
      cases hsettled
      exact ⟨_, runOn_report hconclude, .inl rfl⟩
    · rw [hrun] at hsettled
      exact ⟨w, rfl, .inr ⟨e, args, hruns, by rw [hrun], hsettled⟩⟩

/-- The calls of the listing of a line are made before any other one. -/
theorem listingWrites_prefix_writesOn (hcommands : p.commands = .ofList builtinCommands)
    (h : (p.executeLine line).Unbroken i s) :
    p.listingWrites line <+: (p.executeLine line).writesOn i s := by
  rcases executeLine_cases hcommands line with ⟨-, hnone⟩ | ⟨rest, text, -, hline⟩
  · rw [hnone]
    exact List.nil_prefix
  · rw [hline, unbroken_bind] at h
    rw [hline, writesOn_bind, (writesOn_writeAll h.1).1]
    exact List.prefix_append _ _

/-- The listing of a line that runs `list` is the one of that command. -/
theorem Runs.listingWrites_list {args : List String} (h : p.Runs line SourceList.command args) :
    p.listingWrites line = SourceList.listingWrites p.workspace args := by
  obtain ⟨name, hwords, hlookup, hrefusal⟩ := h
  simp only [listingWrites, hwords, hlookup, hrefusal]
  rfl

/-- A line changes only what it announces. -/
structure Announces (p : Processor) (line : String) (i : Interface σ) (s : σ) (flow : Flow)
    (p' : Processor) : Prop where
  /-- Only `set` changes settings, and it changes the one of its subcommand. -/
  settings : p'.settings ≠ p.settings → ∃ word args sub,
    p.Runs line Setting.setCommand (word :: args) ∧
      Setting.setters.lookupWith word p.settings.view = some sub ∧
      Setting.Assigns p.settings sub.name args p'.settings
  /-- Only `list` changes what is known about the program: where a bare `list` goes on, after a line
  that was shown. -/
  debuggee : p'.debuggee ≠ p.debuggee → ∃ args filename n,
    p.Runs line SourceList.command args ∧
      SourceList.Shows p.workspace filename n ((p.executeLine line).writesOn i s) ∧
      p'.debuggee = { p.debuggee with
        listNext := some (filename, min (n + 1) (Text.lineLimit - 1)) }
  /-- What is rejected and what fails changes nothing. -/
  unchanged : p.Rejects line ∨ p.HandlerFails line i s →
    flow = .goOn ∧ p'.settings = p.settings ∧ p'.debuggee = p.debuggee
  /-- Only `quit` quits, if it is told to, if nobody is to be asked, or if the user is sure. -/
  quit : flow = .quit → ∃ args, p.Runs line Quit.command args ∧
    (args.head? = some "!" ∨ p.settings.confirm = false ∨
      (i.confirm "Really quit?" false s).1 = .ok true)

/-- A line that changes nothing, and goes on, need not announce anything. -/
theorem announces_self (p : Processor) (line : String) (i : Interface σ) (s : σ) :
    p.Announces line i s .goOn p where
  settings hne := absurd rfl hne
  debuggee hne := absurd rfl hne
  unchanged _ := ⟨rfl, rfl, rfl⟩
  quit hquit := nomatch hquit

/-- What a command changes is what its line announces. -/
theorem announces_of_changes (hcommands : p.commands = .ofList builtinCommands)
    (h : (p.executeLine line).Unbroken i s) {e : Entry Command} {args : List String} {w : Workspace}
    (hruns : p.Runs line e args)
    (hhandler : (((e.value.run p.infos args).run p.workspace).runOn i s).1 = (.ok (), w))
    (hchanges : Changes p.workspace ((i.confirm "Really quit?" false s).1 = .ok true) e args w) :
    p.Announces line i s (if w.quit then .quit else .goOn)
      { p with settings := w.settings, debuggee := w.debuggee } := by
  have hdone : ¬ (p.Rejects line ∨ p.HandlerFails line i s) := by
    rintro (hrejects | ⟨e', args', failure, w', hruns', hfails⟩)
    · exact hruns.not_rejects hrejects
    · obtain ⟨rfl, rfl⟩ := hruns.unique hruns'
      cases hhandler.symm.trans hfails
  cases hchanges with
  | nothing => exact p.announces_self line i s
  | setting hsub hassigns =>
    exact {
      settings := fun _ => ⟨_, _, _, hruns, hsub, hassigns⟩
      debuggee := fun hne => absurd rfl hne
      unchanged := fun hnothing => absurd hnothing hdone
      quit := nofun }
  | listNext hshows =>
    obtain ⟨text, htext, hmem⟩ := hshows
    rw [← hruns.listingWrites_list] at hmem
    have hshown := (listingWrites_prefix_writesOn hcommands h).subset hmem
    exact {
      settings := fun hne => absurd rfl hne
      debuggee := fun _ => ⟨_, _, _, hruns, ⟨text, htext, hshown⟩, rfl⟩
      unchanged := fun hnothing => absurd hnothing hdone
      quit := nofun }
  | quit hquit =>
    exact {
      settings := fun hne => absurd rfl hne
      debuggee := fun hne => absurd rfl hne
      unchanged := fun hnothing => absurd hnothing hdone
      quit := fun _ => ⟨_, hruns, hquit⟩ }

/-- A command line changes only what it announces. With the built-in commands, whatever the settings
and the program, and for every user no call to whom fails: the line comes to a flow; it changes no
setting but the one that `set` is to assign and nothing about the program but where `list` goes on;
it changes nothing at all if it is rejected or fails; and it quits only if `quit` may do so. -/
theorem executeLine_changes_announced (settings : Settings) (debuggee : Debuggee)
    (prompt line : String) (i : Interface σ) (s : σ)
    (h : ({ new settings debuggee with prompt }.executeLine line).Unbroken i s) :
    ∃ flow p', (({ new settings debuggee with prompt }.executeLine line).runOn i s).1 =
        (.ok flow, p') ∧
      { new settings debuggee with prompt }.Announces line i s flow p' := by
  generalize hp : { new settings debuggee with prompt } = p at h ⊢
  have hcommands : p.commands = .ofList builtinCommands := hp ▸ rfl
  obtain ⟨w, hrun, hw⟩ := executeLine_comesTo hcommands h
  refine ⟨_, _, hrun, ?_⟩
  rcases hw with rfl | ⟨e, args, hruns, hhandler, hchanges⟩
  · exact p.announces_self line i s
  · exact announces_of_changes hcommands h hruns hhandler hchanges

/-- A processor that knows one source line. -/
def knowingSource : Processor :=
  new Settings.initial { Debuggee.unknown with sources := .ofTexts [("f.py", "return")] }

/-- An obliging user has a line listed to them, and a bare `list` goes on behind it. -/
theorem executeLine_changes_announced_list :
    (knowingSource.executeLine "l f.py:1").Unbroken Interface.obliging () ∧
      (∃ flow p', ((knowingSource.executeLine "l f.py:1").runOn Interface.obliging ()).1 =
          (.ok flow, p') ∧
        knowingSource.Announces "l f.py:1" Interface.obliging () flow p') ∧
      ((knowingSource.executeLine "l f.py:1").runOn Interface.obliging ()).1.2.debuggee.listNext =
        some ("f.py", 2) := by
  have hunbroken := unbroken_obliging (knowingSource.executeLine "l f.py:1")
  refine ⟨hunbroken, executeLine_changes_announced _ _ initialPrompt _ _ _ hunbroken, ?_⟩
  decide +kernel

end Processor

end BytecodeDebugger
