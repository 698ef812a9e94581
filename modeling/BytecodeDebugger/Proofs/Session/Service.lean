import BytecodeDebugger.Proofs.Command.Execution
import BytecodeDebugger.Proofs.Session.Breakdown

/-!
# The debugger's end against any front end

What a processor does for a front end, whoever it is: it reads a frame for each command line, and
frames for the answers to the questions that the line asks. How it goes is said as relations, which
have no bounds on the numbers of lines and of attempts at a question. Over a queue, every course
comes to its end, as each step takes a frame off the queue or is the last one; and the processor
keeps to it, as its bounds are never met.

Main facts: `Asks.confirm_eq`, `Held.runOn_eq` and `Course.run_eq` (questions, dialogues and the
processor keep to the relations), `Course.waiting_eq` (each frame that was taken has one use), and
`exists_course` (every course comes to its end).
-/

namespace BytecodeDebugger

open Dialogue

namespace Server

/-! ## Courses -/

/-- What a frame that waited is used for. -/
inductive Use where
  /-- It has come for a command line. -/
  | line (f : Frame)
  /-- It has come for an answer to a question. -/
  | answer (question : String) (default : Bool) (f : Frame)
  deriving DecidableEq, Repr

/-- The frame that is used. -/
def Use.frame : Use → Frame
  | .line f => f
  | .answer _ _ f => f

/-- Why a processor stops. -/
inductive Ending where
  /-- A command line has quit. -/
  | quit
  /-- The front end has left in place of a command line. -/
  | farewell
  /-- The stream has ended in place of a command line. -/
  | endOfStream
  | broken (e : ConnectError)
  deriving DecidableEq, Repr

/-- What the processor returns when it stops. -/
def Ending.result : Ending → Except ConnectError Unit
  | .quit | .farewell | .endOfStream => .ok ()
  | .broken e => .error e

section

variable {τ α : Type} [Transport τ]

/-- How a question goes: the frames that come for an answer, and what it comes to. -/
inductive Asks (question : String) (default : Bool) :
    Connection τ → List Frame → Except ConnectError Bool → Connection τ → Prop
  | broken {c c' : Connection τ} {e : ConnectError}
    (hawait : await (some (questionFrame question default)) c = (.error e, c')) :
    Asks question default c [] (.error e) c'
  | ended {c c' : Connection τ}
    (hawait : await (some (questionFrame question default)) c = (.ok none, c')) :
    Asks question default c [] (.ok default) c'
  | settled {c c' : Connection τ} {f : Frame}
    (hawait : await (some (questionFrame question default)) c = (.ok (some f), c'))
    (hf : f.settles = true) :
    Asks question default c [f] (.ok (f.verdict default)) c'
  | unsaid {c d c' : Connection τ} {f : Frame} {e : ConnectError}
    (hawait : await (some (questionFrame question default)) c = (.ok (some f), d))
    (hf : f.settles = false) (hinsist : d.send insistence = (.error e, c')) :
    Asks question default c [f] (.error e) c'
  | again {c d d' c' : Connection τ} {f : Frame} {replies : List Frame}
    {r : Except ConnectError Bool}
    (hawait : await (some (questionFrame question default)) c = (.ok (some f), d))
    (hf : f.settles = false) (hinsist : d.send insistence = (.ok (), d'))
    (hrest : Asks question default d' replies r c') :
    Asks question default c (f :: replies) r c'

/-- How a dialogue goes: the frames that are used, and what it comes to. -/
inductive Held : Dialogue α → Connection τ → List Use → α → Connection τ → Prop
  | done (a : α) (c : Connection τ) : Held (.done a) c [] a c
  | write {w : Write} {next : Except ConnectError Unit → Dialogue α} {c d c' : Connection τ}
    {r : Except ConnectError Unit} {uses : List Use} {a : α} (hwrite : (write w).on c = (r, d))
    (hnext : Held (next r) d uses a c') :
    Held (.write w next) c uses a c'
  | confirm {question : String} {default : Bool} {next : Except ConnectError Bool → Dialogue α}
    {c d c' : Connection τ} {replies : List Frame} {r : Except ConnectError Bool}
    {uses : List Use} {a : α} (hask : Asks question default c replies r d)
    (hnext : Held (next r) d uses a c') :
    Held (.confirm question default next) c (replies.map (.answer question default) ++ uses) a c'

/-- Prompts for a command line, unless the prompt is empty, and receives the frame that comes for
it. -/
def awaitLine (p : Processor) (c : Connection τ) :
    Except ConnectError (Option Frame) × Connection τ :=
  await (if p.prompt.isEmpty then none else some (.ofRole .prompt (p.prompt ++ "\n"))) c

/-- The line runs `quit`, which is told to do so for certain, or nobody is to be asked, or the front
end is sure. -/
def MayQuit (p : Processor) (line : String) (c : Connection τ) : Prop :=
  ∃ args, p.Runs line Quit.command args ∧
    (args.head? = some "!" ∨ p.settings.confirm = false ∨
      ∃ replies c', Asks "Really quit?" false c replies (.ok true) c')

/-- How a processor goes on until it stops: the frames that are used, why it stops, and what is left
then. -/
inductive Course :
    Processor → Connection τ → List Use → Ending → Processor → Connection τ → Prop
  | unread {p : Processor} {c c' : Connection τ} {e : ConnectError}
    (hawait : awaitLine p c = (.error e, c')) :
    Course p c [] (.broken e) p c'
  | ended {p : Processor} {c c' : Connection τ} (hawait : awaitLine p c = (.ok none, c')) :
    Course p c [] .endOfStream p c'
  | farewell {p : Processor} {c c' : Connection τ} {f : Frame}
    (hawait : awaitLine p c = (.ok (some f), c')) (hf : f.role? = some .quit) :
    Course p c [.line f] .farewell p c'
  | quits {p p' : Processor} {c d c' : Connection τ} {f : Frame} {uses : List Use}
    (hawait : awaitLine p c = (.ok (some f), d)) (hf : f.role? ≠ some .quit)
    (hline : Held (p.executeLine (Text.stripLineEnd f.payload)) d uses (.ok .quit, p') c')
    (hquit : MayQuit p (Text.stripLineEnd f.payload) d) :
    Course p c (.line f :: uses) .quit p' c'
  | breaks {p p' : Processor} {c d c' : Connection τ} {f : Frame} {uses : List Use}
    {e : ConnectError} (hawait : awaitLine p c = (.ok (some f), d)) (hf : f.role? ≠ some .quit)
    (hline : Held (p.executeLine (Text.stripLineEnd f.payload)) d uses (.error e, p') c') :
    Course p c (.line f :: uses) (.broken e) p' c'
  | goesOn {p q p' : Processor} {c d d' c' : Connection τ} {f : Frame} {uses rest : List Use}
    {ending : Ending} (hawait : awaitLine p c = (.ok (some f), d)) (hf : f.role? ≠ some .quit)
    (hline : Held (p.executeLine (Text.stripLineEnd f.payload)) d uses (.ok .goOn, q) d')
    (hrest : Course q d' rest ending p' c') :
    Course p c (.line f :: uses ++ rest) ending p' c'

/-! ## Enough attempts -/

variable {question : String} {default : Bool} {c c' : Connection τ} {replies : List Frame}
  {r : Except ConnectError Bool}

/-- With more attempts than frames come for an answer, a question keeps to its course. -/
theorem Asks.confirmWithin_eq (h : Asks question default c replies r c') {attempts : Nat}
    (hattempts : replies.length < attempts) :
    (confirmWithin question default attempts).on c = (r, c') := by
  obtain ⟨attempts, rfl⟩ := Nat.exists_eq_add_one_of_ne_zero (Nat.ne_zero_of_lt hattempts)
  induction h generalizing attempts with
  | broken hawait => rw [confirmWithin_succ_await, hawait]
  | ended hawait => rw [confirmWithin_succ_await, hawait]
  | settled hawait hf => simp only [confirmWithin_succ_await, hawait, hf, if_true]
  | unsaid hawait hf hinsist => simp [confirmWithin_succ_await, hawait, hf, hinsist]
  | again hawait hf hinsist hrest ih =>
    obtain ⟨attempts, rfl⟩ := Nat.exists_eq_add_one_of_ne_zero
      (Nat.ne_zero_of_lt (Nat.lt_of_succ_lt_succ hattempts))
    have hagain := ih attempts (Nat.lt_of_succ_lt_succ hattempts)
    rw [confirmWithin_succ_await, hawait]
    simp only [hf, hinsist, hagain, if_neg Bool.false_ne_true]

/-- The command line that is read is that of the frame that has come for it. -/
theorem readCommand_eq {p : Processor} {f? : Except ConnectError (Option Frame)}
    (hawait : awaitLine p c = (f?, c')) :
    interface.readCommand p.prompt c =
      (f?.map fun f? => f?.bind fun f =>
        if f.role? = some .quit then none else some (Text.stripLineEnd f.payload), c') := by
  have hread : interface.readCommand p.prompt c = (readLine p.prompt).on c := rfl
  have hprompt : c.writeLine .prompt p.prompt = c.send (.ofRole .prompt (p.prompt ++ "\n")) := rfl
  have hreceive : ∀ d : Connection τ, d.receive = (f?, c') → receiveLine.on d =
      (f?.map fun f? => f?.bind fun f =>
        if f.role? = some .quit then none else some (Text.stripLineEnd f.payload), c') := by
    intro d hd
    rw [receiveLine_on, hd]
    rcases f? with e | _ | f <;> rfl
  rw [hread, readLine_on]
  unfold awaitLine await at hawait
  by_cases hempty : p.prompt.isEmpty = true
  · rw [if_pos hempty] at hawait ⊢
    exact hreceive c hawait
  · rw [if_neg hempty] at hawait ⊢
    rw [hprompt]
    dsimp only at hawait
    rcases hsend : c.send (.ofRole .prompt (p.prompt ++ "\n")) with ⟨e | _, d⟩ <;>
      rw [hsend] at hawait
    · cases hawait
      rfl
    · exact hreceive d hawait

end

/-! ## Over a queue -/

section

variable {α : Type} {c c' : Connection UnreliableQueue} {question : String} {default : Bool}
  {replies : List Frame} {r : Except ConnectError Bool} {uses : List Use}

/-- A frame that comes was the first one waiting. -/
theorem waiting_eq_of_await {request? : Option Frame} {f? : Except ConnectError (Option Frame)}
    (h : await request? c = (f?, c')) : c.waiting = f?.toOption.join.toList ++ c'.waiting := by
  unfold await at h
  cases request? with
  | none => exact Connection.waiting_eq_of_receive h
  | some q =>
    dsimp only at h
    rcases hsend : c.send q with ⟨e | _, d⟩ <;> rw [hsend] at h
    · cases h
      exact (Connection.waiting_eq_of_send hsend).symm
    · rw [← Connection.waiting_eq_of_send hsend]
      exact Connection.waiting_eq_of_receive h

/-- A frame comes after some calls. -/
theorem calls_of_await {request? : Option Frame} {f? : Except ConnectError (Option Frame)}
    (h : await request? c = (f?, c')) : c.Calls c' := by
  have hcalls := calls_await request? c
  rw [h] at hcalls
  exact hcalls

/-- The frames that come for an answer are the first ones waiting. -/
theorem Asks.waiting_eq (h : Asks question default c replies r c') :
    c.waiting = replies ++ c'.waiting := by
  induction h with
  | broken hawait => exact waiting_eq_of_await hawait
  | ended hawait => exact waiting_eq_of_await hawait
  | settled hawait hf => exact waiting_eq_of_await hawait
  | unsaid hawait hf hinsist =>
    rw [Connection.waiting_eq_of_send hinsist]
    exact waiting_eq_of_await hawait
  | again hawait hf hinsist hrest ih =>
    rw [waiting_eq_of_await hawait, ← Connection.waiting_eq_of_send hinsist, ih]
    rfl

/-- A question keeps to its course. -/
theorem Asks.confirm_eq (h : Asks question default c replies r c') :
    (confirm question default).on c = (r, c') := by
  have hbacklog : Transport.backlog c.transport = c.waiting.length := rfl
  have hattempts : replies.length < c.waiting.length + 1 := by
    rw [h.waiting_eq, List.length_append]
    omega
  rw [confirm, Action.on_of, hbacklog]
  exact h.confirmWithin_eq hattempts

/-- Every question comes to something. -/
theorem exists_asks (question : String) (default : Bool) (c : Connection UnreliableQueue) :
    ∃ replies r c', Asks question default c replies r c' := by
  -- the induction is on the frames that wait, of which each further attempt takes one
  induction hn : c.waiting.length using Nat.strongRecOn generalizing c with
  | ind n ih =>
    rcases hawait : await (some (questionFrame question default)) c with ⟨e | _ | f, d⟩
    · exact ⟨_, _, _, .broken hawait⟩
    · exact ⟨_, _, _, .ended hawait⟩
    · cases hf : f.settles with
      | true => exact ⟨_, _, _, .settled hawait hf⟩
      | false =>
        rcases hinsist : d.send insistence with ⟨e | _, d'⟩
        · exact ⟨_, _, _, .unsaid hawait hf hinsist⟩
        · have hfewer : d'.waiting.length < n := by
            rw [← hn, waiting_eq_of_await hawait, Connection.waiting_eq_of_send hinsist]
            exact Nat.lt_succ_self _
          obtain ⟨replies, r, c', hrest⟩ := ih _ hfewer d' rfl
          exact ⟨_, _, _, .again hawait hf hinsist hrest⟩

/-- A dialogue keeps to its course. -/
theorem Held.runOn_eq {d : Dialogue α} {a : α} (h : Held d c uses a c') :
    d.runOn interface c = (a, c') := by
  induction h with
  | done a c => rfl
  | write hwrite hnext ih =>
    rw [runOn, interface_write, hwrite]
    exact ih
  | confirm hask hnext ih =>
    rw [runOn, interface_confirm, hask.confirm_eq]
    exact ih

theorem Held.calls {d : Dialogue α} {a : α} (h : Held d c uses a c') : c.Calls c' := by
  have hcalls := calls_runOn d c
  rw [h.runOn_eq] at hcalls
  exact hcalls

/-- What is written takes no frame. -/
theorem waiting_eq_of_write {w : Write} {r : Except ConnectError Unit}
    (h : (write w).on c = (r, c')) : c'.waiting = c.waiting := by
  cases w <;> exact Connection.waiting_eq_of_send h

/-- The frames that are used in a dialogue are the first ones waiting. -/
theorem Held.waiting_eq {d : Dialogue α} {a : α} (h : Held d c uses a c') :
    c.waiting = uses.map Use.frame ++ c'.waiting := by
  have hframes : ∀ (question : String) (default : Bool) (replies : List Frame),
      (replies.map (Use.answer question default)).map Use.frame = replies := by
    intro question default replies
    rw [List.map_map]
    exact List.map_id replies
  induction h with
  | done a c => rfl
  | write hwrite hnext ih => rw [← waiting_eq_of_write hwrite, ih]
  | confirm hask hnext ih =>
    rw [hask.waiting_eq, ih, List.map_append, hframes, List.append_assoc]

/-- Every dialogue comes to something. -/
theorem exists_held (d : Dialogue α) (c : Connection UnreliableQueue) :
    ∃ uses a c', Held d c uses a c' := by
  induction d generalizing c with
  | done a => exact ⟨_, _, _, .done a c⟩
  | write w next ih =>
    obtain ⟨uses, a, c', hnext⟩ := ih ((write w).on c).1 ((write w).on c).2
    exact ⟨_, _, _, .write rfl hnext⟩
  | confirm question default next ih =>
    obtain ⟨replies, r, d, hask⟩ := exists_asks question default c
    obtain ⟨uses, a, c', hnext⟩ := ih r d
    exact ⟨_, _, _, .confirm hask hnext⟩

/-! ## The processor -/

variable {p p' : Processor} {ending : Ending}

/-- With more lines than frames that are used, the processor keeps to its course. -/
theorem Course.runWithin_eq (h : Course p c uses ending p' c') {lines : Nat}
    (hlines : uses.length < lines) :
    p.runWithin interface lines c = ((ending.result, p'), c') := by
  obtain ⟨lines, rfl⟩ := Nat.exists_eq_add_one_of_ne_zero (Nat.ne_zero_of_lt hlines)
  induction h generalizing lines with
  | unread hawait =>
    rw [Processor.runWithin, readCommand_eq hawait]
    rfl
  | ended hawait =>
    rw [Processor.runWithin, readCommand_eq hawait]
    rfl
  | farewell hawait hf =>
    rw [Processor.runWithin, readCommand_eq hawait]
    simp [Except.map, hf, Ending.result]
  | quits hawait hf hline hquit =>
    rw [Processor.runWithin, readCommand_eq hawait]
    simp [Except.map, hf, hline.runOn_eq, Ending.result]
  | breaks hawait hf hline =>
    rw [Processor.runWithin, readCommand_eq hawait]
    simp [Except.map, hf, hline.runOn_eq, Ending.result]
  | goesOn hawait hf hline hrest ih =>
    rw [List.length_append, List.length_cons] at hlines
    obtain ⟨lines, rfl⟩ : ∃ n, lines = n + 1 := Nat.exists_eq_add_one_of_ne_zero (by omega)
    have hgoOn := ih lines (by omega)
    rw [Processor.runWithin, readCommand_eq hawait]
    simp [Except.map, hf, hline.runOn_eq, hgoOn]

/-- The frames that are used are the first ones waiting. -/
theorem Course.waiting_eq (h : Course p c uses ending p' c') :
    c.waiting = uses.map Use.frame ++ c'.waiting := by
  induction h with
  | unread hawait => exact waiting_eq_of_await hawait
  | ended hawait => exact waiting_eq_of_await hawait
  | farewell hawait hf => exact waiting_eq_of_await hawait
  | quits hawait hf hline hquit =>
    rw [waiting_eq_of_await hawait, hline.waiting_eq]
    rfl
  | breaks hawait hf hline =>
    rw [waiting_eq_of_await hawait, hline.waiting_eq]
    rfl
  | goesOn hawait hf hline hrest ih =>
    rw [waiting_eq_of_await hawait, hline.waiting_eq, ih, List.map_append, List.append_assoc]
    rfl

/-- The processor keeps to its course. -/
theorem Course.run_eq (h : Course p c uses ending p' c') :
    p.run interface c = ((ending.result, p'), c') := by
  have hbacklog : interface.backlog c = c.waiting.length := rfl
  have hlines : uses.length < c.waiting.length + 1 := by
    rw [h.waiting_eq, List.length_append, List.length_map]
    omega
  rw [Processor.run, hbacklog]
  exact h.runWithin_eq hlines

/-- A command line leaves the commands as they are. -/
theorem Held.commands_eq {line : String} {r : Except ConnectError Flow}
    (h : Held (p.executeLine line) c uses (r, p') c') : p'.commands = p.commands := by
  have hself := (p.executeLine_yields_self line).runOn interface c
  rw [h.runOn_eq] at hself
  exact hself.2

/-- A command line that quits may do so. -/
theorem Held.mayQuit {line : String} (hcommands : p.commands = .ofList builtinCommands)
    (h : Held (p.executeLine line) c uses (.ok .quit, p') c') : MayQuit p line c := by
  obtain ⟨args, hruns, hreason⟩ :=
    Processor.executeLine_quit hcommands (c := c) (congrArg (fun r => r.1.1) h.runOn_eq)
  rcases hreason with hforced | hunasked | hsure
  · exact ⟨args, hruns, .inl hforced⟩
  · exact ⟨args, hruns, .inr (.inl hunasked)⟩
  · obtain ⟨replies, r, d, hask⟩ := exists_asks "Really quit?" false c
    have hr : r = .ok true := by
      rw [← hsure, hask.confirm_eq]
    rw [hr] at hask
    exact ⟨args, hruns, .inr (.inr ⟨replies, d, hask⟩)⟩

/-- A processor that stops because of the connection leaves it disconnected. -/
theorem Course.state_eq (h : Course p c uses ending p' c')
    (hcommands : p.commands = .ofList builtinCommands) (hc : c.state ≠ .closing)
    {e : ConnectError} (hbroken : ending = .broken e) : c'.state = .disconnected := by
  induction h with
  | unread hawait =>
    exact Connection.state_eq_disconnected ((calls_of_await hawait).ne_closing hc)
      (not_connected_of_await hawait)
  | ended _ => cases hbroken
  | farewell _ _ => cases hbroken
  | quits _ _ _ _ => cases hbroken
  | breaks hawait _ hline =>
    exact Connection.state_eq_disconnected
      (((calls_of_await hawait).trans hline.calls).ne_closing hc)
      (Processor.not_connected_of_executeLine hcommands hline.runOn_eq)
  | goesOn hawait _ hline _ ih =>
    exact ih (hline.commands_eq.trans hcommands)
      (((calls_of_await hawait).trans hline.calls).ne_closing hc) hbroken

/-- Every processor stops at last. -/
theorem exists_course (hcommands : p.commands = .ofList builtinCommands)
    (c : Connection UnreliableQueue) : ∃ uses ending p' c', Course p c uses ending p' c' := by
  -- the induction is on the frames that wait, of which each command line takes one
  induction hn : c.waiting.length using Nat.strongRecOn generalizing p c with
  | ind n ih =>
    rcases hawait : awaitLine p c with ⟨e | _ | f, d⟩
    · exact ⟨_, _, _, _, .unread hawait⟩
    · exact ⟨_, _, _, _, .ended hawait⟩
    · by_cases hf : f.role? = some .quit
      · exact ⟨_, _, _, _, .farewell hawait hf⟩
      · obtain ⟨uses, ⟨e | _ | _, q⟩, d', hline⟩ :=
          exists_held (p.executeLine (Text.stripLineEnd f.payload)) d
        · exact ⟨_, _, _, _, .breaks hawait hf hline⟩
        · have hfewer : d'.waiting.length < n := by
            rw [← hn, waiting_eq_of_await hawait, hline.waiting_eq, List.length_append,
              List.length_append]
            show _ < 1 + _
            omega
          obtain ⟨rest, ending, p', c', hrest⟩ :=
            ih _ hfewer (hline.commands_eq.trans hcommands) d' rfl
          exact ⟨_, _, _, _, .goesOn hawait hf hline hrest⟩
        · exact ⟨_, _, _, _, .quits hawait hf hline (hline.mayQuit hcommands)⟩

/-- The debugger's end survives any front end. For a processor with the built-in commands, whatever
the settings, the program and the prompt, and over a queue of any frames whose sends fail in any
pattern: there is a course that comes to an end, and the processor keeps to it. The frames that it
has taken are the first ones that waited, each with its one use. It returns without a failure if a
command line has quit that may do so, or if the front end has left or the stream has ended in place
of a command line; it returns with a failure otherwise, and the connection is disconnected then. -/
theorem run_survives (settings : Settings) (debuggee : Debuggee) (prompt : String)
    {c : Connection UnreliableQueue} (hc : c.state ≠ .closing) :
    let p := { Processor.new settings debuggee with prompt }
    (∃ uses ending p' c', Course p c uses ending p' c') ∧
      ∀ uses ending p' c', Course p c uses ending p' c' →
        p.run interface c = ((ending.result, p'), c') ∧
          c.waiting = uses.map Use.frame ++ c'.waiting ∧
          ∀ e, ending = .broken e → c'.state = .disconnected := by
  intro p
  have hcommands : p.commands = .ofList builtinCommands := rfl
  refine ⟨exists_course hcommands c, fun uses ending p' c' h => ?_⟩
  exact ⟨h.run_eq, h.waiting_eq, fun e he => h.state_eq hcommands hc he⟩

/-- A processor that knows nothing about the program, with a short prompt. -/
def fresh : Processor := { Processor.new Settings.initial Debuggee.unknown with prompt := "> " }

/-- A front end that asks to quit, hesitates and is sure then, with a frame behind, over a queue that
refuses frames in a pattern. -/
def quitting (refusals : Nat → Bool) : Connection UnreliableQueue :=
  ⟨⟨⟨[.reply "quit", .reply "well", .reply "y", .reply "help"], [], true, 1, false, false⟩,
    refusals⟩, .connected, none⟩

/-- If nothing is refused, the frame behind is left, and the processor returns without a failure. If
the insistence on an answer is refused, the connection is lost before the front end is sure. -/
theorem run_survives_quitting :
    (∃ uses ending p' c', Course fresh (quitting fun _ => false) uses ending p' c' ∧
      ending.result = .ok () ∧ c'.waiting = [.reply "help"] ∧
      uses.map Use.frame = [.reply "quit", .reply "well", .reply "y"]) ∧
    ∃ uses e p' c', Course fresh (quitting (· == 2)) uses (.broken e) p' c' ∧
      c'.state = .disconnected ∧ uses.map Use.frame = [.reply "quit", .reply "well"] := by
  have hall := fun refusals =>
    run_survives Settings.initial Debuggee.unknown "> " (c := quitting refusals) nofun
  constructor
  · obtain ⟨⟨uses, ending, p', c', hcourse⟩, hcourses⟩ := hall fun _ => false
    obtain ⟨hrun, hwaiting, -⟩ := hcourses _ _ _ _ hcourse
    have hrun : fresh.run interface (quitting fun _ => false) = ((ending.result, p'), c') := hrun
    have hresult : (fresh.run interface (quitting fun _ => false)).1.1 = .ok () := by
      decide +kernel
    have hleft : (fresh.run interface (quitting fun _ => false)).2.waiting = [.reply "help"] := by
      decide +kernel
    rw [hrun] at hresult hleft
    have hleft : c'.waiting = [.reply "help"] := hleft
    rw [hleft] at hwaiting
    exact ⟨uses, ending, p', c', hcourse, hresult, hleft, List.append_cancel_right hwaiting.symm⟩
  · obtain ⟨⟨uses, ending, p', c', hcourse⟩, hcourses⟩ := hall (· == 2)
    obtain ⟨hrun, hwaiting, hlost⟩ := hcourses _ _ _ _ hcourse
    have hrun : fresh.run interface (quitting (· == 2)) = ((ending.result, p'), c') := hrun
    have hresult : (fresh.run interface (quitting (· == 2))).1.1 =
        .error (.io ⟨.brokenPipe, "broken"⟩) := by decide +kernel
    have hleft : (fresh.run interface (quitting (· == 2))).2.waiting =
        [.reply "y", .reply "help"] := by decide +kernel
    rw [hrun] at hresult hleft
    have hleft : c'.waiting = [.reply "y", .reply "help"] := hleft
    rw [hleft] at hwaiting
    cases ending with
    | broken e =>
      exact ⟨uses, e, p', c', hcourse, hlost e rfl, List.append_cancel_right hwaiting.symm⟩
    | _ => cases hresult

end

end Server

end BytecodeDebugger
