import BytecodeDebugger.Processor
import BytecodeDebugger.Proofs.Connect.QueueConnection
import BytecodeDebugger.Proofs.Session.Machine
import BytecodeDebugger.Session.Server

/-!
# The debugger's end, call by call

A processor that talks to a front end, and says goodbye at last, as a machine. Each step makes at
most one call on the connection, so a front end can act between any two calls. Left alone with the
frames that wait in its queue, the machine comes to what the processor comes to.

Main facts: `call_step` (a step makes at most one call), `runs_talking` (a command line is executed)
and `runs_run` (all command lines are executed, then the front end is let go).
-/

namespace BytecodeDebugger.Server

/-- The execution of a command line: what it comes to, and the processor after it. -/
abbrev Execution := Dialogue (Except ConnectError Flow × Processor)

/-- Where the debugger's end stands between two calls. -/
inductive Point where
  /-- The prompt is shown next. -/
  | prompting (p : Processor)
  /-- A command line is awaited. -/
  | expecting (p : Processor)
  /-- A command line is being executed. -/
  | talking (d : Execution)
  /-- The answer to a question is awaited. -/
  | waiting (question : String) (default : Bool) (next : Except ConnectError Bool → Execution)
  /-- The answer was neither yes nor no, which is said next. -/
  | insisting (question : String) (default : Bool) (next : Except ConnectError Bool → Execution)
  /-- The processor has stopped, and the front end is told next. -/
  | leaving (r : Except ConnectError Unit × Processor)
  /-- The front end has been told, and the connection is closed next. -/
  | closing (r : Except ConnectError Unit × Processor)
  | ended (r : Except ConnectError Unit × Processor)

namespace Point

/-- Whether the next call receives a frame. -/
def receives : Point → Bool
  | .expecting _ | .waiting _ _ _ => true
  | _ => false

/-- The request whose answer is awaited. -/
def pending? : Point → Option Frame
  | .expecting p => some (.ofRole .prompt (p.prompt ++ "\n"))
  | .waiting question default _ => some (.ofRole (.confirm default) (question ++ "\n"))
  | _ => none

end Point

variable {τ : Type} [Transport τ]

/-- The next step of the debugger's end. -/
def step : Point × Connection τ → Point × Connection τ
  | (.prompting p, c) =>
    if p.prompt.isEmpty then (.expecting p, c)
    else
      match c.writeLine .prompt p.prompt with
      | (.ok (), c) => (.expecting p, c)
      | (.error e, c) => (.leaving (.error e, p), c)
  | (.expecting p, c) =>
    match receiveLine.on c with
    | (.error e, c) => (.leaving (.error e, p), c)
    | (.ok none, c) => (.leaving (.ok (), p), c)
    | (.ok (some line), c) => (.talking (p.executeLine line), c)
  | (.talking (.done (.error e, p)), c) => (.leaving (.error e, p), c)
  | (.talking (.done (.ok .quit, p)), c) => (.leaving (.ok (), p), c)
  | (.talking (.done (.ok .goOn, p)), c) => (.prompting p, c)
  | (.talking (.write w next), c) =>
    let (r, c) := (write w).on c
    (.talking (next r), c)
  | (.talking (.confirm question default next), c) =>
    match c.writeLine (.confirm default) question with
    | (.ok (), c) => (.waiting question default next, c)
    | (.error e, c) => (.talking (next (.error e)), c)
  | (.waiting question default next, c) =>
    match receiveLine.on c with
    | (.error e, c) => (.talking (next (.error e)), c)
    | (.ok none, c) => (.talking (next (.ok default)), c)
    | (.ok (some reply), c) =>
      match answer? reply with
      | some b => (.talking (next (.ok b)), c)
      | none => (.insisting question default next, c)
  | (.insisting question default next, c) =>
    match (say "Please answer y or n.").on c with
    | (.ok (), c) => (.talking (.confirm question default next), c)
    | (.error e, c) => (.talking (next (.error e)), c)
  | (.leaving r, c) =>
    if c.isConnected then (.closing r, (c.writeLine .quit "").2) else (.ended r, c)
  | (.closing r, c) => (.ended r, c.close)
  | (.ended r, c) => (.ended r, c)

/-- A step makes at most one call. -/
theorem call_step (s : Point × Connection τ) : Connection.Call s.2 (step s).2 := by
  obtain ⟨point, c⟩ := s
  have hsend : ∀ role text, Connection.Call c (c.writeLine role text).2 := fun role text => .send _
  have hreceive : Connection.Call c (receiveLine.on c).2 := by
    have h : Connection.Call c c.receive.2 := .receive
    rw [receiveLine_on]
    rcases hr : c.receive with ⟨e | _ | f, c'⟩ <;> rw [hr] at h <;> exact h
  cases point with
  | prompting p =>
    have hw := hsend .prompt p.prompt
    dsimp only [step]
    split
    · exact .nothing
    · rcases h : c.writeLine .prompt p.prompt with ⟨e | _, c'⟩ <;> rw [h] at hw <;> exact hw
  | expecting p =>
    dsimp only [step]
    rcases h : receiveLine.on c with ⟨e | _ | line, c'⟩ <;> rw [h] at hreceive <;> exact hreceive
  | talking d =>
    cases d with
    | done a => rcases a with ⟨e | _ | _, p⟩ <;> exact .nothing
    | write w next => cases w <;> exact .send _
    | confirm question default next =>
      have hw := hsend (.confirm default) question
      dsimp only [step]
      rcases h : c.writeLine (.confirm default) question with ⟨e | _, c'⟩ <;> rw [h] at hw <;>
        exact hw
  | waiting question default next =>
    dsimp only [step]
    rcases h : receiveLine.on c with ⟨e | _ | reply, c'⟩ <;> rw [h] at hreceive
    · exact hreceive
    · exact hreceive
    · dsimp only
      cases answer? reply <;> exact hreceive
  | insisting question default next =>
    have hs : Connection.Call c ((say "Please answer y or n.").on c).2 := .send _
    dsimp only [step]
    rcases h : (say "Please answer y or n.").on c with ⟨e | _, c'⟩ <;> rw [h] at hs <;> exact hs
  | leaving r =>
    dsimp only [step]
    split
    · exact hsend .quit ""
    · exact .nothing
  | closing r => exact .close
  | ended r => exact .nothing

/-! ## Left alone -/

variable {c : Connection QueueTransport}

theorem incoming_say (text : String) :
    ((say text).on c).2.transport.incoming = c.transport.incoming :=
  Connection.incoming_send _

/-- A line that is received is taken off the queue. -/
theorem incoming_lt_of_receiveLine {line : String} {c' : Connection QueueTransport}
    (h : receiveLine.on c = (.ok (some line), c')) :
    c'.transport.incoming.length < c.transport.incoming.length := by
  rw [receiveLine_on] at h
  rcases hr : c.receive with ⟨e | _ | f, c''⟩
  · rw [hr] at h
    simp at h
  · rw [hr] at h
    simp at h
  · rw [hr] at h
    obtain ⟨-, rfl⟩ := Prod.mk.inj h
    rw [Connection.incoming_eq_of_receive hr, List.length_cons]
    exact Nat.lt_succ_self _

/-- Asking a question once, and what comes of it. -/
theorem confirmWithin_succ_on (question : String) (default : Bool) (attempts : Nat)
    (c : Connection τ) :
    (confirmWithin question default (attempts + 1)).on c =
      match c.writeLine (.confirm default) question with
      | (.error e, c) => (.error e, c)
      | (.ok (), c) =>
        match receiveLine.on c with
        | (.error e, c) => (.error e, c)
        | (.ok none, c) => (.ok default, c)
        | (.ok (some reply), c) =>
          match answer? reply with
          | some b => (.ok b, c)
          | none =>
            match (say "Please answer y or n.").on c with
            | (.error e, c) => (.error e, c)
            | (.ok (), c) => (confirmWithin question default attempts).on c := by
  rw [confirmWithin, Action.on_bind, Action.on_of]
  rcases c.writeLine (.confirm default) question with ⟨e | _, c⟩
  · rfl
  · dsimp only
    rw [Action.on_bind]
    rcases receiveLine.on c with ⟨e | _ | reply, c⟩
    · rfl
    · rfl
    · dsimp only
      cases answer? reply with
      | some b => rfl
      | none =>
        dsimp only
        rw [Action.on_bind]
        rcases (say "Please answer y or n.").on c with ⟨e | _, c⟩ <;> rfl

/-- Asked for a yes or no within as many attempts as there are frames, and one more, the machine
comes to the same answer. -/
theorem runs_confirmWithin (question : String) (default : Bool)
    (next : Except ConnectError Bool → Execution) {attempts : Nat}
    {c : Connection QueueTransport} (h : c.transport.incoming.length < attempts) :
    Runs step (.talking (.confirm question default next), c)
      (.talking (next ((confirmWithin question default attempts).on c).1),
        ((confirmWithin question default attempts).on c).2) := by
  induction attempts generalizing c with
  | zero => exact absurd h (Nat.not_lt_zero _)
  | succ attempts ih =>
    rw [confirmWithin_succ_on]
    apply Runs.head
    have hwrite : (c.writeLine (.confirm default) question).2.transport.incoming =
        c.transport.incoming := Connection.incoming_send _
    simp only [step]
    rcases hw : c.writeLine (.confirm default) question with ⟨e | _, c₁⟩
    · exact .refl
    · rw [hw] at hwrite
      apply Runs.head
      simp only [step]
      rcases hr : receiveLine.on c₁ with ⟨e | _ | reply, c₂⟩
      · exact .refl
      · exact .refl
      · have hfewer := incoming_lt_of_receiveLine hr
        rw [hwrite] at hfewer
        -- asking again takes one attempt less, as the reply has left the queue
        cases hanswer : answer? reply with
        | some b => simp only [hanswer]; exact .refl
        | none =>
          simp only [hanswer]
          apply Runs.head
          have hsay := incoming_say (c := c₂) "Please answer y or n."
          simp only [step]
          rcases hs : (say "Please answer y or n.").on c₂ with ⟨e | _, c₃⟩
          · exact .refl
          · rw [hs] at hsay
            exact ih (by rw [hsay]; omega)

/-- A run queues no frame. -/
theorem length_incoming_le_of_runs {s s' : Point × Connection QueueTransport}
    (h : Runs step s s') : s'.2.transport.incoming.length ≤ s.2.transport.incoming.length := by
  induction h with
  | refl => exact Nat.le_refl _
  | tail _ hstep ih =>
    rw [← hstep]
    exact Nat.le_trans (call_step _).length_incoming_le ih

/-- The interface asks a question as often as there are frames, and once more. -/
theorem runOn_confirm (question : String) (default : Bool)
    (next : Except ConnectError Bool → Execution) (c : Connection QueueTransport) :
    (Dialogue.confirm question default next).runOn interface c =
      (next ((confirmWithin question default (c.transport.incoming.length + 1)).on c).1).runOn
        interface ((confirmWithin question default (c.transport.incoming.length + 1)).on c).2 := by
  have hbacklog : Transport.backlog c.transport = c.transport.incoming.length := rfl
  have hask : interface.confirm question default c = (confirm question default).on c := rfl
  rw [Dialogue.runOn, hask, confirm, Action.on_of, hbacklog]

/-- The machine holds a dialogue as the interface does. -/
theorem runs_talking (d : Execution) (c : Connection QueueTransport) :
    Runs step (.talking d, c)
      (.talking (.done (d.runOn interface c).1), (d.runOn interface c).2) := by
  induction d generalizing c with
  | done a => exact .refl
  | write w next ih => exact .head (ih _ _)
  | confirm question default next ih =>
    have hask := runs_confirmWithin question default next
      (Nat.lt_succ_self c.transport.incoming.length)
    rw [runOn_confirm]
    exact hask.trans (ih _ _)

/-- What the processor does with a command line, or with what there is in place of one. -/
def carryOn (lines : Nat) (p : Processor) :
    Except ConnectError (Option String) × Connection QueueTransport →
      (Except ConnectError Unit × Processor) × Connection QueueTransport
  | (.error e, c) => ((.error e, p), c)
  | (.ok none, c) => ((.ok (), p), c)
  | (.ok (some line), c) =>
    match (p.executeLine line).runOn interface c with
    | ((.error e, p), c) => ((.error e, p), c)
    | ((.ok .quit, p), c) => ((.ok (), p), c)
    | ((.ok .goOn, p), c) => p.runWithin interface lines c

/-- The processor reads a line and carries on with it. -/
theorem runWithin_succ (lines : Nat) (p : Processor) (c : Connection QueueTransport) :
    p.runWithin interface (lines + 1) c = carryOn lines p ((readLine p.prompt).on c) := by
  have hread : interface.readCommand p.prompt c = (readLine p.prompt).on c := rfl
  rw [Processor.runWithin, hread]
  rcases (readLine p.prompt).on c with ⟨e | _ | line, c⟩
  · rfl
  · rfl
  · simp only [carryOn]
    rcases (p.executeLine line).runOn interface c with ⟨⟨e | _ | _, p'⟩, c'⟩ <;> rfl

/-- An empty prompt is not shown. -/
theorem readLine_on (prompt : String) (c : Connection τ) :
    (readLine prompt).on c =
      if prompt.isEmpty then receiveLine.on c
      else
        match c.writeLine .prompt prompt with
        | (.error e, c) => (.error e, c)
        | (.ok (), c) => receiveLine.on c := by
  rw [readLine]
  cases prompt.isEmpty with
  | true => rfl
  | false =>
    show ((Action.of (Connection.writeLine .prompt prompt) : Action ConnectError (Connection τ) _)
      >>= fun _ => receiveLine).on c = _
    rw [Action.on_bind, Action.on_of]
    rcases c.writeLine .prompt prompt with ⟨e | _, c⟩ <;> rfl

/-- With as many lines as there are frames, and one more, the machine executes command lines as the
processor does. -/
theorem runs_runWithin {lines : Nat} {p : Processor} {c : Connection QueueTransport}
    (h : c.transport.incoming.length < lines) :
    Runs step (.prompting p, c)
      (.leaving (p.runWithin interface lines c).1, (p.runWithin interface lines c).2) := by
  induction lines generalizing p c with
  | zero => exact absurd h (Nat.not_lt_zero _)
  | succ lines ih =>
    -- once the prompt is shown, there is a line to receive and to carry on with
    have hexpect : ∀ c' : Connection QueueTransport,
        c'.transport.incoming = c.transport.incoming →
          Runs step (.expecting p, c')
            (.leaving (carryOn lines p (receiveLine.on c')).1,
              (carryOn lines p (receiveLine.on c')).2) := by
      intro c' hc'
      apply Runs.head
      simp only [step]
      rcases hr : receiveLine.on c' with ⟨e | _ | line, c₁⟩
      · exact .refl
      · exact .refl
      · have hfewer := incoming_lt_of_receiveLine hr
        rw [hc'] at hfewer
        have htalk := runs_talking (p.executeLine line) c₁
        -- what is asked on the way takes frames off the queue, and never adds one
        have hleft := length_incoming_le_of_runs htalk
        refine htalk.trans (.head ?_)
        simp only [carryOn]
        rcases hd : (p.executeLine line).runOn interface c₁ with ⟨⟨e | _ | _, p'⟩, c₂⟩
        · exact .refl
        · rw [hd] at hleft
          replace hleft : c₂.transport.incoming.length ≤ c₁.transport.incoming.length := hleft
          apply ih
          show c₂.transport.incoming.length < lines
          omega
        · exact .refl
    rw [runWithin_succ, readLine_on]
    apply Runs.head
    have hwrite : (c.writeLine .prompt p.prompt).2.transport.incoming = c.transport.incoming :=
      Connection.incoming_send _
    simp only [step]
    split
    · exact hexpect c rfl
    · rcases hw : c.writeLine .prompt p.prompt with ⟨e | _, c'⟩
      · exact .refl
      · rw [hw] at hwrite
        exact hexpect c' hwrite

/-- The front end is let go. -/
theorem runs_leaving (r : Except ConnectError Unit × Processor) (c : Connection τ) :
    Runs step (.leaving r, c) (.ended r, c.finalize .quit) := by
  apply Runs.head
  simp only [step, Connection.finalize]
  split
  · exact .head .refl
  · exact .refl

/-- The machine comes to what the processor comes to with a front end that it lets go at last. -/
theorem runs_run (p : Processor) (c : Connection QueueTransport) :
    Runs step (.prompting p, c)
      (.ended (p.run interface c).1, (p.run interface c).2.finalize .quit) :=
  (runs_runWithin (Nat.lt_succ_self _)).trans (runs_leaving _ _)

/-! ## Frames queued behind the others -/

/-- Receiving a line is the same with further frames, unless the queue is at its end. -/
theorem receiveLine_push (h : c.transport.incoming ≠ []) (frames : List Frame) :
    receiveLine.on (c.push frames) = ((receiveLine.on c).1, (receiveLine.on c).2.push frames) := by
  rw [receiveLine_on, receiveLine_on, Connection.receive_push h]
  rcases c.receive with ⟨e | _ | f, c'⟩ <;> rfl

/-- A step is the same with further frames, unless it comes to the end of the queue. -/
theorem step_push {point : Point} (h : point.receives = true → c.transport.incoming ≠ [])
    (frames : List Frame) :
    step (point, c.push frames) = ((step (point, c)).1, (step (point, c)).2.push frames) := by
  -- only a point that receives looks at the queue, and it has a frame to take
  have hsend : ∀ role text, (c.push frames).writeLine role text =
      ((c.writeLine role text).1, (c.writeLine role text).2.push frames) :=
    fun role text => Connection.send_push c _ frames
  cases point with
  | prompting p =>
    dsimp only [step]
    rw [hsend]
    split
    · rfl
    · rcases c.writeLine .prompt p.prompt with ⟨e | _, c'⟩ <;> rfl
  | expecting p =>
    dsimp only [step]
    rw [receiveLine_push (h rfl)]
    rcases receiveLine.on c with ⟨e | _ | line, c'⟩ <;> rfl
  | talking d =>
    cases d with
    | done a => rcases a with ⟨e | _ | _, p⟩ <;> rfl
    | write w next =>
      have hwrite : (write w).on (c.push frames) =
          (((write w).on c).1, ((write w).on c).2.push frames) := by
        cases w <;> exact Connection.send_push c _ frames
      dsimp only [step]
      rw [hwrite]
    | confirm question default next =>
      dsimp only [step]
      rw [hsend]
      rcases c.writeLine (.confirm default) question with ⟨e | _, c'⟩ <;> rfl
  | waiting question default next =>
    dsimp only [step]
    rw [receiveLine_push (h rfl)]
    rcases receiveLine.on c with ⟨e | _ | reply, c'⟩
    · rfl
    · rfl
    · dsimp only
      cases answer? reply <;> rfl
  | insisting question default next =>
    have hsay : (say "Please answer y or n.").on (c.push frames) =
        (((say "Please answer y or n.").on c).1,
          ((say "Please answer y or n.").on c).2.push frames) :=
      hsend .print "Please answer y or n."
    dsimp only [step]
    rw [hsay]
    rcases (say "Please answer y or n.").on c with ⟨e | _, c'⟩ <;> rfl
  | leaving r =>
    dsimp only [step]
    rw [Connection.isConnected_push, hsend]
    split <;> rfl
  | closing r => exact congrArg (Prod.mk _) (Connection.close_push c frames)
  | ended r => rfl

end BytecodeDebugger.Server
