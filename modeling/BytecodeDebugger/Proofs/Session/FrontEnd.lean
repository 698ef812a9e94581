import BytecodeDebugger.Proofs.Connect.QueueConnection
import BytecodeDebugger.Proofs.Session.Machine
import BytecodeDebugger.Session.Client

/-!
# The front end, call by call

A front end as a machine. Each step makes at most one call on the connection; what the user sees and
answers comes with the call before it. Left alone with the frames that wait in its queue, the
machine comes to what the front end comes to.

Main facts: `call_step` (a step makes at most one call), `runs_advance` (a frame is handled) and
`runs_run` (frames are handled until the session ends).
-/

namespace BytecodeDebugger.Client

variable {τ α β : Type}

/-! ## Actions that leave the connection alone -/

/-- The action does the same with any connection, and leaves it as it is. -/
def IsLocal (a : Step τ α) : Prop :=
  ∀ (c : Client τ) (connection : Connection τ),
    a.on { c with connection } = ((a.on c).1, { (a.on c).2 with connection })

/-- One local action after another is local. -/
theorem IsLocal.bind {a : Step τ α} {f : α → Step τ β} (ha : IsLocal a) (hf : ∀ x, IsLocal (f x)) :
    IsLocal (a >>= f) := by
  intro c connection
  rw [Action.on_bind, Action.on_bind, ha c connection]
  rcases a.on c with ⟨e | x, c'⟩
  · rfl
  · exact hf x c' connection

theorem isLocal_pure (x : α) : IsLocal (pure x : Step τ α) := fun _ _ => rfl

theorem isLocal_view (piece : String) : IsLocal (view piece : Step τ Unit) := fun _ _ => rfl

/-- On a screen without a limit, everything is shown. -/
theorem view_on {c : Client τ} (piece : String)
    (h : c.screen.limit = none) :
    (view piece).on c = (.ok (), { c with screen := ⟨c.screen.text ++ piece, none⟩ }) := by
  obtain ⟨connection, input, text, limit⟩ := c
  cases h
  rfl

/-- Taking a line of the input is local. -/
theorem isLocal_nextLine : IsLocal (nextLine : Step τ (Option String)) := by
  intro c connection
  simp only [nextLine, Action.on_of]
  rcases takeLine c.input with ⟨_ | ⟨b, line⟩, rest⟩
  · rfl
  · dsimp only
    cases Text.ofUtf8? (b :: line) <;> rfl

/-- Shows a prompt and takes a line. -/
def readPrompted (f : Frame) : Step τ (Option String) := do
  view (promptText f)
  nextLine

/-- Shows a question and takes a line, or the word for the default at the end of the input. -/
def choose (f : Frame) (default : Bool) : Step τ String := do
  view (promptText f)
  view " (y or n) "
  match ← nextLine with
  | some line => return line
  | none =>
    let word := if default then "y" else "n"
    view word
    view "\n"
    return word

theorem isLocal_readPrompted (f : Frame) : IsLocal (readPrompted f : Step τ (Option String)) :=
  (isLocal_view _).bind fun _ => isLocal_nextLine

/-- Choosing an answer is local. -/
theorem isLocal_choose (f : Frame) (default : Bool) :
    IsLocal (choose f default : Step τ String) := by
  refine (isLocal_view _).bind fun _ => (isLocal_view _).bind fun _ => isLocal_nextLine.bind ?_
  intro line?
  cases line? with
  | some line => exact isLocal_pure line
  | none => exact (isLocal_view _).bind fun _ => (isLocal_view _).bind fun _ => isLocal_pure _

/-! ## The machine -/

/-- Where a front end stands between two calls. -/
inductive Point where
  /-- A frame is awaited. -/
  | listening
  /-- An answer is sent next. -/
  | answering (text : String)
  /-- The input has ended at a prompt, and the debugger is told next. -/
  | leaving
  /-- The connection is closed next. -/
  | closing (exit : ClientExit)
  | ended (r : Except ClientError ClientExit)

/-- Whether the next call receives a frame. -/
def Point.receives : Point → Bool
  | .listening => true
  | _ => false

/-- Goes on with what an action yields, if it does not fail. -/
def goOn (next : α → Point) : Except ClientError α × Client τ → Point × Client τ
  | (.error e, c) => (.ended (.error e), c)
  | (.ok x, c) => (next x, c)

/-- What a frame makes of a front end. -/
def react (f : Frame) (c : Client τ) : Point × Client τ :=
  match f.role? with
  | none => (.listening, c)
  | some .print => goOn (fun _ => .listening) ((view f.payload).on c)
  | some .prompt =>
    goOn (fun line? => match line? with | some line => .answering line | none => .leaving)
      ((readPrompted f).on c)
  | some .confirmTrue => goOn .answering ((choose f true).on c)
  | some .confirmFalse => goOn .answering ((choose f false).on c)
  | some .quit => (.closing .serverQuit, c)

/-- A frame makes the same of a front end with any connection. -/
theorem react_withConnection (f : Frame) (c : Client τ) (connection : Connection τ) :
    react f { c with connection } = ((react f c).1, { (react f c).2 with connection }) := by
  have hgoOn : ∀ {α : Type} {a : Step τ α} (next : α → Point), IsLocal a →
      goOn next (a.on { c with connection }) =
        ((goOn next (a.on c)).1, { (goOn next (a.on c)).2 with connection }) := by
    intro α a next ha
    rw [ha c connection]
    rcases a.on c with ⟨e | x, c'⟩ <;> rfl
  unfold react
  rcases f.role? with _ | role
  · rfl
  · cases role with
    | print => exact hgoOn _ (isLocal_view _)
    | prompt => exact hgoOn _ (isLocal_readPrompted f)
    | confirmTrue => exact hgoOn _ (isLocal_choose f true)
    | confirmFalse => exact hgoOn _ (isLocal_choose f false)
    | quit => rfl

theorem connection_react (f : Frame) (c : Client τ) : (react f c).2.connection = c.connection :=
  congrArg (fun r => r.2.connection) (react_withConnection f c c.connection)

variable [Transport τ]

/-- The next step of a front end. -/
def step : Point × Client τ → Point × Client τ
  | (.listening, c) =>
    match receive.on c with
    | (.error e, c) => (.ended (.error e), c)
    | (.ok none, c) => (.ended (.ok .disconnected), c)
    | (.ok (some f), c) => react f c
  | (.answering text, c) => goOn (fun _ => .listening) ((reply text).on c)
  | (.leaving, c) =>
    if c.connection.isConnected then
      (.closing .inputClosed, { c with connection := (c.connection.writeLine .quit "").2 })
    else (.ended (.ok .inputClosed), c)
  | (.closing exit, c) => (.ended (.ok exit), { c with connection := c.connection.close })
  | (.ended r, c) => (.ended r, c)

/-- What receiving a frame does, in terms of the connection. -/
theorem receive_on (c : Client τ) :
    receive.on c =
      (c.connection.receive.1.mapError .connect,
        { c with connection := c.connection.receive.2 }) := by
  rw [receive, Action.on_of]
  rcases c.connection.receive with ⟨e | f?, connection⟩ <;> rfl

/-- A step makes at most one call. -/
theorem call_step (s : Point × Client τ) :
    Connection.Call s.2.connection (step s).2.connection := by
  obtain ⟨point, c⟩ := s
  cases point with
  | listening =>
    have hreceive : Connection.Call c.connection c.connection.receive.2 := .receive
    dsimp only [step]
    rw [receive_on]
    rcases hr : c.connection.receive with ⟨e | _ | f, connection⟩ <;> rw [hr] at hreceive
    · exact hreceive
    · exact hreceive
    · show Connection.Call c.connection (react f { c with connection }).2.connection
      rw [connection_react]
      exact hreceive
  | answering text =>
    have hsend : Connection.Call c.connection (c.connection.send (.reply text)).2 := .send _
    dsimp only [step, reply, Action.on_of]
    rcases hr : c.connection.send (.reply text) with ⟨e | _, connection⟩ <;> rw [hr] at hsend <;>
      exact hsend
  | leaving =>
    dsimp only [step]
    split
    · exact .send _
    · exact .nothing
  | closing exit => exact .close
  | ended r => exact .nothing

/-! ## Left alone -/

/-- The point after a frame was handled. -/
def settle : Option ClientExit → Point
  | some exit => .ended (.ok exit)
  | none => .listening

/-- A question is answered with what is chosen. -/
theorem answer_eq (f : Frame) (default : Bool) :
    (answer f default : Step τ Unit) = choose f default >>= reply := by
  simp only [answer, choose, bind_assoc]
  congr 1
  funext _
  congr 1
  funext _
  congr 1
  funext line?
  cases line? with
  | some line => simp only [pure_bind]
  | none => simp only [bind_assoc, pure_bind]

/-- The machine answers a question. -/
theorem runs_answer (f : Frame) (default : Bool) (c : Client τ) :
    Runs step (goOn .answering ((choose f default).on c))
      (goOn (fun _ => .listening) ((answer f default).on c)) := by
  rw [answer_eq, Action.on_bind]
  rcases (choose f default).on c with ⟨e | text, c'⟩
  · exact .refl
  · exact .head .refl

/-- The machine lets the debugger go. -/
theorem runs_leaving (c : Client τ) :
    Runs step (.leaving, c)
      (.ended (.ok .inputClosed), { c with connection := c.connection.finalize .quit }) := by
  apply Runs.head
  simp only [step, Connection.finalize]
  split
  · exact .head .refl
  · exact .refl

/-- The machine handles a frame as the front end does. -/
theorem runs_handle (f : Frame) (c : Client τ) :
    Runs step (react f c) (goOn settle ((handle f).on c)) := by
  unfold react handle
  rcases f.role? with _ | role
  · exact .refl
  · cases role with
    | print =>
      dsimp only
      rw [Action.on_bind]
      rcases (view f.payload).on c with ⟨e | _, c'⟩ <;> exact .refl
    | prompt =>
      dsimp only
      rw [← bind_assoc]
      show Runs step _ (goOn settle ((readPrompted f >>= _).on c))
      rw [Action.on_bind]
      rcases (readPrompted f).on c with ⟨e | _ | line, c'⟩
      · exact .refl
      · exact runs_leaving c'
      · apply Runs.head
        dsimp only [goOn, step]
        rw [Action.on_bind]
        rcases (reply line).on c' with ⟨e | _, c''⟩ <;> exact .refl
    | confirmTrue =>
      dsimp only
      rw [Action.on_bind]
      refine (runs_answer f true c).trans ?_
      rcases (answer f true).on c with ⟨e | _, c'⟩ <;> exact .refl
    | confirmFalse =>
      dsimp only
      rw [Action.on_bind]
      refine (runs_answer f false c).trans ?_
      rcases (answer f false).on c with ⟨e | _, c'⟩ <;> exact .refl
    | quit => exact .head .refl

/-- The machine handles the next frame, or finds the end of the stream. -/
theorem runs_advance (c : Client τ) :
    Runs step (.listening, c) (goOn settle (advance.on c)) := by
  rw [advance, Action.on_bind]
  apply Runs.head
  dsimp only [step]
  rcases receive.on c with ⟨e | _ | f, c'⟩
  · exact .refl
  · exact .refl
  · exact runs_handle f c'

/-- Handling frames one after the other. -/
theorem runWithin_succ_on (frames : Nat) (c : Client τ) :
    (runWithin (frames + 1)).on c =
      match advance.on c with
      | (.error e, c) => (.error e, c)
      | (.ok (some exit), c) => (.ok (some exit), c)
      | (.ok none, c) => (runWithin frames).on c := by
  rw [runWithin, Action.on_bind]
  rcases advance.on c with ⟨e | _ | exit, c'⟩ <;> rfl

/-! ## On a queue -/

/-- A run queues no frame. -/
theorem length_incoming_le_of_runs {s s' : Point × Client QueueTransport} (h : Runs step s s') :
    s'.2.connection.transport.incoming.length ≤ s.2.connection.transport.incoming.length := by
  induction h with
  | refl => exact Nat.le_refl _
  | tail _ hstep ih =>
    rw [← hstep]
    exact Nat.le_trans (call_step _).length_incoming_le ih

/-- A front end that goes on has taken a frame off the queue. -/
theorem incoming_lt_of_advance {c c' : Client QueueTransport} (h : advance.on c = (.ok none, c')) :
    c'.connection.transport.incoming.length < c.connection.transport.incoming.length := by
  rw [advance, Action.on_bind, receive_on] at h
  rcases hr : c.connection.receive with ⟨e | _ | f, connection⟩ <;> rw [hr] at h
  · simp [Except.mapError] at h
  · simp [Except.mapError] at h
  · have hhandle : (handle f).on { c with connection } = (.ok none, c') := h
    have hruns := runs_handle f { c with connection }
    have hle := length_incoming_le_of_runs hruns
    rw [hhandle, connection_react] at hle
    rw [Connection.incoming_eq_of_receive hr, List.length_cons]
    exact Nat.lt_succ_of_le hle

/-- The point after the last frame. A stream that has ended ends the session. -/
def settleLast : Option ClientExit → Point
  | some exit => .ended (.ok exit)
  | none => .ended (.ok .disconnected)

/-- With as many frames as there are in the queue, and one more, the machine handles frames as the
front end does. -/
theorem runs_runWithin {frames : Nat} {c : Client QueueTransport}
    (h : c.connection.transport.incoming.length < frames) :
    Runs step (.listening, c) (goOn settleLast ((runWithin frames).on c)) := by
  induction frames generalizing c with
  | zero => exact absurd h (Nat.not_lt_zero _)
  | succ frames ih =>
    rw [runWithin_succ_on]
    refine (runs_advance c).trans ?_
    rcases ha : advance.on c with ⟨e | _ | exit, c'⟩
    · exact .refl
    · have hfewer := incoming_lt_of_advance ha
      -- a session that goes on has taken a frame, so one frame less is enough
      exact ih (by omega)
    · exact .refl

/-- The machine comes to what the front end comes to. -/
theorem runs_run (c : Client QueueTransport) :
    Runs step (.listening, c) (.ended (run.on c).1, (run.on c).2) := by
  have h := runs_runWithin (Nat.lt_succ_self c.connection.transport.incoming.length)
  have hbacklog : Transport.backlog c.connection.transport =
      c.connection.transport.incoming.length := rfl
  rw [run, Action.on_of, hbacklog]
  rcases hr : (runWithin (c.connection.transport.incoming.length + 1)).on c with
    ⟨e | _ | exit, c'⟩ <;> rw [hr] at h <;> exact h

/-! ## Frames queued behind the others -/

/-- The front end with further frames that arrive. -/
def push (c : Client QueueTransport) (frames : List Frame) : Client QueueTransport :=
  { c with connection := c.connection.push frames }

@[simp] theorem push_nil (c : Client QueueTransport) : c.push [] = c := by
  rw [push, Connection.push_nil]

theorem push_push (c : Client QueueTransport) (frames more : List Frame) :
    (c.push frames).push more = c.push (frames ++ more) := by
  simp only [push, Connection.push_push]

theorem react_push (f : Frame) (c : Client QueueTransport) (frames : List Frame) :
    react f (c.push frames) = ((react f c).1, (react f c).2.push frames) := by
  rw [push, react_withConnection, push, connection_react]

/-- A step is the same with further frames, unless it comes to the end of the queue. -/
theorem step_push {point : Point} {c : Client QueueTransport}
    (h : point.receives = true → c.connection.transport.incoming ≠ []) (frames : List Frame) :
    step (point, c.push frames) = ((step (point, c)).1, (step (point, c)).2.push frames) := by
  cases point with
  | listening =>
    have hpush := Connection.receive_push (h rfl) frames
    dsimp only [step]
    rw [receive_on, receive_on, push, hpush]
    rcases c.connection.receive with ⟨e | _ | f, connection⟩
    · rfl
    · rfl
    · exact react_push f { c with connection } frames
  | answering text =>
    have hpush := Connection.send_push c.connection (.reply text) frames
    dsimp only [step, reply, Action.on_of]
    rw [push, hpush]
    rcases c.connection.send (.reply text) with ⟨e | _, connection⟩ <;> rfl
  | leaving =>
    have hpush : (c.connection.push frames).writeLine .quit "" =
        ((c.connection.writeLine .quit "").1, (c.connection.writeLine .quit "").2.push frames) :=
      Connection.send_push c.connection _ frames
    dsimp only [step, push]
    rw [Connection.isConnected_push, hpush]
    split <;> rfl
  | closing exit =>
    dsimp only [step]
    rw [push, Connection.close_push]
    rfl
  | ended r => rfl

end BytecodeDebugger.Client
