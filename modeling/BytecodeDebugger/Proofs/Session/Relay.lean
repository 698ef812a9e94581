import BytecodeDebugger.Proofs.Connect.Parting
import BytecodeDebugger.Proofs.Session.Phases

/-!
# The front end against any debugger

A front end handles the frames that it finds in its queue, whoever sent them, until one of them ends
the session: the debugger quits, or prompts for a line when the user has none left. Up to there each
request is answered with the line of the user in its place, and after the last line each question is
answered as it suggests. Without such a frame the session ends with the queue.

Main facts: `handle_on` (what a frame makes of a front end), `Relayed.cons` (one frame more) and
`relayed_runWithin` (a session as a whole).
-/

namespace BytecodeDebugger

/-! ## Frames in front of a user -/

namespace Frame

/-- How the session ends at the frame, if it does, when the next line of the user is given. -/
def exit? (f : Frame) (line? : Option String) : Option ClientExit :=
  match f.role? with
  | some .quit => some .serverQuit
  | some .prompt => if line?.isSome then none else some .inputClosed
  | _ => none

/-- What the user sees of the frame when their next line is given. -/
def shown (f : Frame) (line? : Option String) : String :=
  match f.role? with
  | some .print => f.payload
  | some .prompt => Client.promptText f
  | some .confirmTrue => Client.questionText f true line?
  | some .confirmFalse => Client.questionText f false line?
  | some .quit | none => ""

/-- The answer that a question suggests. -/
def suggestion (f : Frame) : String := if f.role? = some .confirmTrue then "y" else "n"

/-- The lines of the user that are left behind the frame. -/
def leave (f : Frame) (lines : List String) : List String :=
  if f.isRequest then lines.tail else lines

variable {f : Frame} {lines : List String} {line? : Option String}

/-- A request at which the session goes on is answered with a reply. -/
theorem answer_eq_reply (hrequest : f.isRequest = true) (h : f.exit? line? = none) :
    f.answer line? = .reply (line?.getD f.suggestion) := by
  cases line? with
  | some line => rfl
  | none =>
    unfold exit? at h
    unfold isRequest at hrequest
    unfold answer suggestion
    cases hrole : f.role? with
    | none => simp [hrole] at hrequest
    | some role => cases role <;> simp_all

/-- At a request that ends the session, the front end says farewell. -/
theorem answer_eq_farewell {exit : ClientExit} (h : f.exit? line? = some exit)
    (hrequest : f.isRequest = true) : f.answer line? = farewell := by
  unfold exit? at h
  unfold isRequest at hrequest
  cases hrole : f.role? with
  | none => simp [hrole] at hrequest
  | some role => cases role <;> cases line? <;> simp_all [answer]

/-- Only a request ends the session for want of a line. -/
theorem isRequest_iff_of_exit? {exit : ClientExit} (h : f.exit? line? = some exit) :
    f.isRequest = true ↔ exit = .inputClosed := by
  unfold exit? at h
  unfold isRequest
  cases hrole : f.role? with
  | none => simp [hrole] at h
  | some role =>
    cases role with
    | prompt => cases line? <;> simp_all
    | quit =>
      have hquit : exit = .serverQuit := by simpa [hrole] using h.symm
      simp [hquit]
    | _ => simp [hrole] at h

/-- The lines of the user behind the frame. -/
theorem getElem?_leave (f : Frame) (lines : List String) (n : Nat) :
    (f.leave lines)[n]? = lines[(requests [f]).length + n]? := by
  unfold leave requests
  by_cases hf : f.isRequest = true
  · simp [hf, Nat.add_comm 1 n]
  · simp [hf]

end Frame

/-! ## One frame -/

namespace Client

/-- The front end is connected over a queue that takes everything, its input is a text, and
everything can be shown. -/
structure Ready (c : Client QueueTransport) (text : String) : Prop where
  steady : c.connection.IsSteady
  input_eq : c.input = Text.utf8Bytes text
  limit_eq : c.screen.limit = none

/-- The front end after a frame was taken off the queue. -/
def hear (c : Client QueueTransport) (f : Frame) (queue : List Frame) : Client QueueTransport :=
  { c with connection := c.connection.hear f queue }

/-- The connection after a frame was answered, if it asks for an answer. -/
def answered (connection : Connection QueueTransport) (f : Frame) (line? : Option String) :
    Connection QueueTransport :=
  if f.isRequest then connection.keep (f.answer line?) else connection

/-- The front end after a frame, when the next line of the user and the text behind it are given.
The frame that ends the session closes the connection. -/
def after (c : Client QueueTransport) (f : Frame) (line? : Option String) (rest : String) :
    Client QueueTransport where
  connection :=
    if (f.exit? line?).isSome then (answered c.connection f line?).close
    else answered c.connection f line?
  input := Text.utf8Bytes rest
  screen := ⟨c.screen.text ++ f.shown line?, none⟩

variable {c : Client QueueTransport} {text rest : String} {f : Frame} {line? : Option String}

theorem Ready.hear (h : c.Ready text) (f : Frame) (queue : List Frame) :
    (c.hear f queue).Ready text := ⟨h.steady.hear f queue, h.input_eq, h.limit_eq⟩

/-- An answer leaves the connection open. -/
theorem isSteady_answered {connection : Connection QueueTransport} (h : connection.IsSteady) :
    (answered connection f line?).IsSteady := by
  unfold answered
  split
  · exact h.keep _
  · exact h

/-- Handling a frame takes no further frame. -/
@[simp] theorem incoming_after :
    (c.after f line? rest).connection.transport.incoming = c.connection.transport.incoming := by
  have hanswered :
      (answered c.connection f line?).transport.incoming = c.connection.transport.incoming := by
    unfold answered
    split <;> rfl
  unfold after
  dsimp only
  split
  · rw [Connection.incoming_close, hanswered]
  · exact hanswered

/-- A frame that asks for an answer is sent one, and nothing else is sent. -/
theorem sent_after :
    (c.after f line? rest).connection.transport.sent =
      c.connection.transport.sent ++ if f.isRequest then [f.answer line?] else [] := by
  have hanswered : (answered c.connection f line?).transport.sent =
      c.connection.transport.sent ++ if f.isRequest then [f.answer line?] else [] := by
    unfold answered
    split
    · rfl
    · exact (List.append_nil _).symm
  unfold after
  dsimp only
  split
  · rw [Connection.sent_close, hanswered]
  · exact hanswered

theorem text_hear (f : Frame) (queue : List Frame) :
    (c.hear f queue).screen.text = c.screen.text := rfl

theorem text_after : (c.after f line? rest).screen.text = c.screen.text ++ f.shown line? := rfl

/-- The frame that ends the session closes the connection. -/
theorem Ready.isDown_after (h : c.Ready text) {exit : ClientExit}
    (hexit : f.exit? line? = some exit) : (c.after f line? rest).connection.IsDown := by
  unfold after
  rw [hexit]
  exact (isSteady_answered h.steady).1.close

/-- A front end that goes on is ready for the next frame. -/
theorem Ready.after (h : c.Ready text) (hexit : f.exit? line? = none) :
    (c.after f line? rest).Ready rest where
  steady := by
    unfold Client.after
    rw [hexit]
    exact isSteady_answered h.steady
  input_eq := rfl
  limit_eq := rfl

/-- An answer is sent over a connection that takes everything. -/
theorem reply_on {connection : Connection QueueTransport} (h : connection.IsSteady)
    (line : String) (input : List UInt8) (screen : Screen) :
    (reply line).on ⟨connection, input, screen⟩ =
      (.ok (), ⟨connection.keep (.reply line), input, screen⟩) := by
  rw [reply, Action.on_of]
  dsimp only
  rw [h.send_eq]

/-- A prompt is shown, and answered with the next line unless there is none. -/
theorem handle_prompt_on (h : c.Ready text) (hf : f.role? = some .prompt) :
    ∃ rest, userLines rest = (userLines text).tail ∧
      (handle f).on c =
        (.ok (f.exit? (userLines text).head?), c.after f (userLines text).head? rest) := by
  obtain ⟨rest, hread, hrest⟩ := readPrompted_on f h.input_eq h.limit_eq
  refine ⟨rest, hrest, ?_⟩
  unfold handle
  rw [hf]
  dsimp only
  rw [← bind_assoc]
  show (readPrompted f >>= _).on c = _
  rw [Action.on_bind, hread]
  cases (userLines text).head? with
  | some line =>
    dsimp only
    rw [Action.on_bind, reply_on h.steady]
    simp [after, answered, Frame.isRequest, Frame.exit?, Frame.shown, Frame.answer, hf]
  | none =>
    dsimp only
    rw [Action.on_bind, changeConnection, Action.on_of]
    dsimp only
    rw [h.steady.finalize_eq]
    simp [after, answered, Frame.isRequest, Frame.exit?, Frame.shown, Frame.answer, hf, farewell]

/-- A question is shown, and answered with the next line or, if there is none, as it suggests. -/
theorem handle_confirm_on (h : c.Ready text) (default : Bool)
    (hf : f.role? = some (.confirm default)) :
    ∃ rest, userLines rest = (userLines text).tail ∧
      (handle f).on c =
        (.ok (f.exit? (userLines text).head?), c.after f (userLines text).head? rest) := by
  obtain ⟨rest, hchoose, hrest⟩ := choose_on f default h.input_eq h.limit_eq
  have hhandle : handle f = (answer f default : Step QueueTransport Unit) >>= fun _ => pure none := by
    unfold handle
    rw [hf]
    cases default <;> rfl
  refine ⟨rest, hrest, ?_⟩
  rw [hhandle, answer_eq, bind_assoc, Action.on_bind, hchoose]
  dsimp only
  rw [Action.on_bind, reply_on h.steady]
  cases default <;> cases (userLines text).head? <;>
    simp_all [after, answered, Frame.isRequest, Frame.exit?, Frame.shown, Frame.answer, Role.confirm]

/-- What a frame makes of a front end that is ready for it. -/
theorem handle_on (h : c.Ready text) (f : Frame) :
    ∃ rest, userLines rest = f.leave (userLines text) ∧
      (handle f).on c =
        (.ok (f.exit? (userLines text).head?), c.after f (userLines text).head? rest) := by
  have hasked : f.isRequest = true → f.leave (userLines text) = (userLines text).tail :=
    fun hf => if_pos hf
  have hpassed : f.isRequest = false → f.leave (userLines text) = userLines text :=
    fun hf => if_neg (by simp [hf])
  cases hrole : f.role? with
  | none =>
    refine ⟨text, (hpassed (by simp [Frame.isRequest, hrole])).symm, ?_⟩
    simp [handle, after, answered, Frame.isRequest, Frame.exit?, Frame.shown, hrole, ← h.input_eq,
      ← h.limit_eq]
  | some role =>
    cases role with
    | prompt =>
      rw [hasked (by simp [Frame.isRequest, hrole])]
      exact handle_prompt_on h hrole
    | confirmTrue =>
      rw [hasked (by simp [Frame.isRequest, hrole])]
      exact handle_confirm_on h true hrole
    | confirmFalse =>
      rw [hasked (by simp [Frame.isRequest, hrole])]
      exact handle_confirm_on h false hrole
    | print =>
      refine ⟨text, (hpassed (by simp [Frame.isRequest, hrole])).symm, ?_⟩
      unfold handle
      rw [hrole]
      dsimp only
      rw [Action.on_bind, view_on _ h.limit_eq]
      simp [after, answered, Frame.isRequest, Frame.exit?, Frame.shown, hrole, ← h.input_eq]
    | quit =>
      refine ⟨text, (hpassed (by simp [Frame.isRequest, hrole])).symm, ?_⟩
      unfold handle
      rw [hrole]
      dsimp only
      rw [Action.on_bind, changeConnection, Action.on_of]
      simp [after, answered, Frame.isRequest, Frame.exit?, Frame.shown, hrole, ← h.input_eq, ← h.limit_eq]

/-- A front end that is ready takes the next frame of the queue and handles it. -/
theorem advance_of_cons (h : c.Ready text) {queue : List Frame}
    (hqueue : c.connection.transport.incoming = f :: queue) :
    ∃ rest, userLines rest = f.leave (userLines text) ∧
      advance.on c = (.ok (f.exit? (userLines text).head?),
        (c.hear f queue).after f (userLines text).head? rest) := by
  obtain ⟨rest, hrest, hhandle⟩ := handle_on (h.hear f queue) f
  refine ⟨rest, hrest, ?_⟩
  rw [advance, Action.on_bind, receive_on, h.steady.receive_of_cons hqueue]
  exact hhandle

/-- The end of the queue ends the session. -/
theorem advance_of_nil (h : c.Ready text) (hqueue : c.connection.transport.incoming = []) :
    advance.on c = (.ok (some .disconnected), { c with connection := c.connection.close }) := by
  rw [advance, Action.on_bind, receive_on, h.steady.receive_of_nil hqueue]
  rfl

/-! ## All frames -/

/-- The replies to requests: each is the line of the user in its place or, behind the last line,
what a question suggests. -/
def replies (asked : List Frame) (lines : List String) : List Frame :=
  asked.mapIdx fun i q => .reply (lines[i]?.getD q.suggestion)

/-- What the user sees of frames while their lines are given one after the other. -/
def shownWith : (lines : List String) → List Frame → String
  | _, [] => ""
  | lines, f :: rest => f.shown lines.head? ++ shownWith (f.leave lines) rest

/-- What a session comes to with some lines of the user: the frames in front of the last one that is
handled, if there is a last one, and what they make of the front end. -/
structure Relayed (lines : List String) (c : Client QueueTransport) (exit : ClientExit)
    (c' : Client QueueTransport) (before : List Frame) (last? : Option Frame) : Prop where
  /-- The frames are handled in their order, and the others are left. -/
  incoming_eq : c.connection.transport.incoming =
    before ++ last?.toList ++ c'.connection.transport.incoming
  /-- Frames in front of the last one do not end the session, with as many lines given before as
  requests came before. -/
  goes_on : ∀ front f back, before = front ++ f :: back →
    f.exit? lines[(requests front).length]? = none
  /-- The last frame ends the session. -/
  ends : ∀ f ∈ last?, f.exit? lines[(requests before).length]? = some exit
  /-- Without such a frame, the queue runs out. -/
  runs_out : last? = none → exit = .disconnected ∧ c'.connection.transport.incoming = []
  /-- Each request is replied to, and a prompt without a line to give is met with a farewell. -/
  sent_eq : c'.connection.transport.sent = c.connection.transport.sent ++
    replies (requests before) lines ++ if exit = .inputClosed then [farewell] else []
  /-- The user sees what the frames show. -/
  text_eq : c'.screen.text = c.screen.text ++ shownWith lines (before ++ last?.toList)
  isDown : c'.connection.IsDown

section

variable {lines : List String} {queue before : List Frame} {last? : Option Frame}
  {c' : Client QueueTransport} {exit : ClientExit}

/-- The replies to the first frame and to those behind it. -/
theorem replies_cons (f : Frame) (before : List Frame) (lines : List String) :
    replies (requests (f :: before)) lines =
      replies (requests [f]) lines ++ replies (requests before) (f.leave lines) := by
  unfold replies requests Frame.leave
  by_cases hf : f.isRequest = true
  · simp [hf]
  · simp [hf]

/-- The end of the queue is the end of the session. -/
theorem relayed_of_nil (h : c.Ready text) (hqueue : c.connection.transport.incoming = []) :
    Relayed lines c .disconnected { c with connection := c.connection.close } [] none where
  incoming_eq := by simp [hqueue]
  goes_on := by simp
  ends := by simp
  runs_out := by simp [hqueue]
  sent_eq := by simp [replies, requests]
  text_eq := by simp [shownWith]
  isDown := h.steady.1.close

/-- A frame ends the session. -/
theorem relayed_of_exit (h : c.Ready text) (hqueue : c.connection.transport.incoming = f :: queue)
    (hexit : f.exit? lines.head? = some exit) :
    Relayed lines c exit ((c.hear f queue).after f lines.head? rest) [] (some f) := by
  have hrequest := Frame.isRequest_iff_of_exit? hexit
  constructor
  case incoming_eq =>
    rw [incoming_after, hqueue]
    rfl
  case goes_on => simp
  case ends =>
    rintro _ ⟨rfl⟩
    rw [List.head?_eq_getElem?] at hexit
    exact hexit
  case runs_out => simp
  case sent_eq =>
    rw [sent_after]
    by_cases hf : f.isRequest = true
    · simp [hf, hrequest.1 hf, Frame.answer_eq_farewell hexit hf, replies, requests,
        Client.hear, Connection.hear]
    · simp [hf, mt hrequest.2 hf, replies, requests, Client.hear, Connection.hear]
  case text_eq =>
    rw [text_after, text_hear]
    simp [shownWith]
  case isDown => exact (h.hear f queue).isDown_after hexit

/-- A frame that does not end the session comes in front of those that are handled after it. -/
theorem Relayed.cons (hqueue : c.connection.transport.incoming = f :: queue)
    (hexit : f.exit? lines.head? = none)
    (h : Relayed (f.leave lines) ((c.hear f queue).after f lines.head? rest) exit c' before
      last?) :
    Relayed lines c exit c' (f :: before) last? := by
  have hplace : ∀ frames : List Frame, (f.leave lines)[(requests frames).length]? =
      lines[(requests (f :: frames)).length]? := by
    intro frames
    rw [f.getElem?_leave, ← List.length_append, ← requests_append]
    rfl
  constructor
  case incoming_eq =>
    have hrest := h.incoming_eq
    rw [incoming_after] at hrest
    rw [hqueue, List.cons_append, List.cons_append, ← hrest]
    rfl
  case goes_on =>
    intro front g back heq
    cases front with
    | nil =>
      obtain ⟨rfl, -⟩ := List.cons.inj heq
      rw [List.head?_eq_getElem?] at hexit
      exact hexit
    | cons _ front =>
      obtain ⟨rfl, hbefore⟩ := List.cons.inj heq
      rw [← hplace]
      exact h.goes_on front g back hbefore
  case ends =>
    intro g hg
    rw [← hplace]
    exact h.ends g hg
  case runs_out => exact h.runs_out
  case sent_eq =>
    rw [h.sent_eq, sent_after, replies_cons]
    by_cases hf : f.isRequest = true
    · rw [if_pos hf, Frame.answer_eq_reply hf hexit, requests_singleton hf]
      simp [replies, Client.hear, Connection.hear, List.head?_eq_getElem?]
    · simp [hf, replies, requests, Client.hear, Connection.hear]
  case text_eq =>
    rw [h.text_eq, text_after, text_hear, List.cons_append, shownWith, ← String.append_assoc]
  case isDown => exact h.isDown

end

/-- With a turn for each frame of the queue, and one for its end, the session comes to its end. -/
theorem relayed_runWithin {frames : Nat} (h : c.Ready text)
    (hframes : c.connection.transport.incoming.length < frames) :
    ∃ exit c' before last?, (runWithin frames).on c = (.ok (some exit), c') ∧
      Relayed (userLines text) c exit c' before last? := by
  -- the induction is on the turns; each takes a frame off the queue, or is the last one
  induction frames generalizing c text with
  | zero => exact absurd hframes (Nat.not_lt_zero _)
  | succ frames ih =>
    rw [runWithin_succ_on]
    cases hqueue : c.connection.transport.incoming with
    | nil =>
      rw [advance_of_nil h hqueue]
      exact ⟨_, _, _, _, rfl, relayed_of_nil h hqueue⟩
    | cons f queue =>
      obtain ⟨rest, hrest, hadvance⟩ := advance_of_cons h hqueue
      rw [hadvance]
      cases hexit : f.exit? (userLines text).head? with
      | some exit => exact ⟨_, _, _, _, rfl, relayed_of_exit h hqueue hexit⟩
      | none =>
        have hfewer : ((c.hear f queue).after f (userLines text).head?
            rest).connection.transport.incoming.length < frames := by
          rw [hqueue] at hframes
          rw [incoming_after]
          exact Nat.lt_of_succ_lt_succ hframes
        obtain ⟨exit, c', before, last?, hrun, hrelayed⟩ := ih ((h.hear f queue).after hexit) hfewer
        rw [hrest] at hrelayed
        exact ⟨exit, c', f :: before, last?, hrun, hrelayed.cons hqueue hexit⟩

/-- Replies are no quit frames. -/
theorem countP_isQuit_replies (asked : List Frame) (lines : List String) :
    (replies asked lines).countP Frame.isQuit = 0 := by
  rw [List.countP_eq_zero]
  intro f hf
  obtain ⟨i, hi, rfl⟩ := List.mem_mapIdx.1 hf
  simp [Frame.isQuit]

/-- What was sent by the time the connection has been let go: one quit frame if the lines of the
user ran out at a prompt, and none otherwise. -/
theorem Relayed.countP_isQuit {lines : List String} {c' : Client QueueTransport}
    {exit : ClientExit} {before : List Frame} {last? : Option Frame}
    (h : Relayed lines c exit c' before last?) :
    (c'.connection.drop.transport.sent.drop c.connection.transport.sent.length).countP
      Frame.isQuit = if exit = .inputClosed then 1 else 0 := by
  have hdrop : c'.connection.drop.transport.sent = c'.connection.transport.sent := by
    rw [Connection.Coupled.sent_drop (.inr h.isDown), h.isDown.isConnected]
    simp
  rw [hdrop, h.sent_eq, List.append_assoc, List.drop_left, List.countP_append,
    countP_isQuit_replies]
  split
  · rfl
  · rfl

/-- A front end against any debugger. Over an open queue that takes everything, and with the bytes
of a text as its input, it handles the frames of the queue in their order up to the first one that
ends the session, and returns with the reason that this frame, or the end of the queue, gives. By
the time its connection has been let go, one quit frame was sent if the lines of the user ran out at
a prompt, and none otherwise. -/
theorem run_relays (hup : c.connection.IsUp) (hsends : c.connection.transport.failSend = false)
    (hinput : c.input = Text.utf8Bytes text) (hlimit : c.screen.limit = none) :
    ∃ exit c' before last?, run.on c = (.ok exit, c') ∧
      Relayed (userLines text) c exit c' before last? ∧
      (c'.connection.drop.transport.sent.drop c.connection.transport.sent.length).countP
        Frame.isQuit = if exit = .inputClosed then 1 else 0 := by
  have hready : c.Ready text := ⟨⟨hup, hsends⟩, hinput, hlimit⟩
  obtain ⟨exit, c', before, last?, hrun, hrelayed⟩ :=
    relayed_runWithin hready (Nat.lt_succ_self _)
  refine ⟨exit, c', before, last?, ?_, hrelayed, hrelayed.countP_isQuit⟩
  have hbacklog : Transport.backlog c.connection.transport =
      c.connection.transport.incoming.length := rfl
  rw [run, Action.on_of, hbacklog, hrun]

/-- A front end whose user has two lines to give. -/
def twoLines (incoming : List Frame) : Client QueueTransport :=
  ⟨.live incoming [] none, Text.utf8Bytes "step\r\nyes", .blank none⟩

/-- A debugger that prints, sends something unknown, asks four times and then quits. -/
def chatty : List Frame :=
  [.ofRole .print "stopped\n", ⟨0, "?"⟩, .ofRole .prompt "> \n", .ofRole .confirmFalse "Sure?\n",
    .ofRole .confirmTrue "Really?\n", .ofRole .prompt "> \n", .ofRole .quit "\n"]

/-- The user gives both lines, a question is answered as it suggests, and the prompt behind it is
met with a farewell. -/
theorem run_relays_chatty :
    ∃ exit c' before last?, run.on (twoLines chatty) = (.ok exit, c') ∧
      Relayed ["step", "yes"] (twoLines chatty) exit c' before last? ∧
      exit = .inputClosed ∧ c'.connection.transport.incoming = [.ofRole .quit "\n"] ∧
      c'.connection.transport.sent = [.reply "step", .reply "yes", .reply "y", farewell] ∧
      c'.screen.text = "stopped\n> Sure? (y or n) Really? (y or n) y\n> " := by
  have hlines : userLines "step\r\nyes" = ["step", "yes"] := by decide +kernel
  obtain ⟨exit, c', before, last?, hrun, hrelayed, -⟩ :=
    @run_relays (twoLines chatty) "step\r\nyes" ⟨rfl, rfl⟩ rfl rfl rfl
  rw [hlines] at hrelayed
  refine ⟨exit, c', before, last?, hrun, hrelayed, ?_⟩
  have hexit : (run.on (twoLines chatty)).1 = .ok .inputClosed := by decide +kernel
  have hincoming : (run.on (twoLines chatty)).2.connection.transport.incoming =
      [.ofRole .quit "\n"] := by decide +kernel
  have hsent : (run.on (twoLines chatty)).2.connection.transport.sent =
      [.reply "step", .reply "yes", .reply "y", farewell] := by decide +kernel
  have htext : (run.on (twoLines chatty)).2.screen.text =
      "stopped\n> Sure? (y or n) Really? (y or n) y\n> " := by decide +kernel
  rw [hrun] at hexit hincoming hsent htext
  exact ⟨Except.ok.inj hexit, hincoming, hsent, htext⟩

end Client

end BytecodeDebugger
