import BytecodeDebugger.Proofs.Command.Execution
import BytecodeDebugger.Proofs.Session.DebuggerEnd
import BytecodeDebugger.Proofs.Session.FrontEnd
import BytecodeDebugger.Proofs.Session.UserLines

/-!
# Moves of a session

What the two ends do on connections that are open. The debugger's end prints, asks for something and
waits for the answer, or says goodbye. The front end shows what is printed, and answers what it is
asked with the next line of its user.

Main facts: `Server.exists_move` (all that the debugger's end can do while it does not wait),
`Server.step_of_pending?` (it takes an answer as the line of the user) and `Client.step_request` (a
request is answered with the next line).
-/

namespace BytecodeDebugger

/-! ## Requests and answers -/

/-- The frame of an end that leaves. -/
def farewell : Frame := .ofRole .quit ("" ++ "\n")

namespace Frame

/-- Whether the frame asks for an answer. -/
def isRequest (f : Frame) : Bool :=
  match f.role? with
  | some .prompt | some .confirmTrue | some .confirmFalse => true
  | _ => false

/-- The answer to a request: a line of the user or, at the end of the input, the default of a
question and a farewell at a prompt. -/
def answer (request : Frame) : Option String → Frame
  | some line => .reply line
  | none =>
    match request.role? with
    | some .confirmTrue => .reply "y"
    | some .confirmFalse => .reply "n"
    | _ => farewell

end Frame

/-! ## The debugger's end -/

namespace Server

namespace Point

/-- Whether it does not wait, and has not said goodbye. -/
def isWorking : Point → Bool
  | .prompting _ | .talking _ | .insisting _ _ _ | .leaving _ => true
  | _ => false

/-- Whatever comes, the prompt of the processor is not empty. -/
def Prompts : Point → Prop
  | .prompting p | .expecting p => p.prompt ≠ ""
  | .talking d => d.Yields fun r => r.2.prompt ≠ ""
  | .waiting _ _ next | .insisting _ _ next => ∀ r, (next r).Yields fun r => r.2.prompt ≠ ""
  | .leaving _ | .closing _ | .ended _ => True

/-- What becomes of a waiting end when the user answers a line, or when there is no line left. -/
def resume : Point → Option String → Point
  | .expecting p, some line => .talking (p.executeLine line)
  | .expecting p, none => .leaving (.ok (), p)
  | .waiting question default next, some line =>
    match answer? line with
    | some b => .talking (next (.ok b))
    | none => .insisting question default next
  | .waiting _ default next, none => .talking (next (.ok default))
  | point, _ => point

/-- What is awaited is the answer to a request. -/
theorem isRequest_of_pending? {point : Point} {q : Frame} (h : point.pending? = some q) :
    q.isRequest = true := by
  cases point with
  | expecting p =>
    cases h
    rfl
  | waiting question default next =>
    cases h
    cases default <;> rfl
  | _ => cases h

/-- An end that waits receives next. -/
theorem receives_of_pending? {point : Point} {q : Frame} (h : point.pending? = some q) :
    point.receives = true := by
  cases point with
  | expecting p => rfl
  | waiting question default next => rfl
  | _ => cases h

/-- An end that works does not receive next. -/
theorem receives_of_isWorking {point : Point} (h : point.isWorking = true) :
    point.receives = false := by
  cases point with
  | expecting p => cases h
  | waiting question default next => cases h
  | _ => rfl

/-- An end that works awaits nothing. -/
theorem pending?_of_isWorking {point : Point} (h : point.isWorking = true) :
    point.pending? = none := by
  cases point with
  | expecting p => cases h
  | waiting question default next => cases h
  | _ => rfl

/-- With an answer, an end that waits works again. -/
theorem isWorking_resume {point : Point} {q : Frame} (h : point.pending? = some q)
    (line? : Option String) : (point.resume line?).isWorking = true := by
  cases point with
  | expecting p => cases line? <;> rfl
  | waiting question default next =>
    cases line? with
    | none => rfl
    | some line =>
      dsimp only [resume]
      cases answer? line <;> rfl
  | _ => cases h

end Point

variable {τ : Type} [Transport τ]

/-- No step makes the prompt empty. -/
theorem prompts_step {s : Point × Connection τ} (h : s.1.Prompts) : (step s).1.Prompts := by
  obtain ⟨point, c⟩ := s
  cases point with
  | prompting p =>
    dsimp only [step]
    split
    · exact h
    · rcases c.writeLine .prompt p.prompt with ⟨e | _, c'⟩
      · trivial
      · exact h
  | expecting p =>
    have hline : ∀ line, (p.executeLine line).Yields fun r => r.2.prompt ≠ "" := by
      intro line
      refine (p.executeLine_yields_self line).mono ?_
      intro r hr
      rw [hr.1]
      exact h
    dsimp only [step]
    rcases receiveLine.on c with ⟨e | _ | line, c'⟩
    · trivial
    · trivial
    · exact hline line
  | talking d =>
    cases d with
    | done a =>
      rcases a with ⟨e | _ | _, p⟩
      · trivial
      · exact h
      · trivial
    | write w next => exact h _
    | confirm question default next =>
      dsimp only [step]
      rcases c.writeLine (.confirm default) question with ⟨e | _, c'⟩
      · exact h _
      · exact h
  | waiting question default next =>
    dsimp only [step]
    rcases receiveLine.on c with ⟨e | _ | reply, c'⟩
    · exact h _
    · exact h _
    · dsimp only
      cases answer? reply with
      | some b => exact h _
      | none => exact h
  | insisting question default next =>
    dsimp only [step]
    rcases (say "Please answer y or n.").on c with ⟨e | _, c'⟩
    · exact h _
    · exact h
  | leaving r =>
    dsimp only [step]
    split <;> trivial
  | closing r => trivial
  | ended r => trivial

/-- What an end does that does not wait: it stays at work, and may have printed something; or it has
asked for something, and waits for the answer; or it has said goodbye. -/
inductive Move : Point → List Frame → Prop
  | work {point : Point} {frames : List Frame} (hpoint : point.isWorking = true)
      (hframes : ∀ f ∈ frames, f.role? = some .print) : Move point frames
  | ask {point : Point} {q : Frame} (hq : point.pending? = some q) : Move point [q]
  | leave (r : Except ConnectError Unit × Processor) : Move (.closing r) [farewell]

/-- Nothing else can be done on an open connection. -/
theorem exists_move {point : Point} (hpoint : point.isWorking = true) (hprompts : point.Prompts)
    (incoming sent : List Frame) (code : Option UInt8) :
    ∃ point' frames,
      step (point, .live incoming sent code) = (point', .live incoming (sent ++ frames) code) ∧
        Move point' frames := by
  -- a step without a call sends no frames
  have hsilent : ∀ point' : Point, point'.isWorking = true →
      step (point, .live incoming sent code) = (point', .live incoming sent code) →
        ∃ point' frames,
          step (point, .live incoming sent code) = (point', .live incoming (sent ++ frames) code) ∧
            Move point' frames := by
    intro point' hworking hstep
    refine ⟨point', [], ?_, .work hworking (fun _ hf => absurd hf List.not_mem_nil)⟩
    rw [List.append_nil]
    exact hstep
  have hprint : ∀ text : String, ∀ f ∈ [Frame.ofRole .print text], f.role? = some .print := by
    intro text f hf
    rw [List.mem_singleton.1 hf]
    exact Frame.role?_ofRole .print text
  cases point with
  | prompting p =>
    have hne : p.prompt.isEmpty = false := by
      rw [← Bool.not_eq_true, String.isEmpty_iff]
      exact hprompts
    refine ⟨.expecting p, [.ofRole .prompt (p.prompt ++ "\n")], ?_, .ask rfl⟩
    dsimp only [step]
    rw [hne, Connection.writeLine_live]
    rfl
  | talking d =>
    cases d with
    | done a =>
      rcases a with ⟨e | _ | _, p⟩
      · exact hsilent (.leaving (.error e, p)) rfl rfl
      · exact hsilent (.prompting p) rfl rfl
      · exact hsilent (.leaving (.ok (), p)) rfl rfl
    | write w next =>
      cases w with
      | fragment text => exact ⟨.talking (next (.ok ())), _, rfl, .work rfl (hprint text)⟩
      | line text => exact ⟨.talking (next (.ok ())), _, rfl, .work rfl (hprint (text ++ "\n"))⟩
    | confirm question default next => exact ⟨.waiting question default next, _, rfl, .ask rfl⟩
  | insisting question default next =>
    exact ⟨.talking (.confirm question default next), _, rfl,
      .work rfl (hprint ("Please answer y or n." ++ "\n"))⟩
  | leaving r => exact ⟨.closing r, _, rfl, .leave r⟩
  | _ => cases hpoint

/-- A reply that has no line end is received as it is. -/
theorem receiveLine_reply {line : String} (hline : Text.stripLineEnd line = line)
    (incoming sent : List Frame) (code : Option UInt8) :
    receiveLine.on (.live (.reply line :: incoming) sent code) =
      (.ok (some line), .live incoming sent (some replyCode)) := by
  have hrole : (Frame.reply line).role? ≠ some .quit := by
    rw [Frame.role?_reply]
    exact nofun
  rw [receiveLine_on, Connection.receive_live]
  dsimp only
  rw [if_neg hrole]
  show (Except.ok (some (Text.stripLineEnd line)), _) = _
  rw [hline]
  rfl

/-- A farewell is received as the end of the input. -/
theorem receiveLine_farewell (incoming sent : List Frame) (code : Option UInt8) :
    receiveLine.on (.live (farewell :: incoming) sent code) =
      (.ok none, .live incoming sent (some farewell.code)) := by
  rw [receiveLine_on, Connection.receive_live]
  dsimp only
  rw [if_pos (show farewell.role? = some .quit from Frame.role?_ofRole _ _)]

/-- The word for the default answer says so. -/
theorem answer?_default (default : Bool) :
    answer? (if default then "y" else "n") = some default := by
  cases default
  · decide +kernel
  · decide +kernel

/-- An end that waits takes an answer as the line of the user that it is made of, or as the default
if there is no line. -/
theorem step_of_pending? (incoming sent : List Frame) (code : Option UInt8) {point : Point}
    {q : Frame} {line? : Option String}
    (hq : point.pending? = some q) (hline : ∀ line ∈ line?, Text.stripLineEnd line = line) :
    step (point, .live (q.answer line? :: incoming) sent code) =
      (point.resume line?, .live incoming sent (some (q.answer line?).code)) := by
  cases point with
  | expecting p =>
    cases hq
    cases line? with
    | none =>
      have hanswer : (Frame.ofRole .prompt (p.prompt ++ "\n")).answer none = farewell := rfl
      rw [hanswer]
      dsimp only [step]
      rw [receiveLine_farewell]
      rfl
    | some line =>
      dsimp only [step, Frame.answer]
      rw [receiveLine_reply (hline line rfl)]
      rfl
  | waiting question default next =>
    cases hq
    cases line? with
    | none =>
      have hanswer : (Frame.ofRole (.confirm default) (question ++ "\n")).answer none =
          .reply (if default then "y" else "n") := by
        cases default <;> rfl
      have hstrip : Text.stripLineEnd (if default then "y" else "n") =
          if default then "y" else "n" := by
        cases default <;> decide +kernel
      rw [hanswer]
      dsimp only [step]
      rw [receiveLine_reply hstrip]
      dsimp only
      rw [answer?_default]
      rfl
    | some line =>
      dsimp only [step, Frame.answer]
      rw [receiveLine_reply (hline line rfl)]
      dsimp only [Point.resume]
      cases answer? line <;> rfl
  | _ => cases hq

end Server

/-! ## The front end -/

namespace Client

namespace Point

/-- The front end has an answer at hand, or is about to say farewell. -/
inductive Holds : Point → Frame → Prop
  | reply (text : String) : Holds (.answering text) (.reply text)
  | farewell : Holds .leaving farewell

theorem Holds.receives_eq {point : Point} {f : Frame} (h : point.Holds f) :
    point.receives = false := by
  cases h <;> rfl

theorem Holds.ne_ended {point : Point} {f : Frame} (h : point.Holds f)
    (r : Except ClientError ClientExit) : point ≠ .ended r := by
  rintro rfl
  cases h

end Point

variable {c : Client QueueTransport} {incoming sent : List Frame} {code : Option UInt8}
  {screen : Screen}

/-- At a prompt, the front end shows it and takes the next line. -/
theorem readPrompted_on {text : String} (f : Frame) (hinput : c.input = Text.utf8Bytes text)
    (hscreen : c.screen.limit = none) :
    ∃ rest, (readPrompted f).on c = (.ok (userLines text).head?,
        { c with
          input := Text.utf8Bytes rest
          screen := ⟨c.screen.text ++ promptText f, none⟩ }) ∧
      userLines rest = (userLines text).tail := by
  let shown : Client QueueTransport :=
    { c with screen := ⟨c.screen.text ++ promptText f, none⟩ }
  obtain ⟨rest, hline, hrest⟩ := nextLine_on (c := shown) hinput
  refine ⟨rest, ?_, hrest⟩
  rw [readPrompted, Action.on_bind, view_on _ hscreen]
  exact hline

/-- What is shown of a question: its words with the two answers to choose from, and the answer that
is chosen at the end of the input. -/
def questionText (f : Frame) (default : Bool) (line? : Option String) : String :=
  promptText f ++ " (y or n) " ++
    if line?.isSome then "" else if default then "y\n" else "n\n"

/-- At a question, the front end shows it and takes the next line, or the word for the default. -/
theorem choose_on {text : String} (f : Frame) (default : Bool)
    (hinput : c.input = Text.utf8Bytes text) (hscreen : c.screen.limit = none) :
    ∃ rest, (choose f default).on c =
        (.ok ((userLines text).head?.getD (if default then "y" else "n")),
          { c with
            input := Text.utf8Bytes rest
            screen :=
              ⟨c.screen.text ++ questionText f default (userLines text).head?, none⟩ }) ∧
      userLines rest = (userLines text).tail := by
  let shown : Client QueueTransport :=
    { c with screen := ⟨c.screen.text ++ promptText f ++ " (y or n) ", none⟩ }
  have hshown : shown.input = Text.utf8Bytes text := hinput
  obtain ⟨rest, hline, hrest⟩ := nextLine_on hshown
  refine ⟨rest, ?_, hrest⟩
  rw [choose, Action.on_bind, view_on _ hscreen]
  dsimp only
  rw [Action.on_bind, view_on _ rfl]
  dsimp only
  rw [Action.on_bind, hline]
  cases (userLines text).head? with
  | some line => simp [questionText, shown, String.append_assoc]
  | none =>
    dsimp only
    rw [Action.on_bind, view_on _ rfl]
    dsimp only
    rw [Action.on_bind, view_on _ rfl]
    cases default <;> simp [questionText, shown, String.append_assoc]

/-- What is printed is shown. -/
theorem step_print {f : Frame} (hf : f.role? = some .print) (hscreen : screen.limit = none)
    (incoming sent : List Frame) (code : Option UInt8) (input : List UInt8) :
    ∃ screen',
      step (.listening, ⟨.live (f :: incoming) sent code, input, screen⟩) =
        (.listening, ⟨.live incoming sent (some f.code), input, screen'⟩) ∧
        screen'.limit = none := by
  refine ⟨⟨screen.text ++ f.payload, none⟩, ?_, rfl⟩
  dsimp only [step]
  rw [receive_on, Connection.receive_live]
  dsimp only [Except.mapError]
  rw [react, hf]
  dsimp only
  rw [view_on _ hscreen]
  rfl

/-- A request is taken with the next line of the user, and its answer is at hand then. -/
theorem step_request {q : Frame} (hq : q.isRequest = true) (hscreen : screen.limit = none)
    (incoming sent : List Frame) (code : Option UInt8) (text : String) :
    ∃ point rest screen',
      step (.listening, ⟨.live (q :: incoming) sent code, Text.utf8Bytes text, screen⟩) =
        (point, ⟨.live incoming sent (some q.code), Text.utf8Bytes rest, screen'⟩) ∧
        point.Holds (q.answer (userLines text).head?) ∧
        userLines rest = (userLines text).tail ∧ screen'.limit = none := by
  let taken : Client QueueTransport :=
    ⟨.live incoming sent (some q.code), Text.utf8Bytes text, screen⟩
  have hstep : step (.listening, ⟨.live (q :: incoming) sent code, Text.utf8Bytes text, screen⟩) =
      react q taken := by
    dsimp only [step]
    rw [receive_on, Connection.receive_live]
    rfl
  have hquestion : ∀ default : Bool, q.role? = some (.confirm default) →
      ∃ point rest screen',
        goOn .answering ((choose q default).on taken) =
          (point, ⟨.live incoming sent (some q.code), Text.utf8Bytes rest, screen'⟩) ∧
          point.Holds (q.answer (userLines text).head?) ∧
          userLines rest = (userLines text).tail ∧ screen'.limit = none := by
    intro default hrole
    obtain ⟨rest, hchoose, hrest⟩ := choose_on (c := taken) q default rfl hscreen
    refine ⟨_, rest, _, by rw [hchoose]; rfl, ?_, hrest, rfl⟩
    cases (userLines text).head? with
    | some line => exact .reply line
    | none =>
      have hanswer : q.answer none = .reply (if default then "y" else "n") := by
        rw [Frame.answer, hrole]
        cases default <;> rfl
      rw [hanswer]
      exact .reply _
  rw [hstep, react]
  -- what is printed and a farewell are no requests
  unfold Frame.isRequest at hq
  cases hrole : q.role? with
  | none =>
    rw [hrole] at hq
    cases hq
  | some role =>
    rw [hrole] at hq
    cases role with
    | prompt =>
      obtain ⟨rest, hread, hrest⟩ := readPrompted_on (c := taken) q rfl hscreen
      dsimp only
      rw [hread]
      cases (userLines text).head? with
      | some line => exact ⟨_, rest, _, rfl, .reply line, hrest, rfl⟩
      | none =>
        have hanswer : q.answer none = farewell := by
          rw [Frame.answer, hrole]
        refine ⟨_, rest, _, rfl, ?_, hrest, rfl⟩
        rw [hanswer]
        exact .farewell
    | confirmTrue => exact hquestion true hrole
    | confirmFalse => exact hquestion false hrole
    | print => cases hq
    | quit => cases hq

/-- An answer at hand is sent. -/
theorem step_answering (answer : String) (incoming sent : List Frame) (code : Option UInt8)
    (input : List UInt8) (screen : Screen) :
    step (.answering answer, ⟨.live incoming sent code, input, screen⟩) =
      (.listening, ⟨.live incoming (sent ++ [.reply answer]) code, input, screen⟩) := rfl

/-- A farewell is sent before the connection is closed. -/
theorem step_leaving (incoming sent : List Frame) (code : Option UInt8) (input : List UInt8)
    (screen : Screen) :
    step (.leaving, ⟨.live incoming sent code, input, screen⟩) =
      (.closing .inputClosed, ⟨.live incoming (sent ++ [farewell]) code, input, screen⟩) := rfl

/-- A farewell is taken as the end of the session. -/
theorem step_farewell (incoming sent : List Frame) (code : Option UInt8) (input : List UInt8)
    (screen : Screen) :
    step (.listening, ⟨.live (farewell :: incoming) sent code, input, screen⟩) =
      (.closing .serverQuit, ⟨.live incoming sent (some farewell.code), input, screen⟩) := rfl

end Client

end BytecodeDebugger
