import BytecodeDebugger.Proofs.Session.Moves
import BytecodeDebugger.Proofs.Session.Pair

/-!
# Phases of a session

A session is always in one of a few phases. The debugger's end works while the front end shows what
is printed; or a request is on its way, or being answered, or its answer is on its way; or one of
the ends has said farewell and the other one follows. Each phase says what the two queues hold, what
has been sent, and how much of the input is left.

Main facts: `phase_start` (the first phase), `Phase.serverStep` and `Phase.clientStep` (every step
leads from a phase to a phase).
-/

namespace BytecodeDebugger

/-! ## Requests and their answers -/

/-- The requests among frames. -/
def requests (frames : List Frame) : List Frame := frames.filter Frame.isRequest

/-- The answers to requests: each one is made of the line of the user in its place. -/
def answers (requests : List Frame) (lines : List String) : List Frame :=
  requests.mapIdx fun i q => q.answer lines[i]?

theorem requests_append (frames more : List Frame) :
    requests (frames ++ more) = requests frames ++ requests more := List.filter_append frames more

/-- What is printed requests nothing. -/
theorem requests_of_print {frames : List Frame} (h : ∀ f ∈ frames, f.role? = some .print) :
    requests frames = [] := by
  rw [requests, List.filter_eq_nil_iff]
  intro f hf
  rw [Frame.isRequest, h f hf]
  exact Bool.false_ne_true

theorem requests_singleton {q : Frame} (h : q.isRequest = true) : requests [q] = [q] := by
  rw [requests, List.filter_cons_of_pos h]
  rfl

theorem requests_farewell : requests [farewell] = [] := rfl

/-- One more request is answered with the next line. -/
theorem answers_append_singleton (asked : List Frame) (q : Frame) (lines : List String) :
    answers (asked ++ [q]) lines = answers asked lines ++ [q.answer lines[asked.length]?] :=
  List.mapIdx_concat

/-- All answers are replies. -/
def AllReplies (asked : List Frame) (lines : List String) : Prop :=
  ∀ f ∈ answers asked lines, f.role? = none

/-- One more request that is answered with a reply. -/
theorem AllReplies.append {asked : List Frame} {lines : List String} {q : Frame} {text : String}
    (h : AllReplies asked lines) (hq : q.answer lines[asked.length]? = .reply text) :
    AllReplies (asked ++ [q]) lines := by
  intro f hf
  rw [answers_append_singleton, hq] at hf
  rcases List.mem_append.1 hf with hf | hf
  · exact h f hf
  · rw [List.mem_singleton.1 hf]
    exact Frame.role?_reply text

/-- Only a prompt at the end of the input is answered with a farewell. -/
theorem expecting_of_answer_eq_farewell {point : Server.Point} {q : Frame} {line? : Option String}
    (hq : point.pending? = some q) (hanswer : q.answer line? = farewell) :
    ∃ p, point = .expecting p ∧ line? = none := by
  have hreply : ∀ text, Frame.reply text ≠ farewell := by
    intro text heq
    have hcode : replyCode = farewell.code := congrArg Frame.code heq
    exact absurd hcode (by decide)
  cases line? with
  | some line => exact absurd hanswer (hreply line)
  | none =>
    cases point with
    | expecting p => exact ⟨p, rfl, rfl⟩
    | waiting question default next =>
      cases hq
      cases default
      · exact absurd hanswer (hreply "n")
      · exact absurd hanswer (hreply "y")
    | _ => cases hq

/-! ## Ends that close -/

/-- The debugger's end has said farewell: its connection is closed next, or has been closed. -/
inductive Server.Point.Closes (incoming sent : List Frame) :
    Server.Point → Connection QueueTransport → Prop
  | closing (r : Except ConnectError Unit × Processor) (code : Option UInt8) :
    Closes incoming sent (.closing r) (.live incoming sent code)
  | ended (r : Except ConnectError Unit × Processor) (code : Option UInt8) :
    Closes incoming sent (.ended r) (.gone incoming sent code)

/-- The front end has come to its exit: its connection is closed next, or has been closed. -/
inductive Client.Point.Closes (exit : ClientExit) (incoming sent : List Frame) :
    Client.Point → Connection QueueTransport → Prop
  | closing (code : Option UInt8) :
    Closes exit incoming sent (.closing exit) (.live incoming sent code)
  | ended (code : Option UInt8) :
    Closes exit incoming sent (.ended (.ok exit)) (.gone incoming sent code)

namespace Server.Point.Closes

variable {incoming sent : List Frame} {point : Server.Point}
  {connection : Connection QueueTransport}

theorem sent_eq (h : point.Closes incoming sent connection) : connection.transport.sent = sent := by
  cases h <;> rfl

/-- An end that has not closed its connection closes it next. -/
theorem step (h : point.Closes incoming sent connection) (hne : ∀ r, point ≠ .ended r) :
    ∃ point' connection', Server.step (point, connection) = (point', connection') ∧
      point'.Closes incoming sent connection' := by
  cases h with
  | closing r code => exact ⟨.ended r, .gone incoming sent code, rfl, .ended r code⟩
  | ended r code => exact absurd rfl (hne r)

theorem incoming_eq (h : point.Closes incoming sent connection) :
    connection.transport.incoming = incoming := by
  cases h <;> rfl

theorem receives_eq (h : point.Closes incoming sent connection) : point.receives = false := by
  cases h <;> rfl

theorem pending?_eq (h : point.Closes incoming sent connection) : point.pending? = none := by
  cases h <;> rfl

/-- An end that has returned has closed its connection. -/
theorem state_eq (h : point.Closes incoming sent connection)
    {r : Except ConnectError Unit × Processor} (hended : point = .ended r) :
    connection.state = .disconnected := by
  cases h with
  | closing r code => cases hended
  | ended r code => rfl

theorem push (h : point.Closes incoming sent connection) (frames : List Frame) :
    point.Closes (incoming ++ frames) sent (connection.push frames) := by
  cases h with
  | closing r code => exact .closing r code
  | ended r code => exact .ended r code

end Server.Point.Closes

namespace Client.Point.Closes

variable {exit : ClientExit} {incoming sent : List Frame} {point : Client.Point}
  {connection : Connection QueueTransport}

theorem sent_eq (h : point.Closes exit incoming sent connection) :
    connection.transport.sent = sent := by
  cases h <;> rfl

/-- An end that has not closed its connection closes it next. -/
theorem step (h : point.Closes exit incoming sent connection) (hne : ∀ r, point ≠ .ended r)
    (input : List UInt8) (screen : Screen) :
    ∃ point' connection', Client.step (point, ⟨connection, input, screen⟩) =
        (point', ⟨connection', input, screen⟩) ∧ point'.Closes exit incoming sent connection' := by
  cases h with
  | closing code => exact ⟨.ended (.ok exit), .gone incoming sent code, rfl, .ended code⟩
  | ended code => exact absurd rfl (hne (.ok exit))

theorem incoming_eq (h : point.Closes exit incoming sent connection) :
    connection.transport.incoming = incoming := by
  cases h <;> rfl

theorem receives_eq (h : point.Closes exit incoming sent connection) : point.receives = false := by
  cases h <;> rfl

/-- An end that has returned has closed its connection, and come to its exit. -/
theorem state_eq (h : point.Closes exit incoming sent connection)
    {r : Except ClientError ClientExit} (hended : point = .ended r) :
    connection.state = .disconnected ∧ point = .ended (.ok exit) := by
  cases h with
  | closing code => cases hended
  | ended code => exact ⟨rfl, rfl⟩

theorem push (h : point.Closes exit incoming sent connection) (frames : List Frame) :
    point.Closes exit (incoming ++ frames) sent (connection.push frames) := by
  cases h with
  | closing code => exact .closing code
  | ended code => exact .ended code

end Client.Point.Closes

namespace Pair

/-! ## Phases -/

/-- The phases of a session with the lines of a user. -/
inductive Phase (lines : List String) : Pair → Prop
  /-- The debugger's end works. The front end shows what it prints. -/
  | working {point : Server.Point} {sent prints : List Frame} {code code' : Option UInt8}
      {rest : String} {screen : Screen}
      (hpoint : point.isWorking = true) (hprints : ∀ f ∈ prints, f.role? = some .print)
      (hreplies : AllReplies (requests sent) lines)
      (hrest : userLines rest = lines.drop (requests sent).length) (hscreen : screen.limit = none) :
    Phase lines
      ⟨(point, .live [] sent code), (.listening,
        ⟨.live prints (answers (requests sent) lines) code', Text.utf8Bytes rest, screen⟩)⟩
  /-- A request is on its way, behind what has been printed. -/
  | asked {point : Server.Point} {sent prints asked : List Frame} {q : Frame}
      {code code' : Option UInt8} {rest : String} {screen : Screen}
      (hpoint : point.pending? = some q) (hprints : ∀ f ∈ prints, f.role? = some .print)
      (hsent : requests sent = asked ++ [q]) (hreplies : AllReplies asked lines)
      (hrest : userLines rest = lines.drop asked.length) (hscreen : screen.limit = none) :
    Phase lines
      ⟨(point, .live [] sent code), (.listening,
        ⟨.live (prints ++ [q]) (answers asked lines) code', Text.utf8Bytes rest, screen⟩)⟩
  /-- The front end has the answer at hand. -/
  | answering {point : Server.Point} {point' : Client.Point} {sent asked : List Frame} {q : Frame}
      {code code' : Option UInt8} {rest : String} {screen : Screen}
      (hpoint : point.pending? = some q) (hpoint' : point'.Holds (q.answer lines[asked.length]?))
      (hsent : requests sent = asked ++ [q]) (hreplies : AllReplies asked lines)
      (hrest : userLines rest = lines.drop (asked.length + 1)) (hscreen : screen.limit = none) :
    Phase lines
      ⟨(point, .live [] sent code), (point',
        ⟨.live [] (answers asked lines) code', Text.utf8Bytes rest, screen⟩)⟩
  /-- A reply is on its way. -/
  | answered {point : Server.Point} {sent asked : List Frame} {q : Frame}
      {code code' : Option UInt8} {rest : String} {screen : Screen}
      (hpoint : point.pending? = some q)
      (hsent : requests sent = asked ++ [q]) (hreplies : AllReplies (asked ++ [q]) lines)
      (hrest : userLines rest = lines.drop (asked.length + 1)) (hscreen : screen.limit = none) :
    Phase lines
      ⟨(point, .live [q.answer lines[asked.length]?] sent code), (.listening,
        ⟨.live [] (answers (asked ++ [q]) lines) code', Text.utf8Bytes rest, screen⟩)⟩
  /-- The input has ended at a prompt. The farewell of the front end is on its way. -/
  | parting {p : Processor} {point' : Client.Point} {connection' : Connection QueueTransport}
      {sent asked : List Frame} {q : Frame} {code : Option UInt8} {rest : String} {screen : Screen}
      (hpoint : (Server.Point.expecting p).pending? = some q) (hline : lines[asked.length]? = none)
      (hclient : point'.Closes .inputClosed [] (answers (asked ++ [q]) lines) connection')
      (hsent : requests sent = asked ++ [q]) (hreplies : AllReplies asked lines)
      (hrest : userLines rest = lines.drop (asked.length + 1)) :
    Phase lines
      ⟨(.expecting p, .live [farewell] sent code), (point',
        ⟨connection', Text.utf8Bytes rest, screen⟩)⟩
  /-- The debugger's end has taken the farewell of the front end. -/
  | parted {r : Except ConnectError Unit × Processor} {point' : Client.Point}
      {connection' : Connection QueueTransport} {sent asked : List Frame} {q : Frame}
      {code : Option UInt8} {rest : String} {screen : Screen}
      (hq : q.role? = some .prompt) (hline : lines[asked.length]? = none)
      (hclient : point'.Closes .inputClosed [] (answers (asked ++ [q]) lines) connection')
      (hsent : requests sent = asked ++ [q]) (hreplies : AllReplies asked lines)
      (hrest : userLines rest = lines.drop (asked.length + 1)) :
    Phase lines
      ⟨(.leaving r, .live [] sent code), (point',
        ⟨connection', Text.utf8Bytes rest, screen⟩)⟩
  /-- The farewell of the debugger's end is on its way, behind what has been printed. -/
  | quitting {point : Server.Point} {connection : Connection QueueTransport}
      {sent prints : List Frame} {code' : Option UInt8} {rest : String} {screen : Screen}
      (hserver : point.Closes [] sent connection) (hprints : ∀ f ∈ prints, f.role? = some .print)
      (hreplies : AllReplies (requests sent) lines)
      (hrest : userLines rest = lines.drop (requests sent).length) (hscreen : screen.limit = none) :
    Phase lines
      ⟨(point, connection), (.listening,
        ⟨.live (prints ++ [farewell]) (answers (requests sent) lines) code', Text.utf8Bytes rest,
          screen⟩)⟩
  /-- The front end has taken the farewell of the debugger's end. -/
  | dismissed {point : Server.Point} {point' : Client.Point}
      {connection connection' : Connection QueueTransport} {sent : List Frame} {rest : String}
      {screen : Screen} (hserver : point.Closes [] sent connection)
      (hclient : point'.Closes .serverQuit [] (answers (requests sent) lines) connection')
      (hreplies : AllReplies (requests sent) lines)
      (hrest : userLines rest = lines.drop (requests sent).length) :
    Phase lines
      ⟨(point, connection), (point', ⟨connection', Text.utf8Bytes rest, screen⟩)⟩
  /-- Both ends have said farewell, the front end first. -/
  | crossed {point : Server.Point} {point' : Client.Point}
      {connection connection' : Connection QueueTransport} {sent asked : List Frame} {q : Frame}
      {rest : String} {screen : Screen} (hserver : point.Closes [] sent connection)
      (hq : q.role? = some .prompt) (hline : lines[asked.length]? = none)
      (hclient : point'.Closes .inputClosed [farewell] (answers (asked ++ [q]) lines) connection')
      (hsent : requests sent = asked ++ [q]) (hreplies : AllReplies asked lines)
      (hrest : userLines rest = lines.drop (asked.length + 1)) :
    Phase lines
      ⟨(point, connection), (point', ⟨connection', Text.utf8Bytes rest, screen⟩)⟩

/-- At the start, the debugger's end works. -/
theorem phase_start (p : Processor) (text : String) : Phase (userLines text) (start p text) :=
  .working rfl (fun _ hf => absurd hf List.not_mem_nil) (fun _ hf => absurd hf List.not_mem_nil)
    rfl rfl

/-! ## Steps of the debugger's end -/

theorem serverStep_eq {s : Pair} {server : Server.Point × Connection QueueTransport}
    {frames : List Frame} (hstep : Server.step s.server = server)
    (hsent : server.2.transport.sent = s.serverSent ++ frames) :
    s.serverStep = ⟨server, (s.client.1, s.client.2.push frames)⟩ := by
  rw [serverStep, hstep, hsent, List.drop_left]

theorem serverStep_silent {s : Pair} {server : Server.Point × Connection QueueTransport}
    (hstep : Server.step s.server = server) (hsent : server.2.transport.sent = s.serverSent) :
    s.serverStep = ⟨server, s.client⟩ := by
  rw [serverStep, hstep, hsent, List.drop_length, Client.push_nil]

/-- An end that closes takes its step alone. -/
theorem serverStep_of_closes {point : Server.Point} {connection : Connection QueueTransport}
    {incoming sent : List Frame} (h : point.Closes incoming sent connection)
    (hne : ∀ r, point ≠ .ended r) (client : Client.Point × Client QueueTransport) :
    ∃ point' connection', Pair.serverStep ⟨(point, connection), client⟩ =
        ⟨(point', connection'), client⟩ ∧ point'.Closes incoming sent connection' := by
  obtain ⟨point', connection', hstep, h'⟩ := h.step hne
  refine ⟨point', connection', ?_, h'⟩
  exact serverStep_silent hstep (h'.sent_eq.trans h.sent_eq.symm)

/-- An end whose queue is empty waits while the other end is open. -/
theorem not_canReceive {sent : List Frame} {code : Option UInt8}
    {other : Connection QueueTransport} (h : other.transport.isOpen = true) :
    ¬CanReceive (.live [] sent code) other := by
  rintro (hne | hclosed | hgone)
  · exact hne rfl
  · rw [h] at hclosed
    cases hclosed
  · cases hgone

/-- Every step of the debugger's end leads from a phase to a phase. -/
theorem Phase.serverStep {lines : List String} {s : Pair} (h : Phase lines s)
    (hready : s.ServerReady) (hprompts : s.server.1.Prompts)
    (hlines : ∀ line ∈ lines, Text.stripLineEnd line = line) : Phase lines s.serverStep := by
  obtain ⟨hgoing, hreceive⟩ := hready
  cases h with
  | @working point sent prints code code' rest screen hpoint hprints hreplies hrest hscreen =>
    obtain ⟨point', frames, hstep, hmove⟩ := Server.exists_move hpoint hprompts [] sent code
    rw [serverStep_eq hstep (by rfl)]
    cases hmove with
    | work hpoint' hframes =>
      -- what it prints requests nothing
      have hsame : requests (sent ++ frames) = requests sent := by
        rw [requests_append, requests_of_print hframes, List.append_nil]
      rw [← hsame] at hreplies hrest ⊢
      refine .working hpoint' ?_ hreplies hrest hscreen
      intro f hf
      exact (List.mem_append.1 hf).elim (hprints f) (hframes f)
    | @ask _ q hq =>
      have hone : requests (sent ++ [q]) = requests sent ++ [q] := by
        rw [requests_append, requests_singleton (Server.Point.isRequest_of_pending? hq)]
      exact .asked hq hprints hone hreplies hrest hscreen
    | leave r =>
      have hsame : requests (sent ++ [farewell]) = requests sent := by
        rw [requests_append, requests_farewell, List.append_nil]
      rw [← hsame] at hreplies hrest ⊢
      exact .quitting (.closing r code) hprints hreplies hrest hscreen
  | asked hpoint =>
    exact absurd (hreceive (Server.Point.receives_of_pending? hpoint)) (not_canReceive rfl)
  | answering hpoint =>
    exact absurd (hreceive (Server.Point.receives_of_pending? hpoint)) (not_canReceive rfl)
  | @answered point sent asked q code code' rest screen hpoint hsent hreplies hrest hscreen =>
    -- the line in the place of the request is received as the user typed it
    have hline : ∀ line ∈ lines[asked.length]?, Text.stripLineEnd line = line :=
      fun line hline => hlines line (List.mem_of_getElem? hline)
    have hstep := Server.step_of_pending? [] sent code hpoint hline
    rw [serverStep_silent hstep (by rfl), ← hsent]
    rw [← hsent] at hreplies
    refine .working (Server.Point.isWorking_resume hpoint _)
      (fun _ hf => absurd hf List.not_mem_nil) hreplies ?_ hscreen
    rw [hsent, List.length_append]
    exact hrest
  | @parting p point' connection' sent asked q code rest screen hpoint hline hclient hsent hreplies
      hrest =>
    have hstep : Server.step (.expecting p, .live [farewell] sent code) =
        (.leaving (.ok (), p), .live [] sent (some farewell.code)) := by
      rw [Server.step, Server.receiveLine_farewell]
    have hq : q.role? = some .prompt := by
      rw [← Option.some.inj hpoint]
      exact Frame.role?_ofRole _ _
    rw [serverStep_silent hstep (by rfl)]
    exact .parted hq hline hclient hsent hreplies hrest
  | @parted r point' connection' sent asked q code rest screen hq hline hclient hsent hreplies
      hrest =>
    have hstep : Server.step (.leaving r, .live [] sent code) =
        (.closing r, .live [] (sent ++ [farewell]) code) := rfl
    have hsame : requests (sent ++ [farewell]) = asked ++ [q] := by
      rw [requests_append, requests_farewell, List.append_nil, hsent]
    rw [serverStep_eq hstep (by rfl)]
    exact .crossed (.closing r code) hq hline (hclient.push [farewell]) hsame hreplies hrest
  | quitting hserver hprints hreplies hrest hscreen =>
    obtain ⟨point', connection', hstep, hserver'⟩ := serverStep_of_closes hserver hgoing _
    rw [hstep]
    exact .quitting hserver' hprints hreplies hrest hscreen
  | dismissed hserver hclient hreplies hrest =>
    obtain ⟨point', connection', hstep, hserver'⟩ := serverStep_of_closes hserver hgoing _
    rw [hstep]
    exact .dismissed hserver' hclient hreplies hrest
  | crossed hserver hq hline hclient hsent hreplies hrest =>
    obtain ⟨point', connection', hstep, hserver'⟩ := serverStep_of_closes hserver hgoing _
    rw [hstep]
    exact .crossed hserver' hq hline hclient hsent hreplies hrest

/-! ## Steps of the front end -/

theorem clientStep_eq {s : Pair} {client : Client.Point × Client QueueTransport}
    {frames : List Frame} (hstep : Client.step s.client = client)
    (hsent : client.2.connection.transport.sent = s.clientSent ++ frames) :
    s.clientStep = ⟨(s.server.1, s.server.2.push frames), client⟩ := by
  rw [clientStep, hstep, hsent, List.drop_left]

theorem clientStep_silent {s : Pair} {client : Client.Point × Client QueueTransport}
    (hstep : Client.step s.client = client)
    (hsent : client.2.connection.transport.sent = s.clientSent) :
    s.clientStep = ⟨s.server, client⟩ := by
  rw [clientStep, hstep, hsent, List.drop_length, Connection.push_nil]

/-- An end that closes takes its step alone. -/
theorem clientStep_of_closes {exit : ClientExit} {point : Client.Point}
    {connection : Connection QueueTransport} {incoming sent : List Frame}
    (h : point.Closes exit incoming sent connection) (hne : ∀ r, point ≠ .ended r)
    (server : Server.Point × Connection QueueTransport) (input : List UInt8) (screen : Screen) :
    ∃ point' connection', Pair.clientStep ⟨server, (point, ⟨connection, input, screen⟩)⟩ =
        ⟨server, (point', ⟨connection', input, screen⟩)⟩ ∧
      point'.Closes exit incoming sent connection' := by
  obtain ⟨point', connection', hstep, h'⟩ := h.step hne input screen
  refine ⟨point', connection', ?_, h'⟩
  exact clientStep_silent hstep (h'.sent_eq.trans h.sent_eq.symm)

/-- What is printed is shown before anything behind it. -/
theorem clientStep_of_print {f : Frame} {screen : Screen} (hf : f.role? = some .print)
    (hscreen : screen.limit = none) (server : Server.Point × Connection QueueTransport)
    (incoming sent : List Frame) (code : Option UInt8) (input : List UInt8) :
    ∃ screen', Pair.clientStep
        ⟨server, (.listening, ⟨.live (f :: incoming) sent code, input, screen⟩)⟩ =
      ⟨server, (.listening, ⟨.live incoming sent (some f.code), input, screen'⟩)⟩ ∧
        screen'.limit = none := by
  obtain ⟨screen', hstep, hscreen'⟩ := Client.step_print hf hscreen incoming sent code input
  refine ⟨screen', ?_, hscreen'⟩
  exact clientStep_silent hstep rfl

/-- Every step of the front end leads from a phase to a phase. -/
theorem Phase.clientStep {lines : List String} {s : Pair} (h : Phase lines s)
    (hready : s.ClientReady) : Phase lines s.clientStep := by
  obtain ⟨hgoing, hreceive⟩ := hready
  cases h with
  | @working point sent prints code code' rest screen hpoint hprints hreplies hrest hscreen =>
    cases prints with
    | nil => exact absurd (hreceive rfl) (not_canReceive rfl)
    | cons f prints =>
      obtain ⟨screen', hstep, hscreen'⟩ :=
        clientStep_of_print (hprints f List.mem_cons_self) hscreen _ prints _ code' _
      rw [hstep]
      exact .working hpoint (fun g hg => hprints g (List.mem_cons_of_mem f hg)) hreplies hrest
        hscreen'
  | @asked point sent prints asked q code code' rest screen hpoint hprints hsent hreplies hrest
      hscreen =>
    cases prints with
    | nil =>
      obtain ⟨point', rest', screen', hstep, hholds, hrest', hscreen'⟩ := Client.step_request
        (Server.Point.isRequest_of_pending? hpoint) hscreen [] (answers asked lines) code' rest
      rw [hrest, List.head?_drop] at hholds
      rw [hrest, List.tail_drop] at hrest'
      rw [List.nil_append] at *
      rw [clientStep_silent hstep (by rfl)]
      exact .answering hpoint hholds hsent hreplies hrest' hscreen'
    | cons f prints =>
      obtain ⟨screen', hstep, hscreen'⟩ :=
        clientStep_of_print (hprints f List.mem_cons_self) hscreen _ (prints ++ [q]) _ code' _
      rw [List.cons_append, hstep]
      exact .asked hpoint (fun g hg => hprints g (List.mem_cons_of_mem f hg)) hsent hreplies hrest
        hscreen'
  | @answering point point' sent asked q code code' rest screen hpoint hpoint' hsent hreplies hrest
      hscreen =>
    generalize hanswer : q.answer lines[asked.length]? = a at hpoint'
    cases hpoint' with
    | reply text =>
      have hall := hreplies.append hanswer
      have hconcat := answers_append_singleton asked q lines
      rw [hanswer] at hconcat
      have hstep := Client.step_answering text [] (answers asked lines) code' (Text.utf8Bytes rest)
        screen
      rw [clientStep_eq hstep (by rfl), ← hconcat]
      show Phase lines ⟨(point, .live [.reply text] sent code), _⟩
      rw [← hanswer]
      exact .answered hpoint hsent hall hrest hscreen
    | farewell =>
      -- a question has a default, so the front end leaves at a prompt only
      obtain ⟨p, rfl, hline⟩ := expecting_of_answer_eq_farewell hpoint hanswer
      have hconcat := answers_append_singleton asked q lines
      rw [hanswer] at hconcat
      have hstep := Client.step_leaving [] (answers asked lines) code' (Text.utf8Bytes rest) screen
      rw [clientStep_eq hstep (by rfl), ← hconcat]
      exact .parting hpoint hline (.closing code') hsent hreplies hrest
  | answered => exact absurd (hreceive rfl) (not_canReceive rfl)
  | parting hpoint hline hclient hsent hreplies hrest =>
    obtain ⟨point', connection', hstep, hclient'⟩ := clientStep_of_closes hclient hgoing _ _ _
    rw [hstep]
    exact .parting hpoint hline hclient' hsent hreplies hrest
  | parted hq hline hclient hsent hreplies hrest =>
    obtain ⟨point', connection', hstep, hclient'⟩ := clientStep_of_closes hclient hgoing _ _ _
    rw [hstep]
    exact .parted hq hline hclient' hsent hreplies hrest
  | @quitting point connection sent prints code' rest screen hserver hprints hreplies hrest
      hscreen =>
    cases prints with
    | nil =>
      have hstep := Client.step_farewell [] (answers (requests sent) lines) code'
        (Text.utf8Bytes rest) screen
      rw [List.nil_append, clientStep_silent hstep (by rfl)]
      exact .dismissed hserver (.closing _) hreplies hrest
    | cons f prints =>
      obtain ⟨screen', hstep, hscreen'⟩ := clientStep_of_print (hprints f List.mem_cons_self)
        hscreen _ (prints ++ [farewell]) _ code' _
      rw [List.cons_append, hstep]
      exact .quitting hserver (fun g hg => hprints g (List.mem_cons_of_mem f hg)) hreplies hrest
        hscreen'
  | dismissed hserver hclient hreplies hrest =>
    obtain ⟨point', connection', hstep, hclient'⟩ := clientStep_of_closes hclient hgoing _ _ _
    rw [hstep]
    exact .dismissed hserver hclient' hreplies hrest
  | crossed hserver hq hline hclient hsent hreplies hrest =>
    obtain ⟨point', connection', hstep, hclient'⟩ := clientStep_of_closes hclient hgoing _ _ _
    rw [hstep]
    exact .crossed hserver hq hline hclient' hsent hreplies hrest

end Pair

end BytecodeDebugger
