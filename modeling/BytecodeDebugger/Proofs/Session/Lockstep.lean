import BytecodeDebugger.Proofs.Session.Phases

/-!
# Server and client in step

The debugger's end and its front end never lose each other: whatever the order of their steps, no
more than one request is unanswered, each request is answered with the line of the user in its
place, and one of the two can go on until both have returned.

Main facts: `Reachable.phase` (a session is always in one of its phases) and `Reachable.inStep` (the
two ends are in step).
-/

namespace BytecodeDebugger.Pair

/-! ## What holds throughout a session -/

/-- Both ends have returned. -/
def Ended (s : Pair) : Prop := (∃ r, s.server.1 = .ended r) ∧ ∃ r, s.client.1 = .ended r

instance (s : Pair) : Decidable s.Ended :=
  decidable_of_iff (¬(∀ r, s.server.1 ≠ .ended r) ∧ ¬∀ r, s.client.1 ≠ .ended r)
    (by simp [Ended])

/-- The two ends are in step: what they have sent fits together, and with the lines of the user. -/
structure InStep (p : Processor) (text : String) (s : Pair) : Prop where
  /-- The debugger's end has got an answer to each of its requests, but for one that it waits for.
  An answer is the one to the request in its place, made of the user's line in that place or, after
  the last line, of the default. There is an answer on its way only while it is waited for, and then
  the debugger's end goes on with the user's line. -/
  answered : ∃ asked,
    requests s.serverSent = asked ++ s.server.1.pending?.toList ∧
      s.clientSent = answers asked (userLines text) ++ s.toServer ∧
      (s.toServer ≠ [] → ∃ q, s.server.1.pending? = some q ∧
        s.toServer = [q.answer (userLines text)[asked.length]?] ∧
        (Server.step s.server).1 = s.server.1.resume (userLines text)[asked.length]?)
  /-- The front end has taken one line for each request that has arrived, and has the others. -/
  input : ∃ arrived rest,
    requests s.serverSent = arrived ++ requests s.toClient ∧
      s.client.2.input = Text.utf8Bytes rest ∧
      userLines rest = (userLines text).drop arrived.length
  /-- There is no deadlock. -/
  progress : s.Ended ∨ s.ServerReady ∨ s.ClientReady
  /-- In the end both connections are closed. The front end was told that the debugger quits, and
  has answered all requests with replies; or its input had ended at the last prompt. -/
  closed : s.Ended → s.server.2.state = .disconnected ∧
    s.client.2.connection.state = .disconnected ∧
    (s.client.1 = .ended (.ok .serverQuit) ∧ (∀ f ∈ s.clientSent, f.role? = none) ∨
      s.client.1 = .ended (.ok .inputClosed) ∧
        ∃ asked q, requests s.serverSent = asked ++ [q] ∧ q.role? = some .prompt ∧
          (userLines text).length ≤ asked.length)
  /-- In the end, each end has come to what its program comes to with what the other one sent. -/
  returned : s.Ended →
    s.server =
        (.ended (p.run Server.interface (opened.push s.clientSent)).1,
          (p.run Server.interface (opened.push s.clientSent)).2.finalize .quit) ∧
      s.client =
        (.ended (Client.run.on ((frontEnd text).push s.serverSent)).1,
          (Client.run.on ((frontEnd text).push s.serverSent)).2)

/-! ## Phases -/

/-- A session is always in one of its phases, and the prompt of its processor is not empty. -/
theorem Reachable.phase {p : Processor} {text : String} {s : Pair} (hprompt : p.prompt ≠ "")
    (h : Reachable p text s) : Phase (userLines text) s ∧ s.server.1.Prompts := by
  induction h with
  | refl => exact ⟨phase_start p text, hprompt⟩
  | tail _ hstep ih =>
    obtain ⟨hphase, hprompts⟩ := ih
    cases hstep with
    | server hready =>
      have hnext := hphase.serverStep hready hprompts
        fun line hline => stripLineEnd_of_mem_userLines hline
      exact ⟨hnext, Server.prompts_step hprompts⟩
    | client hready => exact ⟨hphase.clientStep hready, hprompts⟩

variable {lines : List String} {s : Pair}

/-- No end is about to receive from an empty queue. -/
theorem Phase.fed (h : Phase lines s) : s.Fed := by
  constructor
  · rintro ⟨-, hcan⟩ hreceives
    cases h with
    | working hpoint =>
      exact Bool.noConfusion (hreceives.symm.trans (Server.Point.receives_of_isWorking hpoint))
    | asked => exact absurd (hcan hreceives) (not_canReceive rfl)
    | answering => exact absurd (hcan hreceives) (not_canReceive rfl)
    | answered => exact List.cons_ne_nil _ _
    | parting => exact List.cons_ne_nil _ _
    | parted => cases hreceives
    | quitting hserver => exact Bool.noConfusion (hreceives.symm.trans hserver.receives_eq)
    | dismissed hserver => exact Bool.noConfusion (hreceives.symm.trans hserver.receives_eq)
    | crossed hserver => exact Bool.noConfusion (hreceives.symm.trans hserver.receives_eq)
  · rintro ⟨-, hcan⟩ hreceives
    cases h with
    | @working _ _ prints =>
      cases prints with
      | nil => exact absurd (hcan hreceives) (not_canReceive rfl)
      | cons f prints => exact List.cons_ne_nil _ _
    | asked => exact List.append_ne_nil_of_right_ne_nil _ (List.cons_ne_nil _ _)
    | answering _ hpoint' => exact Bool.noConfusion (hreceives.symm.trans hpoint'.receives_eq)
    | answered => exact absurd (hcan hreceives) (not_canReceive rfl)
    | parting _ _ hclient => exact Bool.noConfusion (hreceives.symm.trans hclient.receives_eq)
    | parted _ _ hclient => exact Bool.noConfusion (hreceives.symm.trans hclient.receives_eq)
    | quitting => exact List.append_ne_nil_of_right_ne_nil _ (List.cons_ne_nil _ _)
    | dismissed _ hclient => exact Bool.noConfusion (hreceives.symm.trans hclient.receives_eq)
    | crossed _ _ _ hclient => exact Bool.noConfusion (hreceives.symm.trans hclient.receives_eq)

/-- The debugger's end can take a step that does not receive. -/
theorem serverReady_of_receives_eq (hne : ∀ r, s.server.1 ≠ .ended r)
    (h : s.server.1.receives = false) : s.ServerReady :=
  ⟨hne, fun hreceives => Bool.noConfusion (hreceives.symm.trans h)⟩

/-- The front end can take a step that does not receive. -/
theorem clientReady_of_receives_eq (hne : ∀ r, s.client.1 ≠ .ended r)
    (h : s.client.1.receives = false) : s.ClientReady :=
  ⟨hne, fun hreceives => Bool.noConfusion (hreceives.symm.trans h)⟩

/-- Ends that close their connections can go on until both have returned. -/
theorem progress_of_closes {incoming sent incoming' sent' : List Frame} {exit : ClientExit}
    (hserver : s.server.1.Closes incoming sent s.server.2)
    (hclient : s.client.1.Closes exit incoming' sent' s.client.2.connection) :
    s.Ended ∨ s.ServerReady ∨ s.ClientReady := by
  by_cases hs : ∃ r, s.server.1 = .ended r
  · by_cases hc : ∃ r, s.client.1 = .ended r
    · exact .inl ⟨hs, hc⟩
    · exact .inr (.inr (clientReady_of_receives_eq (fun r hr => hc ⟨r, hr⟩) hclient.receives_eq))
  · exact .inr (.inl (serverReady_of_receives_eq (fun r hr => hs ⟨r, hr⟩) hserver.receives_eq))

/-- One of the ends can take a step until both have returned. -/
theorem Phase.progress (h : Phase lines s) : s.Ended ∨ s.ServerReady ∨ s.ClientReady := by
  cases h with
  | @working point sent prints code code' rest screen hpoint =>
    have hne : ∀ r, point ≠ .ended r := by
      rintro r rfl
      cases hpoint
    have hreceives := Server.Point.receives_of_isWorking hpoint
    exact .inr (.inl (serverReady_of_receives_eq hne hreceives))
  | asked =>
    refine .inr (.inr ⟨fun r hr => Client.Point.noConfusion hr, fun _ => .inl ?_⟩)
    exact List.append_ne_nil_of_right_ne_nil _ (List.cons_ne_nil _ _)
  | answering _ hpoint' =>
    exact .inr (.inr (clientReady_of_receives_eq hpoint'.ne_ended hpoint'.receives_eq))
  | @answered point sent asked q code code' rest screen hpoint =>
    have hne : ∀ r, point ≠ .ended r := by
      rintro r rfl
      cases hpoint
    exact .inr (.inl ⟨hne, fun _ => .inl (List.cons_ne_nil _ _)⟩)
  | parting =>
    exact .inr (.inl ⟨fun r hr => Server.Point.noConfusion hr,
      fun _ => .inl (List.cons_ne_nil _ _)⟩)
  | parted =>
    exact .inr (.inl (serverReady_of_receives_eq (fun r hr => Server.Point.noConfusion hr) rfl))
  | quitting =>
    refine .inr (.inr ⟨fun r hr => Client.Point.noConfusion hr, fun _ => .inl ?_⟩)
    exact List.append_ne_nil_of_right_ne_nil _ (List.cons_ne_nil _ _)
  | dismissed hserver hclient => exact progress_of_closes hserver hclient
  | crossed hserver _ _ hclient => exact progress_of_closes hserver hclient

/-- Requests and answers fit together in every phase. -/
theorem Phase.answered_eq (h : Phase lines s)
    (hlines : ∀ line ∈ lines, Text.stripLineEnd line = line) :
    ∃ asked, requests s.serverSent = asked ++ s.server.1.pending?.toList ∧
      s.clientSent = answers asked lines ++ s.toServer ∧
      (s.toServer ≠ [] → ∃ q, s.server.1.pending? = some q ∧
        s.toServer = [q.answer lines[asked.length]?] ∧
        (Server.step s.server).1 = s.server.1.resume lines[asked.length]?) := by
  -- with nothing awaited and nothing on its way, all requests are answered
  have hidle : ∀ asked, s.server.1.pending? = none → requests s.serverSent = asked →
      s.clientSent = answers asked lines → s.toServer = [] →
        ∃ asked, requests s.serverSent = asked ++ s.server.1.pending?.toList ∧
          s.clientSent = answers asked lines ++ s.toServer ∧
          (s.toServer ≠ [] → ∃ q, s.server.1.pending? = some q ∧
            s.toServer = [q.answer lines[asked.length]?] ∧
            (Server.step s.server).1 = s.server.1.resume lines[asked.length]?) := by
    intro asked hpending hsent hanswers hempty
    refine ⟨asked, ?_, ?_, fun hne => absurd hempty hne⟩
    · rw [hsent, hpending, Option.toList_none, List.append_nil]
    · rw [hanswers, hempty, List.append_nil]
  cases h with
  | working hpoint => exact hidle _ (Server.Point.pending?_of_isWorking hpoint) rfl rfl rfl
  | @asked point sent prints asked q code code' rest screen hpoint hprints hsent =>
    refine ⟨asked, ?_, (List.append_nil _).symm, fun hne => absurd rfl hne⟩
    show requests sent = asked ++ point.pending?.toList
    rw [hsent, hpoint]
    rfl
  | @answering point point' sent asked q code code' rest screen hpoint hpoint' hsent =>
    refine ⟨asked, ?_, (List.append_nil _).symm, fun hne => absurd rfl hne⟩
    show requests sent = asked ++ point.pending?.toList
    rw [hsent, hpoint]
    rfl
  | @answered point sent asked q code code' rest screen hpoint hsent =>
    refine ⟨asked, ?_, answers_append_singleton asked q lines, fun _ => ⟨q, hpoint, rfl, ?_⟩⟩
    · show requests sent = asked ++ point.pending?.toList
      rw [hsent, hpoint]
      rfl
    · have hline : ∀ line ∈ lines[asked.length]?, Text.stripLineEnd line = line :=
        fun line hline => hlines line (List.mem_of_getElem? hline)
      exact congrArg Prod.fst (Server.step_of_pending? _ _ _ hpoint hline)
  | @parting p point' connection' sent asked q code rest screen hpoint hline hclient hsent =>
    have hanswer : q.answer none = farewell := by
      rw [← Option.some.inj hpoint]
      rfl
    have hconcat := answers_append_singleton asked q lines
    rw [hline, hanswer] at hconcat
    refine ⟨asked, ?_, hclient.sent_eq.trans hconcat, fun _ => ⟨q, hpoint, ?_, ?_⟩⟩
    · show requests sent = asked ++ (Server.Point.expecting p).pending?.toList
      rw [hsent, hpoint]
      rfl
    · rw [hline, hanswer]
      rfl
    · have hnone : ∀ line ∈ (none : Option String), Text.stripLineEnd line = line := nofun
      have hstep := Server.step_of_pending? [] sent code hpoint hnone
      rw [hanswer] at hstep
      rw [hline]
      exact congrArg Prod.fst hstep
  | parted hq hline hclient hsent =>
    exact hidle _ rfl hsent hclient.sent_eq rfl
  | quitting hserver =>
    exact hidle _ hserver.pending?_eq (congrArg requests hserver.sent_eq) rfl hserver.incoming_eq
  | dismissed hserver hclient =>
    exact hidle _ hserver.pending?_eq (congrArg requests hserver.sent_eq) hclient.sent_eq
      hserver.incoming_eq
  | crossed hserver hq hline hclient hsent =>
    refine hidle _ hserver.pending?_eq ?_ hclient.sent_eq hserver.incoming_eq
    exact (congrArg requests hserver.sent_eq).trans hsent

/-- The input that is left fits the requests that have arrived in every phase. -/
theorem Phase.input_eq (h : Phase lines s) :
    ∃ arrived rest, requests s.serverSent = arrived ++ requests s.toClient ∧
      s.client.2.input = Text.utf8Bytes rest ∧ userLines rest = lines.drop arrived.length := by
  -- with no request on its way, all of them have arrived
  have hall : ∀ {rest}, requests s.toClient = [] → s.client.2.input = Text.utf8Bytes rest →
      userLines rest = lines.drop (requests s.serverSent).length →
        ∃ arrived rest, requests s.serverSent = arrived ++ requests s.toClient ∧
          s.client.2.input = Text.utf8Bytes rest ∧
          userLines rest = lines.drop arrived.length := by
    intro rest hnone hinput hrest
    refine ⟨requests s.serverSent, rest, ?_, hinput, hrest⟩
    rw [hnone, List.append_nil]
  have hone : ∀ {rest : String} {asked : List Frame} {q : Frame} {sent : List Frame},
      requests sent = asked ++ [q] → userLines rest = lines.drop (asked.length + 1) →
        userLines rest = lines.drop (requests sent).length := by
    intro rest asked q sent hsent hrest
    rw [hsent, List.length_append]
    exact hrest
  cases h with
  | working hpoint hprints hreplies hrest => exact hall (requests_of_print hprints) rfl hrest
  | @asked point sent prints asked q code code' rest screen hpoint hprints hsent hreplies hrest =>
    have hq := requests_singleton (Server.Point.isRequest_of_pending? hpoint)
    refine ⟨asked, rest, ?_, rfl, hrest⟩
    show requests sent = asked ++ requests (prints ++ [q])
    rw [requests_append, requests_of_print hprints, hq, hsent, List.nil_append]
  | answering hpoint hpoint' hsent hreplies hrest => exact hall rfl rfl (hone hsent hrest)
  | answered hpoint hsent hreplies hrest => exact hall rfl rfl (hone hsent hrest)
  | parting hpoint hline hclient hsent hreplies hrest =>
    exact hall (congrArg requests hclient.incoming_eq) rfl (hone hsent hrest)
  | parted hq hline hclient hsent hreplies hrest =>
    exact hall (congrArg requests hclient.incoming_eq) rfl (hone hsent hrest)
  | @quitting point connection sent prints code' rest screen hserver hprints hreplies hrest =>
    refine hall ?_ rfl ?_
    · show requests (prints ++ [farewell]) = []
      rw [requests_append, requests_of_print hprints, requests_farewell, List.append_nil]
    · rw [serverSent, hserver.sent_eq]
      exact hrest
  | dismissed hserver hclient hreplies hrest =>
    refine hall (congrArg requests hclient.incoming_eq) rfl ?_
    rw [serverSent, hserver.sent_eq]
    exact hrest
  | crossed hserver hq hline hclient hsent hreplies hrest =>
    refine hall (congrArg requests hclient.incoming_eq) rfl ?_
    rw [serverSent, hserver.sent_eq]
    exact hone hsent hrest

/-- What both ends have come to when they have returned. -/
theorem Phase.closed (h : Phase lines s) (hended : s.Ended) :
    s.server.2.state = .disconnected ∧ s.client.2.connection.state = .disconnected ∧
      (s.client.1 = .ended (.ok .serverQuit) ∧ (∀ f ∈ s.clientSent, f.role? = none) ∨
        s.client.1 = .ended (.ok .inputClosed) ∧
          ∃ asked q, requests s.serverSent = asked ++ [q] ∧ q.role? = some .prompt ∧
            lines.length ≤ asked.length) := by
  obtain ⟨⟨r, hr⟩, ⟨r', hr'⟩⟩ := hended
  cases h with
  | working => cases hr'
  | asked => cases hr'
  | answering hpoint hpoint' => exact absurd hr' (hpoint'.ne_ended r')
  | answered => cases hr'
  | parting => cases hr
  | parted => cases hr
  | quitting => cases hr'
  | dismissed hserver hclient hreplies =>
    obtain ⟨hstate, hexit⟩ := hclient.state_eq hr'
    refine ⟨hserver.state_eq hr, hstate, .inl ⟨hexit, ?_⟩⟩
    rw [clientSent, hclient.sent_eq]
    exact hreplies
  | @crossed point point' connection connection' sent asked q rest screen hserver hq hline hclient
      hsent =>
    obtain ⟨hstate, hexit⟩ := hclient.state_eq hr'
    refine ⟨hserver.state_eq hr, hstate, .inr ⟨hexit, asked, q, ?_, hq, ?_⟩⟩
    · rw [serverSent, hserver.sent_eq]
      exact hsent
    · exact List.getElem?_eq_none_iff.1 hline

/-! ## In step -/

/-- Whatever the order of their steps, the debugger's end and the front end are in step. -/
theorem Reachable.inStep (p : Processor) (hprompt : p.prompt ≠ "") (text : String) (s : Pair)
    (h : Reachable p text s) : s.InStep p text := by
  have hphase := (h.phase hprompt).1
  have hreplays := h.replays fun t ht => (Reachable.phase hprompt ht).1.fed
  constructor
  · exact hphase.answered_eq fun line hline => stripLineEnd_of_mem_userLines hline
  · exact hphase.input_eq
  · exact hphase.progress
  · exact hphase.closed
  · rintro ⟨⟨r, hr⟩, ⟨r', hr'⟩⟩
    exact ⟨hreplays.server_eq_run hr, hreplays.client_eq_run hr'⟩

/-- A processor with the built-in commands. -/
def builtinProcessor : Processor := .new .initial .unknown

/-- The session of a user who quits and confirms it, with its steps in one of the possible orders. -/
def confirmedQuit : Pair :=
  (start builtinProcessor "quit\ny\n").follow
    [.server, .client, .client, .server, .server, .client, .client, .server, .server, .server,
      .client, .server, .client]

/-- The debugger prompts, the line of the user makes it ask, and the second line answers. So it tells
the front end that it quits, and both return. -/
theorem confirmedQuit_inStep :
    builtinProcessor.prompt ≠ "" ∧ Reachable builtinProcessor "quit\ny\n" confirmedQuit ∧
      confirmedQuit.InStep builtinProcessor "quit\ny\n" ∧ confirmedQuit.Ended ∧
      confirmedQuit.serverSent =
        [⟨63, "(vmdbg) \n"⟩, ⟨78, "Really quit?\n"⟩, ⟨113, "\n"⟩] ∧
      confirmedQuit.clientSent = [.reply "quit", .reply "y"] := by
  have hprompt : builtinProcessor.prompt ≠ "" := by decide
  have hreach : Reachable builtinProcessor "quit\ny\n" confirmedQuit := .follow .refl _
  have hinStep := Reachable.inStep builtinProcessor hprompt "quit\ny\n" confirmedQuit hreach
  exact ⟨hprompt, hreach, hinStep, by decide +kernel, by decide +kernel, by decide +kernel⟩

end BytecodeDebugger.Pair
