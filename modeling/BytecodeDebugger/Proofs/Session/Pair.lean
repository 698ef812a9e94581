import BytecodeDebugger.Proofs.Session.DebuggerEnd
import BytecodeDebugger.Proofs.Session.FrontEnd

/-!
# Two ends and two queues

The debugger's end and a front end, joined by two queues: what one of them sends arrives at the
other one, in its order. The two take their steps in any order. An end that has come to receive a
frame waits until there is one, or until the other end has closed its transport.

As long as no end receives from an empty queue, each of them does what it would do on its own with
all that the other one sends.

Main facts: `Reachable.replays` (what each end has done is a run of its own machine) and
`Replays.server_eq_run` (in the end, each end has come to what its program comes to on its own).
-/

namespace BytecodeDebugger

/-- The two ends of a session. -/
structure Pair where
  server : Server.Point × Connection QueueTransport
  client : Client.Point × Client QueueTransport

namespace Pair

/-- A connection opened over a fresh transport. -/
def opened : Connection QueueTransport := ((Connection.new QueueTransport.new).connect).2

/-- A front end with the text of its user. -/
def frontEnd (text : String) : Client QueueTransport := ⟨opened, Text.utf8Bytes text, .blank none⟩

/-- A processor and the front end of a user who types a text, before the first step. -/
def start (p : Processor) (text : String) : Pair where
  server := (.prompting p, opened)
  client := (.listening, frontEnd text)

/-- The frames that the debugger's end has sent. -/
def serverSent (s : Pair) : List Frame := s.server.2.transport.sent

/-- The frames that the front end has sent. -/
def clientSent (s : Pair) : List Frame := s.client.2.connection.transport.sent

/-- The frames on their way to the debugger's end. -/
def toServer (s : Pair) : List Frame := s.server.2.transport.incoming

/-- The frames on their way to the front end. -/
def toClient (s : Pair) : List Frame := s.client.2.connection.transport.incoming

/-! ## Steps -/

/-- A step of the debugger's end. What it sends arrives at the front end. -/
def serverStep (s : Pair) : Pair :=
  let server := Server.step s.server
  ⟨server, (s.client.1, s.client.2.push (server.2.transport.sent.drop s.serverSent.length))⟩

/-- A step of the front end. What it sends arrives at the debugger's end. -/
def clientStep (s : Pair) : Pair :=
  let client := Client.step s.client
  ⟨(s.server.1,
      s.server.2.push (client.2.connection.transport.sent.drop s.clientSent.length)), client⟩

/-- Whether an end need not wait for a frame: there is one, none will ever come from the other end,
or the end has closed its own connection. -/
def CanReceive (own other : Connection QueueTransport) : Prop :=
  own.transport.incoming ≠ [] ∨ other.transport.isOpen = false ∨ own.isConnected = false

/-- Whether the debugger's end can take a step. -/
def ServerReady (s : Pair) : Prop :=
  (∀ r, s.server.1 ≠ .ended r) ∧
    (s.server.1.receives = true → CanReceive s.server.2 s.client.2.connection)

/-- Whether the front end can take a step. -/
def ClientReady (s : Pair) : Prop :=
  (∀ r, s.client.1 ≠ .ended r) ∧
    (s.client.1.receives = true → CanReceive s.client.2.connection s.server.2)

/-- One of the ends takes a step. -/
inductive Step : Pair → Pair → Prop
  | server {s : Pair} (h : s.ServerReady) : Step s s.serverStep
  | client {s : Pair} (h : s.ClientReady) : Step s s.clientStep

/-- What a session can get to in any order of steps. -/
def Reachable (p : Processor) (text : String) : Pair → Prop :=
  Relation.ReflTransGen Step (start p text)

/-! ## Steps in a given order -/

instance (own other : Connection QueueTransport) : Decidable (CanReceive own other) :=
  inferInstanceAs (Decidable (_ ∨ _ ∨ _))

instance (point : Server.Point) : Decidable (∀ r, point ≠ .ended r) :=
  match point with
  | .ended r => isFalse fun h => h r rfl
  | .prompting _ | .expecting _ | .talking _ | .waiting _ _ _ | .insisting _ _ _ | .leaving _
  | .closing _ => isTrue fun _ h => Server.Point.noConfusion h

instance (point : Client.Point) : Decidable (∀ r, point ≠ .ended r) :=
  match point with
  | .ended r => isFalse fun h => h r rfl
  | .listening | .answering _ | .leaving | .closing _ => isTrue nofun

instance (s : Pair) : Decidable s.ServerReady := inferInstanceAs (Decidable (_ ∧ _))

instance (s : Pair) : Decidable s.ClientReady := inferInstanceAs (Decidable (_ ∧ _))

/-- One of the two ends. -/
inductive Side where
  | server
  | client
  deriving DecidableEq, Repr

/-- The session after steps in the given order, or up to an end that cannot take its step. -/
def follow (s : Pair) : List Side → Pair
  | [] => s
  | .server :: rest => if s.ServerReady then s.serverStep.follow rest else s
  | .client :: rest => if s.ClientReady then s.clientStep.follow rest else s

/-- Steps in a given order lead to what can be reached. -/
theorem Reachable.follow {p : Processor} {text : String} {s : Pair} (h : Reachable p text s)
    (sides : List Side) : Reachable p text (s.follow sides) := by
  induction sides generalizing s with
  | nil => exact h
  | cons side rest ih =>
    cases side with
    | server =>
      rw [Pair.follow]
      split
      · next hready => exact ih (h.tail (.server hready))
      · exact h
    | client =>
      rw [Pair.follow]
      split
      · next hready => exact ih (h.tail (.client hready))
      · exact h

/-! ## Each end on its own -/

/-- No end is about to receive from an empty queue that the other end has closed. -/
structure Fed (s : Pair) : Prop where
  server : s.ServerReady → s.server.1.receives = true → s.toServer ≠ []
  client : s.ClientReady → s.client.1.receives = true → s.toClient ≠ []

/-- What each end has done is a run of its machine with all frames that the other end has sent, and
further frames would not have changed it. -/
structure Replays (p : Processor) (text : String) (s : Pair) : Prop where
  server : ∀ frames, Runs Server.step
    (.prompting p, opened.push (s.clientSent ++ frames)) (s.server.1, s.server.2.push frames)
  client : ∀ frames, Runs Client.step
    (.listening, (frontEnd text).push (s.serverSent ++ frames))
    (s.client.1, s.client.2.push frames)

theorem replays_start (p : Processor) (text : String) : Replays p text (start p text) :=
  ⟨fun _ => .refl, fun _ => .refl⟩

/-- A step of the debugger's end is one of its machine, and only lets frames arrive at the other. -/
theorem Replays.serverStep {p : Processor} {text : String} {s : Pair} (h : Replays p text s)
    (hfed : s.server.1.receives = true → s.toServer ≠ []) : Replays p text s.serverStep := by
  obtain ⟨more, hsent⟩ := (Server.call_step s.server).sent_extends
  have hdrop : (Server.step s.server).2.transport.sent.drop s.serverSent.length = more := by
    rw [← hsent]
    exact List.drop_left
  constructor
  · intro frames
    -- its step is the same with the frames that are still to come
    have hstep := (h.server frames).tail
    rw [Server.step_push hfed] at hstep
    exact hstep
  · intro frames
    -- what it sends is queued before the frames that are still to come
    have hclient := h.client (more ++ frames)
    rw [← List.append_assoc, show s.serverSent ++ more = _ from hsent] at hclient
    show Runs Client.step _ (s.client.1, (s.client.2.push _).push frames)
    rw [hdrop, Client.push_push]
    exact hclient

/-- A step of the front end is one of its machine, and only lets frames arrive at the other. -/
theorem Replays.clientStep {p : Processor} {text : String} {s : Pair} (h : Replays p text s)
    (hfed : s.client.1.receives = true → s.toClient ≠ []) : Replays p text s.clientStep := by
  obtain ⟨more, hsent⟩ := (Client.call_step s.client).sent_extends
  have hdrop : (Client.step s.client).2.connection.transport.sent.drop s.clientSent.length =
      more := by
    rw [← hsent]
    exact List.drop_left
  constructor
  · intro frames
    -- what it sends is queued before the frames that are still to come
    have hserver := h.server (more ++ frames)
    rw [← List.append_assoc, show s.clientSent ++ more = _ from hsent] at hserver
    show Runs Server.step _ (s.server.1, (s.server.2.push _).push frames)
    rw [hdrop, Connection.push_push]
    exact hserver
  · intro frames
    -- its step is the same with the frames that are still to come
    have hstep := (h.client frames).tail
    rw [Client.step_push hfed] at hstep
    exact hstep

/-- If no end that waits is ever at the end of its queue, each end does what its machine does. -/
theorem Reachable.replays {p : Processor} {text : String} {s : Pair} (h : Reachable p text s)
    (hfed : ∀ t, Reachable p text t → t.Fed) : Replays p text s := by
  induction h with
  | refl => exact replays_start p text
  | tail hreach hstep ih =>
    cases hstep with
    | server hready => exact ih.serverStep ((hfed _ hreach).server hready)
    | client hready => exact ih.clientStep ((hfed _ hreach).client hready)

/-- In the end, the debugger's end has come to what the processor comes to with the frames that the
front end has sent, and has let the front end go. -/
theorem Replays.server_eq_run {p : Processor} {text : String} {s : Pair} (h : Replays p text s)
    {r : Except ConnectError Unit × Processor} (hended : s.server.1 = .ended r) :
    s.server =
      (.ended (p.run Server.interface (opened.push s.clientSent)).1,
        (p.run Server.interface (opened.push s.clientSent)).2.finalize .quit) := by
  have hpair := h.server []
  rw [List.append_nil, Connection.push_nil] at hpair
  have halone := Server.runs_run p (opened.push s.clientSent)
  refine hpair.eq_of_fixed ?_ rfl halone
  show Server.step (s.server.1, s.server.2) = (s.server.1, s.server.2)
  rw [hended]
  rfl

/-- In the end, the front end has come to what it comes to on its own with the frames that the
debugger's end has sent. -/
theorem Replays.client_eq_run {p : Processor} {text : String} {s : Pair} (h : Replays p text s)
    {r : Except ClientError ClientExit} (hended : s.client.1 = .ended r) :
    s.client =
      (.ended (Client.run.on ((frontEnd text).push s.serverSent)).1,
        (Client.run.on ((frontEnd text).push s.serverSent)).2) := by
  have hpair := h.client []
  rw [List.append_nil, Client.push_nil] at hpair
  have halone := Client.runs_run ((frontEnd text).push s.serverSent)
  refine hpair.eq_of_fixed ?_ rfl halone
  show Client.step (s.client.1, s.client.2) = (s.client.1, s.client.2)
  rw [hended]
  rfl

end Pair

end BytecodeDebugger
