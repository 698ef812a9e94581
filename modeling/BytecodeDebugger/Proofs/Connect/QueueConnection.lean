import BytecodeDebugger.Connect.Connection
import BytecodeDebugger.Connect.Queue
import Mathlib.Tactic.Common

/-!
# Connections over queues

How the calls on a connection act when its transport is a queue. While it is open, sending keeps a
frame and receiving takes one off; once it is closed, it stays as it is. Frames that are queued
behind the others change nothing about a call, as long as it does not come to the end of the queue.

Main facts: `writeLine_live` and `receive_live` (calls on an open connection),
`incoming_eq_of_receive` (a frame is taken off the queue), `send_push` and `receive_push` (further
frames change nothing).
-/

namespace BytecodeDebugger

namespace QueueTransport

theorem incoming_send (t : QueueTransport) (f : Frame) :
    (Transport.send f t).2.incoming = t.incoming := by
  obtain ⟨incoming, sent, isOpen, opens, failOpen, failSend⟩ := t
  cases isOpen <;> cases failSend <;> rfl

/-- Sending keeps the frames sent before. -/
theorem sent_prefix_send (t : QueueTransport) (f : Frame) :
    t.sent <+: (Transport.send f t).2.sent := by
  obtain ⟨incoming, sent, isOpen, opens, failOpen, failSend⟩ := t
  cases isOpen <;> cases failSend
  · exact List.prefix_rfl
  · exact List.prefix_rfl
  · exact List.prefix_append sent [f]
  · exact List.prefix_rfl

theorem sent_receive (t : QueueTransport) : (Transport.receive t).2.sent = t.sent := by
  obtain ⟨incoming, sent, isOpen, opens, failOpen, failSend⟩ := t
  cases incoming <;> cases isOpen <;> rfl

/-- Receiving queues no frame. -/
theorem length_incoming_receive_le (t : QueueTransport) :
    (Transport.receive t).2.incoming.length ≤ t.incoming.length := by
  obtain ⟨incoming, sent, isOpen, opens, failOpen, failSend⟩ := t
  cases incoming with
  | nil => cases isOpen <;> exact Nat.le_refl _
  | cons f rest =>
    cases isOpen with
    | false => exact Nat.le_refl _
    | true => exact Nat.le_succ _

theorem send_push (t : QueueTransport) (f : Frame) (frames : List Frame) :
    Transport.send f (t.push frames) =
      ((Transport.send f t).1, (Transport.send f t).2.push frames) := by
  obtain ⟨incoming, sent, isOpen, opens, failOpen, failSend⟩ := t
  cases isOpen <;> cases failSend <;> rfl

/-- Receiving is the same with further frames, unless the queue is at its end. -/
theorem receive_push {t : QueueTransport} (h : t.incoming ≠ []) (frames : List Frame) :
    Transport.receive (t.push frames) =
      ((Transport.receive t).1, (Transport.receive t).2.push frames) := by
  obtain ⟨incoming, sent, isOpen, opens, failOpen, failSend⟩ := t
  cases incoming with
  | nil => exact absurd rfl h
  | cons f rest => cases isOpen <;> rfl

end QueueTransport

namespace Connection

/-! ## Open and closed connections -/

/-- A connection that was opened once, with frames that arrive and frames sent so far. -/
def live (incoming sent : List Frame) (lastCode : Option UInt8) : Connection QueueTransport :=
  ⟨⟨incoming, sent, true, 1, false, false⟩, .connected, lastCode⟩

/-- A connection that was opened once and closed again. -/
def gone (incoming sent : List Frame) (lastCode : Option UInt8) : Connection QueueTransport :=
  ⟨⟨incoming, sent, false, 1, false, false⟩, .disconnected, lastCode⟩

variable {incoming sent : List Frame} {lastCode : Option UInt8}

theorem writeLine_live (r : Role) (text : String) :
    (live incoming sent lastCode).writeLine r text =
      (.ok (), live incoming (sent ++ [.ofRole r (text ++ "\n")]) lastCode) := rfl

theorem receive_live (f : Frame) :
    (live (f :: incoming) sent lastCode).receive =
      (.ok (some f), live incoming sent (some f.code)) := rfl

/-! ## What is queued -/

variable {c c' : Connection QueueTransport}

@[simp] theorem incoming_close : c.close.transport.incoming = c.transport.incoming := by
  unfold close
  split <;> rfl

/-- What is done on a transport does to the queue what it does there. -/
theorem incoming_onTransport {α : Type}
    (act : QueueTransport → Except ConnectError α × QueueTransport) :
    (c.onTransport act).2.transport.incoming =
      if c.isConnected then (act c.transport).2.incoming else c.transport.incoming := by
  unfold onTransport
  split
  · obtain ⟨r, t⟩ := act c.transport
    cases r with
    | ok a => rfl
    | error e => exact incoming_close
  · rfl

@[simp] theorem incoming_send (f : Frame) :
    (c.send f).2.transport.incoming = c.transport.incoming := by
  rw [send, incoming_onTransport, QueueTransport.incoming_send, ite_self]

/-- Receiving queues no frame. -/
theorem length_incoming_receive_le :
    c.receive.2.transport.incoming.length ≤ c.transport.incoming.length := by
  have hact : (c.onTransport Transport.receive).2.transport.incoming.length ≤
      c.transport.incoming.length := by
    rw [incoming_onTransport]
    split
    · exact c.transport.length_incoming_receive_le
    · exact Nat.le_refl _
  unfold receive
  rcases h : c.onTransport Transport.receive with ⟨e | _ | f, c'⟩
  · rw [h] at hact
    exact hact
  · rw [h] at hact
    rw [incoming_close]
    exact hact
  · rw [h] at hact
    exact hact

/-- A frame that is received is taken off the queue. -/
theorem incoming_eq_of_receive {f : Frame} (h : c.receive = (.ok (some f), c')) :
    c.transport.incoming = f :: c'.transport.incoming := by
  obtain ⟨⟨incoming, sent, isOpen, opens, failOpen, failSend⟩, state, lastCode⟩ := c
  cases state with
  | disconnected => simp [receive, onTransport, isConnected] at h
  | closing => simp [receive, onTransport, isConnected] at h
  | connected =>
    cases isOpen with
    | false =>
      simp [receive, onTransport, isConnected, Transport.receive, QueueTransport.receive] at h
    | true =>
      cases incoming with
      | nil =>
        simp [receive, onTransport, isConnected, Transport.receive, QueueTransport.receive] at h
      | cons g rest =>
        cases h
        rfl

/-! ## One call -/

/-- What at most one call makes of a connection. -/
inductive Call {τ : Type} [Transport τ] (c : Connection τ) : Connection τ → Prop where
  | nothing : Call c c
  | send (f : Frame) : Call c (c.send f).2
  | receive : Call c c.receive.2
  | close : Call c c.close

/-- A call queues no frame. -/
theorem Call.length_incoming_le (h : Call c c') :
    c'.transport.incoming.length ≤ c.transport.incoming.length := by
  cases h with
  | nothing => exact Nat.le_refl _
  | send f => exact Nat.le_of_eq (congrArg List.length (incoming_send f))
  | receive => exact length_incoming_receive_le
  | close => exact Nat.le_of_eq (congrArg List.length incoming_close)

/-- A call keeps the frames sent before. -/
theorem Call.sent_extends (h : Call c c') : c.transport.sent <+: c'.transport.sent := by
  have hclose : ∀ d : Connection QueueTransport, d.close.transport.sent = d.transport.sent := by
    intro d
    unfold Connection.close
    split <;> rfl
  have hact : ∀ {α : Type} (act : QueueTransport → Except ConnectError α × QueueTransport),
      c.transport.sent <+: (act c.transport).2.sent →
        c.transport.sent <+: (c.onTransport act).2.transport.sent := by
    intro α act h
    unfold onTransport
    split
    · rcases hr : act c.transport with ⟨e | a, t⟩ <;> rw [hr] at h
      · rw [hclose]
        exact h
      · exact h
    · exact List.prefix_rfl
  cases h with
  | nothing => exact List.prefix_rfl
  | send f => exact hact _ (c.transport.sent_prefix_send f)
  | receive =>
    have hsame : c.transport.sent <+: (Transport.receive c.transport).2.sent :=
      ⟨[], by rw [List.append_nil, QueueTransport.sent_receive]⟩
    have hreceive := hact Transport.receive hsame
    unfold Connection.receive
    rcases hr : c.onTransport Transport.receive with ⟨e | _ | f, d⟩ <;> rw [hr] at hreceive
    · exact hreceive
    · rw [hclose]
      exact hreceive
    · exact hreceive
  | close => exact ⟨[], by rw [List.append_nil, hclose]⟩

/-! ## Frames queued behind the others -/

/-- The connection with further frames that arrive. -/
def push (c : Connection QueueTransport) (frames : List Frame) : Connection QueueTransport :=
  { c with transport := c.transport.push frames }

@[simp] theorem push_nil (c : Connection QueueTransport) : c.push [] = c := by
  rw [push, QueueTransport.push, List.append_nil]

theorem push_push (c : Connection QueueTransport) (frames more : List Frame) :
    (c.push frames).push more = c.push (frames ++ more) := by
  simp only [push, QueueTransport.push, List.append_assoc]

@[simp] theorem isConnected_push (frames : List Frame) :
    (c.push frames).isConnected = c.isConnected := rfl

theorem close_push (c : Connection QueueTransport) (frames : List Frame) :
    (c.push frames).close = c.close.push frames := by
  unfold close
  rw [isConnected_push]
  split <;> rfl

/-- What is done on a transport is the same with further frames if it is the same there. -/
theorem onTransport_push {α : Type}
    {act : QueueTransport → Except ConnectError α × QueueTransport} {frames : List Frame}
    (h : act (c.transport.push frames) =
      ((act c.transport).1, (act c.transport).2.push frames)) :
    (c.push frames).onTransport act =
      ((c.onTransport act).1, (c.onTransport act).2.push frames) := by
  unfold onTransport
  rw [isConnected_push]
  split
  · have htransport : (c.push frames).transport = c.transport.push frames := rfl
    rw [htransport, h]
    obtain ⟨r, t⟩ := act c.transport
    cases r with
    | ok a => rfl
    | error e => exact congrArg (Prod.mk _) (close_push { c with transport := t } frames)
  · rfl

theorem send_push (c : Connection QueueTransport) (f : Frame) (frames : List Frame) :
    (c.push frames).send f = ((c.send f).1, (c.send f).2.push frames) := by
  apply onTransport_push
  exact c.transport.send_push f frames

/-- Receiving is the same with further frames, unless the queue is at its end. -/
theorem receive_push (h : c.transport.incoming ≠ []) (frames : List Frame) :
    (c.push frames).receive = (c.receive.1, c.receive.2.push frames) := by
  unfold receive
  rw [onTransport_push (QueueTransport.receive_push h frames)]
  obtain ⟨r, c'⟩ := c.onTransport Transport.receive
  rcases r with e | _ | f
  · rfl
  · exact congrArg (Prod.mk _) (close_push c' frames)
  · rfl

end Connection

end BytecodeDebugger
