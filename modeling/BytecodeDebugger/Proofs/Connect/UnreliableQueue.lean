import BytecodeDebugger.Proofs.Connect.QueueConnection
import Mathlib.Logic.Relation

/-!
# Connections over queues that refuse frames

A queue whose sends fail in any pattern, told in advance. Whatever is called on a connection over
it, the frames that wait are taken off one by one, and none is added. Once a call has failed the
connection stays as it is, whatever the transport.

Main facts: `Calls.eq_of_not_connected` (nothing changes any more), `Calls.ne_closing` (between two
calls no connection is being closed) and `waiting_eq_of_receive` (a frame that is received was the
first one waiting).
-/

namespace BytecodeDebugger

namespace Connection

/-- A connection that is neither connected nor being closed is disconnected. -/
theorem state_eq_disconnected {τ : Type} {c : Connection τ} (hc : c.state ≠ .closing)
    (h : c.isConnected = false) : c.state = .disconnected := by
  cases hstate : c.state with
  | disconnected => rfl
  | connected => simp [isConnected, hstate] at h
  | closing => exact absurd hstate hc

/-! ## Calls one after another -/

section

variable {τ : Type} [Transport τ] {c c' c'' : Connection τ}

/-- A connection that is not connected stays as it is when it is closed. -/
theorem close_of_not_connected (h : c.isConnected = false) : c.close = c := by
  rw [close, if_neg (by simp [h])]

/-- What calls make of a connection, one after another. -/
def Calls (c c' : Connection τ) : Prop := Relation.ReflTransGen Call c c'

namespace Calls

theorem refl : Calls c c := Relation.ReflTransGen.refl

theorem of_call (h : Call c c') : Calls c c' := Relation.ReflTransGen.single h

theorem trans (h : Calls c c') (h' : Calls c' c'') : Calls c c'' :=
  Relation.ReflTransGen.trans h h'

end Calls

/-- A call changes nothing about a connection that is not connected. -/
theorem Call.eq_of_not_connected (h : Call c c') (hc : c.isConnected = false) : c' = c := by
  cases h with
  | nothing => rfl
  | send f => rw [send_of_not_connected f hc]
  | receive => rw [receive_of_not_connected hc]
  | close => exact close_of_not_connected hc

/-- Calls change nothing about a connection that is not connected. -/
theorem Calls.eq_of_not_connected (h : Calls c c') (hc : c.isConnected = false) : c' = c := by
  induction h with
  | refl => rfl
  | tail _ hcall ih =>
    rw [← ih] at hc
    rw [hcall.eq_of_not_connected hc, ih]

/-- A connection that is closed is not being closed any more. -/
theorem close_ne_closing (hc : c.state ≠ .closing) : c.close.state ≠ .closing := by
  unfold close
  split
  · exact nofun
  · exact hc

/-- What is done on a transport leaves no connection being closed. -/
theorem onTransport_ne_closing {α : Type} (act : τ → Except ConnectError α × τ)
    (hc : c.state ≠ .closing) : (c.onTransport act).2.state ≠ .closing := by
  unfold onTransport
  split
  · rcases act c.transport with ⟨e | a, t⟩
    · exact close_ne_closing hc
    · exact hc
  · exact hc

/-- A call leaves no connection being closed. -/
theorem Call.ne_closing (h : Call c c') (hc : c.state ≠ .closing) : c'.state ≠ .closing := by
  cases h with
  | nothing => exact hc
  | send f => exact onTransport_ne_closing _ hc
  | receive =>
    have hact := onTransport_ne_closing Transport.receive hc
    unfold Connection.receive
    rcases hr : c.onTransport Transport.receive with ⟨e | _ | f, c''⟩ <;> rw [hr] at hact
    · exact hact
    · exact close_ne_closing hact
    · exact hact
  | close => exact close_ne_closing hc

/-- Between two calls no connection is being closed. -/
theorem Calls.ne_closing (h : Calls c c') (hc : c.state ≠ .closing) : c'.state ≠ .closing := by
  induction h with
  | refl => exact hc
  | tail _ hcall ih => exact hcall.ne_closing ih

/-- A connection that could not receive is not connected. -/
theorem isConnected_receive_of_error {e : ConnectError} (h : c.receive = (.error e, c')) :
    c'.isConnected = false := by
  unfold receive onTransport at h
  by_cases hc : c.isConnected = true
  · rw [if_pos hc] at h
    rcases hr : Transport.receive c.transport with ⟨e' | f?, t⟩
    · rw [hr] at h
      cases h
      exact isConnected_close _
    · rw [hr] at h
      cases f? <;> cases h
  · rw [if_neg hc] at h
    cases h
    simpa using hc

/-- A connection that could not send is not connected. -/
theorem isConnected_of_send_eq_error {f : Frame} {e : ConnectError}
    (h : c.send f = (.error e, c')) : c'.isConnected = false := by
  have hc := isConnected_send_of_error (c := c) (f := f) (e := e) (by rw [h])
  rw [h] at hc
  exact hc

end

end Connection

/-! ## Queues that refuse frames -/

/-- A transport whose peer is a queue, and whose sends fail in a pattern. -/
structure UnreliableQueue where
  queue : QueueTransport
  /-- Whether each send to come is refused, the next one first. -/
  refusals : Nat → Bool

namespace UnreliableQueue

/-- Sends a frame, unless this send is one to be refused. -/
def send (f : Frame) (t : UnreliableQueue) : Except ConnectError Unit × UnreliableQueue :=
  let (r, queue) := { t.queue with failSend := t.refusals 0 }.send f
  (r, ⟨queue, fun n => t.refusals (n + 1)⟩)

instance : Transport UnreliableQueue where
  establish t :=
    let (r, queue) := t.queue.establish
    (r, { t with queue })
  send := send
  receive t :=
    let (r, queue) := t.queue.receive
    (r, { t with queue })
  release t := { t with queue := t.queue.release }
  describe _ := "memory"
  backlog t := t.queue.incoming.length

theorem incoming_send (f : Frame) (t : UnreliableQueue) :
    (Transport.send f t).2.queue.incoming = t.queue.incoming :=
  QueueTransport.incoming_send { t.queue with failSend := t.refusals 0 } f

/-- What is received was the first frame of the queue. -/
theorem incoming_eq_of_receive {t t' : UnreliableQueue} {r : Except ConnectError (Option Frame)}
    (h : Transport.receive t = (r, t')) :
    t.queue.incoming = r.toOption.join.toList ++ t'.queue.incoming := by
  obtain ⟨⟨incoming, sent, isOpen, opens, failOpen, failSend⟩, refusals⟩ := t
  cases isOpen <;> cases incoming <;> cases h <;> rfl

end UnreliableQueue

namespace Connection

variable {c c' : Connection UnreliableQueue}

/-- The frames that wait to be received. -/
def waiting (c : Connection UnreliableQueue) : List Frame := c.transport.queue.incoming

theorem waiting_close : c.close.waiting = c.waiting := by
  unfold close
  split <;> rfl

/-- What is done on a transport takes as much off the queue as it does there. -/
theorem waiting_onTransport {α : Type} (took : Except ConnectError α → List Frame)
    {act : UnreliableQueue → Except ConnectError α × UnreliableQueue} {r : Except ConnectError α}
    (hact : ∀ t r t', act t = (r, t') → t.queue.incoming = took r ++ t'.queue.incoming)
    (hnone : took (.error .notConnected) = []) (h : c.onTransport act = (r, c')) :
    c.waiting = took r ++ c'.waiting := by
  unfold onTransport at h
  split at h
  · rcases hr : act c.transport with ⟨e | a, t⟩ <;> rw [hr] at h <;> cases h
    · rw [waiting_close]
      exact hact _ _ _ hr
    · exact hact _ _ _ hr
  · cases h
    rw [hnone]
    rfl

/-- Sending takes no frame off the queue. -/
theorem waiting_eq_of_send {f : Frame} {r : Except ConnectError Unit} (h : c.send f = (r, c')) :
    c'.waiting = c.waiting := by
  have hact : ∀ t (r : Except ConnectError Unit) (t' : UnreliableQueue),
      Transport.send f t = (r, t') → t.queue.incoming = [] ++ t'.queue.incoming := by
    intro t r t' ht
    have hsend := UnreliableQueue.incoming_send f t
    rw [ht] at hsend
    exact hsend.symm
  exact (waiting_onTransport (fun _ => []) hact rfl h).symm

/-- A frame that is received was the first one waiting. -/
theorem waiting_eq_of_receive {r : Except ConnectError (Option Frame)} (h : c.receive = (r, c')) :
    c.waiting = r.toOption.join.toList ++ c'.waiting := by
  unfold receive at h
  rcases hr : c.onTransport Transport.receive with ⟨r', c''⟩
  have hwaiting := waiting_onTransport (fun r => r.toOption.join.toList)
    (fun _ _ _ => UnreliableQueue.incoming_eq_of_receive) rfl hr
  rw [hr] at h
  rcases r' with e | _ | f <;> cases h
  · exact hwaiting
  · rw [waiting_close]
    exact hwaiting
  · exact hwaiting

end Connection

end BytecodeDebugger
