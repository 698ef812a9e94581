import BytecodeDebugger.Connect.Adopted
import BytecodeDebugger.Connect.Connection
import BytecodeDebugger.Proofs.Wire.RoundTrip

/-!
# Connections over streams

How the calls on a connection act when its transport holds an end of a stream. While the stream is
up, every frame that the header can tell the length of goes to the other end as its bytes; a longer
one is refused before anything of it is written, and that closes the connection. What waits at an
end is read frame by frame; behind the last frame the stream ends.

Main facts: `send_of_flows` and `send_of_tooLong` (what sending comes to), `receive_of_hears` and
`receive_of_hears_nil` (what receiving comes to).
-/

namespace BytecodeDebugger

/-! ## Reading at an end -/

namespace Duplex

variable {d : Duplex} {e : End}

/-- The bytes of chunks that deliver bytes are these. -/
theorem bytesOf_of_delivers {chunks : List Chunk} {bytes : List UInt8}
    (h : Delivers chunks bytes) : bytesOf chunks = bytes := by
  induction chunks generalizing bytes with
  | nil => exact h.eq_nil.symm
  | cons c chunks ih =>
    obtain ⟨more, rfl, hmore⟩ := h.tail
    cases c with
    | data bs => rw [bytesOf, ih hmore, Chunk.bytes]
    | fail err => rw [bytesOf, ih hmore, Chunk.bytes, List.nil_append]

/-- An end that has nothing to be told can read the bytes that wait there. -/
theorem delivers_incoming (hr : d.reset ≠ some e) : Delivers (d.incoming e) (d.waiting e) := by
  rw [incoming, if_neg hr, List.append_nil]
  by_cases hw : d.waiting e = []
  · rw [if_pos hw, hw]
    exact .nil
  · rw [if_neg hw]
    have h := Delivers.cons_data hw .nil
    rwa [List.append_nil] at h

/-- An end that has nothing to be told keeps the bytes that it has not read. -/
theorem leave_of_delivers {chunks : List Chunk} {bytes : List UInt8} (hr : d.reset ≠ some e)
    (h : Delivers chunks bytes) : d.leave e chunks = d.setWaiting bytes e := by
  have hkeep : ¬(d.reset = some e ∧ chunks.getLast? ≠ some (.fail .connectionReset)) :=
    fun hand => hr hand.1
  rw [leave, bytesOf_of_delivers h, if_neg hkeep]
  cases e <;> rfl

/-- A frame that waits at an end is read there, and the bytes behind it go on waiting. -/
theorem receive_of_waiting {f : Frame} {more : List UInt8} (hr : d.reset ≠ some e)
    (hf : f.body.length ≤ maxBodyLength) (hw : d.waiting e = f.bytes ++ more) :
    d.receive e = (.ok (some f), d.setWaiting more e) := by
  have hdel := delivers_incoming hr
  rw [hw] at hdel
  obtain ⟨rest, hread, hrest⟩ := readFrame_of_delivers hf hdel
  rw [receive, hread]
  simp only [received, leave_of_delivers hr hrest]

/-- Where nothing waits the stream has ended. -/
theorem receive_of_waiting_nil (hr : d.reset ≠ some e) (hw : d.waiting e = []) :
    d.receive e = (.ok none, d) := by
  have hdel := delivers_incoming hr
  rw [hw] at hdel
  obtain ⟨rest, hread, hrest⟩ := readFrame_of_delivers_nil hdel
  have hsame : d.setWaiting [] e = d := by
    rw [← hw]
    cases e <;> rfl
  rw [receive, hread]
  simp only [received, leave_of_delivers hr hrest, hsame]

/-- The stream as it is seen from its other end. -/
def reversed (d : Duplex) : Duplex := ⟨d.atFar, d.atNear, d.isDown, d.reset.map End.opposite⟩

end Duplex

namespace Connection

variable {c : Connection AdoptedStream} {f : Frame}

/-! ## Sending -/

/-- The connection is open, and its stream takes every byte. -/
structure Flows (c : Connection AdoptedStream) : Prop where
  connected : c.isConnected = true
  isOpen : c.transport.isOpen = true
  isUp : c.transport.stream.isDown = false

/-- The connection with further bytes on their way to the other end. -/
def carry (c : Connection AdoptedStream) (bytes : List UInt8) : Connection AdoptedStream :=
  { c with transport.stream.atFar := c.transport.stream.atFar ++ bytes }

@[simp] theorem carry_nil : c.carry [] = c := by
  rw [carry, List.append_nil]

theorem carry_carry (bytes more : List UInt8) :
    (c.carry bytes).carry more = c.carry (bytes ++ more) := by
  simp only [carry, List.append_assoc]

theorem Flows.carry (h : c.Flows) (bytes : List UInt8) : (c.carry bytes).Flows :=
  ⟨h.connected, h.isOpen, h.isUp⟩

/-- A frame that the header can tell the length of goes to the other end. -/
theorem send_of_flows (h : c.Flows) (hf : f.body.length ≤ maxBodyLength) :
    c.send f = (.ok (), c.carry f.bytes) := by
  have hstream : c.transport.stream.send .near f =
      (.ok (), { c.transport.stream with atFar := c.transport.stream.atFar ++ f.bytes }) := by
    simp [Duplex.send, Frame.encode_of_le hf, Duplex.write, h.isUp, Duplex.setWaiting,
      Duplex.waiting, End.opposite]
  have hsend : Transport.send f c.transport = (.ok (), (c.carry f.bytes).transport) := by
    show AdoptedStream.send f c.transport = _
    rw [AdoptedStream.send, if_pos h.isOpen, hstream]
    rfl
  rw [send, onTransport, if_pos h.connected, hsend]
  rfl

/-- A longer frame is refused, and that closes the connection. -/
theorem send_of_tooLong (h : c.Flows) (hf : maxBodyLength < f.body.length) :
    c.send f = (.error (.frame (.tooLong f.body.length)), c.close) := by
  have hstream : c.transport.stream.send .near f =
      (.error (.frame (.tooLong f.body.length)), c.transport.stream) := by
    rw [Duplex.send, Frame.encode, if_pos hf]
  have hsend : Transport.send f c.transport =
      (.error (.frame (.tooLong f.body.length)), c.transport) := by
    show AdoptedStream.send f c.transport = _
    rw [AdoptedStream.send, if_pos h.isOpen, hstream]
  rw [send, onTransport, if_pos h.connected, hsend]

/-- Closing an open connection shuts its stream down, and loses nothing of what is on its way. -/
theorem stream_close (h : c.Flows) : c.close.transport.stream = c.transport.stream.shutDown := by
  rw [close, if_pos h.connected]
  show (AdoptedStream.release c.transport).stream = _
  rw [AdoptedStream.release, if_pos h.isOpen]

/-- A connection that was closed stays as it is. -/
@[simp] theorem close_close {τ : Type} [Transport τ] (c : Connection τ) : c.close.close = c.close :=
  if_neg (by simp)

/-! ## Receiving -/

/-- The connection is open, and has nothing to be told about the other end of its stream. -/
structure Hears (c : Connection AdoptedStream) : Prop where
  connected : c.isConnected = true
  isOpen : c.transport.isOpen = true
  keeps : c.transport.stream.reset ≠ some .near

/-- The connection with other bytes that wait to be read. -/
def await (c : Connection AdoptedStream) (bytes : List UInt8) : Connection AdoptedStream :=
  { c with transport.stream.atNear := bytes }

/-- A frame that waits is received, and the bytes behind it go on waiting. -/
theorem receive_of_hears {more : List UInt8} (h : c.Hears) (hf : f.body.length ≤ maxBodyLength)
    (hw : c.transport.stream.atNear = f.bytes ++ more) :
    c.receive = (.ok (some f), { c.await more with lastCode := some f.code }) := by
  have hreceive : Transport.receive c.transport = (.ok (some f), (c.await more).transport) := by
    show AdoptedStream.receive c.transport = _
    rw [AdoptedStream.receive, if_pos h.isOpen, Duplex.receive_of_waiting h.keeps hf hw]
    rfl
  rw [receive, onTransport, if_pos h.connected, hreceive]
  rfl

/-- Where nothing waits the stream has ended, and that closes the connection. -/
theorem receive_of_hears_nil (h : c.Hears) (hw : c.transport.stream.atNear = []) :
    c.receive = (.ok none, c.close) := by
  have hreceive : Transport.receive c.transport = (.ok none, c.transport) := by
    show AdoptedStream.receive c.transport = _
    rw [AdoptedStream.receive, if_pos h.isOpen, Duplex.receive_of_waiting_nil h.keeps hw]
  rw [receive, onTransport, if_pos h.connected, hreceive]

end Connection

end BytecodeDebugger
