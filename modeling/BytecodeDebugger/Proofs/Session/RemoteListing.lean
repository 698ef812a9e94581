import BytecodeDebugger.Listing.Rows
import BytecodeDebugger.Opcode.Builtin
import BytecodeDebugger.Proofs.Connect.StreamConnection
import BytecodeDebugger.Proofs.Session.FrontEnd
import BytecodeDebugger.Session.Server

/-!
# Listings at the other end of a stream

A listing that is written to the peer goes call by call, each one a print frame of its own. A front
end that reads the stream shows the texts of these frames one behind the other, so the user sees
what the listing writes, provided that every call fits into a frame. The first call that does not
fit ends the listing and the connection.

Main facts: `writeTo_of_fits` and `writeTo_of_misfit` (what goes to the stream),
`run_of_waiting_calls` (what a front end makes of it) and `disassemble_across` (both together).
-/

namespace BytecodeDebugger

/-! ## Calls as frames -/

namespace Write

/-- The frame of a call. -/
def frame (w : Write) : Frame := .ofRole .print w.text

/-- The call fits into a frame. -/
def Fits (w : Write) : Prop := w.frame.body.length ≤ maxBodyLength

/-- The bytes of the frames of calls. -/
def wire (ws : List Write) : List UInt8 := ws.flatMap fun w => w.frame.bytes

/-- The body of the frame is the text with the code in front. -/
theorem length_body_frame (w : Write) : w.frame.body.length = w.text.utf8ByteSize + 1 := by
  rw [frame, Frame.ofRole, Frame.body, List.length_cons, Text.length_utf8Bytes]

/-- What fits is known by the text: its bytes and the code are as many as the header can tell. -/
theorem fits_iff {w : Write} : w.Fits ↔ w.text.utf8ByteSize < maxBodyLength := by
  rw [Fits, length_body_frame, Nat.succ_le_iff]

instance : DecidablePred Fits := fun _ => inferInstanceAs (Decidable (_ ≤ _))

/-- A frame has at least one byte. -/
theorem length_le_length_wire (ws : List Write) : ws.length ≤ (wire ws).length := by
  induction ws with
  | nil => exact Nat.le_refl _
  | cons w ws ih =>
    have hframe : 1 ≤ w.frame.bytes.length := by
      rw [Frame.bytes, List.length_append, length_body_frame]
      omega
    have hwire : wire (w :: ws) = w.frame.bytes ++ wire ws := rfl
    rw [hwire, List.length_append, List.length_cons]
    omega

end Write

/-! ## The debugger's end -/

namespace Server

theorem write_on {τ : Type} [Transport τ] (w : Write) (c : Connection τ) :
    (write w).on c = c.send w.frame := by
  cases w <;> rfl

variable {ρ : Type} {c : Connection AdoptedStream} {ws : List Write}

/-- Calls that fit all go to the other end. -/
theorem writeAll_of_flows (h : c.Flows) (hws : ∀ w ∈ ws, w.Fits) :
    Listing.writeAll interface.sink ws c = (.ok (), c.carry (Write.wire ws)) := by
  induction ws generalizing c with
  | nil => rw [Write.wire, List.flatMap_nil, Connection.carry_nil, Listing.writeAll]
  | cons w ws ih =>
    have hsend : interface.sink.write w c = (.ok (), c.carry w.frame.bytes) :=
      (write_on w c).trans (Connection.send_of_flows h (hws w List.mem_cons_self))
    have hrest := ih (h.carry w.frame.bytes) fun v hv => hws v (List.mem_cons_of_mem w hv)
    rw [Connection.carry_carry] at hrest
    unfold Listing.writeAll
    rw [hsend]
    exact hrest

/-- A listing whose calls all fit goes to the other end, and comes to what it comes to. -/
theorem writeTo_of_fits {l : Listing ρ} (h : c.Flows) (hl : ∀ w ∈ l.writes, w.Fits) :
    l.writeTo interface.sink c = (l.outcome, c.carry (Write.wire l.writes)) := by
  rw [Listing.writeTo, writeAll_of_flows h hl]

/-- A listing ends at the first call that does not fit, and so does the connection. -/
theorem writeTo_of_misfit {l : Listing ρ} {before after : List Write} {w : Write} (h : c.Flows)
    (hl : l.writes = before ++ w :: after) (hbefore : ∀ v ∈ before, v.Fits) (hw : ¬w.Fits) :
    l.writeTo interface.sink c =
      (.error (.sink (.frame (.tooLong (w.text.utf8ByteSize + 1)))),
        (c.carry (Write.wire before)).close) := by
  have hsend : interface.sink.write w (c.carry (Write.wire before)) =
      (.error (.frame (.tooLong w.frame.body.length)), (c.carry (Write.wire before)).close) :=
    (write_on w _).trans (Connection.send_of_tooLong (h.carry _) (Nat.lt_of_not_le hw))
  rw [Listing.writeTo, hl, Listing.writeAll_append_of_ok (writeAll_of_flows h hbefore),
    Listing.writeAll, hsend, Write.length_body_frame]

end Server

/-! ## The front end -/

namespace Client

/-- A front end at the other end of a stream, with the input of its user and what they see. -/
def across (d : Duplex) (input : List UInt8) (shown : String) : Client AdoptedStream :=
  ⟨((Connection.new (.adopt d.reversed)).connect).2, input, ⟨shown, none⟩⟩

/-- A front end hears what comes over a stream that nobody has given up. -/
theorem hears_across {d : Duplex} (h : d.reset = none) (input : List UInt8) (shown : String) :
    (across d input shown).connection.Hears := by
  refine ⟨rfl, rfl, ?_⟩
  show d.reset.map End.opposite ≠ some .near
  rw [h]
  exact nofun

variable {c : Client AdoptedStream}

/-- The front end after it showed the text of a frame, with the bytes that go on waiting. -/
def showing (c : Client AdoptedStream) (text : String) (more : List UInt8) :
    Client AdoptedStream where
  connection := { c.connection.await more with lastCode := some Role.print.code }
  input := c.input
  screen := ⟨c.screen.text ++ text, none⟩

/-- A front end that showed something goes on hearing. -/
theorem hears_showing (h : c.connection.Hears) (text : String) (more : List UInt8) :
    (c.showing text more).connection.Hears :=
  ⟨h.connected, h.isOpen, h.keeps⟩

/-- A call that waits is shown. -/
theorem advance_of_waiting_call {w : Write} {more : List UInt8} (h : c.connection.Hears)
    (hlimit : c.screen.limit = none) (hw : w.Fits)
    (hwait : c.connection.transport.stream.atNear = w.frame.bytes ++ more) :
    advance.on c = (.ok none, c.showing w.text more) := by
  rw [advance, Action.on_bind, receive_on, Connection.receive_of_hears h hw hwait]
  show (handle w.frame).on _ = _
  rw [handle, Write.frame, Frame.role?_ofRole]
  dsimp only
  rw [Action.on_bind, view_on]
  · rfl
  · exact hlimit

/-- At the end of the stream the session is over. -/
theorem advance_of_nothing_waiting (h : c.connection.Hears)
    (hwait : c.connection.transport.stream.atNear = []) :
    advance.on c = (.ok (some .disconnected), { c with connection := c.connection.close }) := by
  rw [advance, Action.on_bind, receive_on, Connection.receive_of_hears_nil h hwait]
  rfl

/-- Calls that wait are shown one behind the other, and then the session is over. -/
theorem runWithin_of_waiting_calls {ws : List Write} {frames : Nat} (h : c.connection.Hears)
    (hlimit : c.screen.limit = none) (hws : ∀ w ∈ ws, w.Fits)
    (hwait : c.connection.transport.stream.atNear = Write.wire ws) (hframes : ws.length < frames) :
    ∃ connection, (runWithin frames).on c =
      (.ok (some .disconnected),
        ⟨connection, c.input, ⟨c.screen.text ++ String.join (ws.map Write.text), none⟩⟩) := by
  induction ws generalizing c frames with
  | nil =>
    obtain ⟨frames, rfl⟩ := Nat.exists_eq_succ_of_ne_zero (Nat.ne_of_gt hframes)
    have hscreen : c.screen = ⟨c.screen.text ++ String.join ([].map Write.text), none⟩ := by
      rw [← hlimit]
      simp
    refine ⟨c.connection.close, ?_⟩
    rw [runWithin_succ_on, advance_of_nothing_waiting h hwait, ← hscreen]
  | cons w ws ih =>
    obtain ⟨frames, rfl⟩ := Nat.exists_eq_succ_of_ne_zero (Nat.ne_of_gt (Nat.zero_lt_of_lt hframes))
    have hadvance := advance_of_waiting_call h hlimit (hws w List.mem_cons_self) hwait
    obtain ⟨connection, hrest⟩ := ih (hears_showing h w.text (Write.wire ws)) rfl
      (fun v hv => hws v (List.mem_cons_of_mem w hv)) rfl (Nat.lt_of_succ_lt_succ hframes)
    refine ⟨connection, ?_⟩
    rw [runWithin_succ_on, hadvance]
    refine hrest.trans ?_
    simp [showing, String.append_assoc]

/-- A front end shows the calls that wait, and takes no line of its user's input. -/
theorem run_of_waiting_calls {ws : List Write} (h : c.connection.Hears)
    (hlimit : c.screen.limit = none) (hws : ∀ w ∈ ws, w.Fits)
    (hwait : c.connection.transport.stream.atNear = Write.wire ws) :
    ∃ connection, run.on c =
      (.ok .disconnected,
        ⟨connection, c.input, ⟨c.screen.text ++ String.join (ws.map Write.text), none⟩⟩) := by
  have hframes : ws.length < Transport.backlog c.connection.transport + 1 := by
    have hbacklog : Transport.backlog c.connection.transport = (Write.wire ws).length :=
      congrArg List.length hwait
    have := Write.length_le_length_wire ws
    omega
  obtain ⟨connection, hrun⟩ := runWithin_of_waiting_calls h hlimit hws hwait hframes
  refine ⟨connection, ?_⟩
  rw [run, Action.on_of, hrun]

end Client

/-! ## The whole way -/

/-- Calls that fit are all shown by a front end at the other end, once the connection is closed. -/
theorem Client.run_across {c : Connection AdoptedStream} (h : c.Flows)
    (hfar : c.transport.stream.atFar = []) (hreset : c.transport.stream.reset = none)
    (ws : List Write) (hws : ∀ w ∈ ws, w.Fits) (input : List UInt8) (shown : String) :
    ∃ connection, run.on (across (c.carry (Write.wire ws)).close.transport.stream input shown) =
      (.ok .disconnected,
        ⟨connection, input, ⟨shown ++ String.join (ws.map Write.text), none⟩⟩) := by
  have hwait : c.transport.stream.atFar ++ Write.wire ws = Write.wire ws := by
    rw [hfar, List.nil_append]
  rw [Connection.stream_close (h.carry (Write.wire ws))]
  refine run_of_waiting_calls (hears_across ?_ input shown) rfl hws hwait
  exact hreset

/-- A listing of any target that is written to an open connection, beside the same listing kept as a
text, and what a front end at the other end of the stream makes of it once the connection is closed.
If every call of the listing fits into a frame, the result is the same, the connection stays open
and the user sees the text of the listing behind what they saw before. Otherwise the listing ends at
the first call that does not fit: that call is refused for its length, the connection is closed, and
the user sees the calls before it. -/
theorem disassemble_across {c : Connection AdoptedStream} (h : c.Flows)
    (hfar : c.transport.stream.atFar = []) (hreset : c.transport.stream.reset = none)
    (target : Target) (table : OpcodeTable) (p : ListingPolicy) (current : Option Nat)
    (input : List UInt8) (shown : String) :
    let l := disassemble target table p current
    let kept := l.writeTo Recording.sink (.new [])
    let sent := l.writeTo Server.interface.sink c
    let seen := Client.run.on (.across sent.2.close.transport.stream input shown)
    ((∀ w ∈ l.writes, w.Fits) →
      sent.1 = kept.1 ∧ sent.2.isConnected = true ∧
        seen.1 = .ok .disconnected ∧ seen.2.screen.text = shown ++ kept.2.output) ∧
    ∀ before w after, l.writes = before ++ w :: after → (∀ v ∈ before, v.Fits) → ¬w.Fits →
      sent.1 = .error (.sink (.frame (.tooLong (w.text.utf8ByteSize + 1)))) ∧
        sent.2.isConnected = false ∧ seen.1 = .ok .disconnected ∧
        seen.2.screen.text = shown ++ String.join (before.map Write.text) := by
  intro l
  clear_value l
  dsimp only
  refine ⟨?_, ?_⟩
  · intro hall
    obtain ⟨connection, hseen⟩ := Client.run_across h hfar hreset l.writes hall input shown
    rw [Server.writeTo_of_fits h hall, Recording.writeTo_new, hseen]
    exact ⟨rfl, h.connected, rfl, rfl⟩
  · intro before w after hwrites hbefore hw
    obtain ⟨connection, hseen⟩ := Client.run_across h hfar hreset before hbefore input shown
    rw [Server.writeTo_of_misfit h hwrites hbefore hw, Connection.close_close, hseen]
    exact ⟨rfl, Connection.isConnected_close _, rfl, rfl⟩

/-- An open connection over a fresh stream. -/
def Connection.fresh : Connection AdoptedStream := ((new (.adopt .fresh)).connect).2

theorem Connection.flows_fresh : fresh.Flows := ⟨rfl, rfl, rfl⟩

/-- A unit that returns a text. -/
def returnsText : CodeObject :=
  { CodeObject.empty with name := "f", code := [100, 0, 0, 83], consts := [.str "é"] }

/-- The listing of a unit that returns a text, as its user sees it behind a prompt. -/
theorem disassemble_across_returnsText :
    let l := disassemble (.code returnsText) RuntimeVersion.classic.table
      { ListingPolicy.unbounded with highlight := .plain } none
    let sent := l.writeTo Server.interface.sink .fresh
    let seen := Client.run.on (.across sent.2.close.transport.stream [] "> ")
    sent.1 = .ok () ∧ sent.2.isConnected = true ∧ seen.1 = .ok .disconnected ∧
      seen.2.screen.text =
        "> Disassembly of <code object f>:\n" ++
        "           0 LOAD_CONST              0 ('é')\n" ++
        "           3 RETURN_VALUE        \n" := by
  have hfits : ∀ w ∈ (disassemble (.code returnsText) RuntimeVersion.classic.table
      { ListingPolicy.unbounded with highlight := .plain } none).writes, w.Fits := by
    decide +kernel
  obtain ⟨hsent, hopen, hexit, hscreen⟩ := (disassemble_across Connection.flows_fresh rfl rfl
    (.code returnsText) RuntimeVersion.classic.table
    { ListingPolicy.unbounded with highlight := .plain } none [] "> ").1 hfits
  rw [Recording.writeTo_new] at hsent hscreen
  refine ⟨hsent.trans ?_, hopen, hexit, hscreen.trans ?_⟩ <;> decide +kernel

/-- A container without members, whose name is too long for the frame of a heading. -/
def longNamed : Target := .container (String.ofList (List.replicate 100000 'x')) .empty

/-- The heading of a container may be too long for a frame. Kept as a text the listing comes to its
end, but on its way to the peer it is refused, the connection is lost and the user sees nothing. -/
theorem disassemble_across_longNamed :
    let l := disassemble longNamed RuntimeVersion.classic.table .unbounded none
    let kept := l.writeTo Recording.sink (.new [])
    let sent := l.writeTo Server.interface.sink .fresh
    let seen := Client.run.on (.across sent.2.close.transport.stream [] "")
    kept.1 = .ok () ∧ kept.2.output.utf8ByteSize = 100017 ∧
      sent.1 = .error (.sink (.frame (.tooLong 100018))) ∧ sent.2.isConnected = false ∧
      seen.1 = .ok .disconnected ∧ seen.2.screen.text = "" := by
  have hname : (String.ofList (List.replicate 100000 'x')).utf8ByteSize = 100000 := by
    have hx : ∀ c ∈ List.replicate 100000 'x', c.toNat < 128 := by
      intro c hc
      rw [List.eq_of_mem_replicate hc]
      decide
    rw [Text.utf8ByteSize_ofList_of_lt hx, List.length_replicate]
  -- from here on only the size of the name matters
  generalize hlong : String.ofList (List.replicate 100000 'x') = name at hname
  have hsize : (targetHeading name .unbounded).text.utf8ByteSize = 100017 := by
    simp only [targetHeading, Write.heading, Write.text, String.utf8ByteSize_append, hname]
    rfl
  have hmisfit : ¬(targetHeading name .unbounded).Fits := by
    rw [Write.fits_iff, hsize]
    decide
  have hlisting : disassemble (.container name .empty) RuntimeVersion.classic.table .unbounded
      none = ⟨[targetHeading name .unbounded], .ok ()⟩ := rfl
  have hwrites : [targetHeading name .unbounded] = [] ++ targetHeading name .unbounded :: [] := rfl
  have hnone : ∀ v ∈ ([] : List Write), v.Fits := nofun
  obtain ⟨connection, hseen⟩ := Client.run_across Connection.flows_fresh rfl rfl [] hnone [] ""
  rw [longNamed, hlong, hlisting]
  dsimp only
  rw [Recording.writeTo_new, Server.writeTo_of_misfit Connection.flows_fresh hwrites hnone hmisfit,
    hsize, Connection.close_close, hseen]
  refine ⟨rfl, ?_, rfl, Connection.isConnected_close _, rfl, rfl⟩
  simpa [Listing.text] using hsize

end BytecodeDebugger
