import BytecodeDebugger.Connect.Duplex
import BytecodeDebugger.Connect.Options
import BytecodeDebugger.Connect.Transport

/-!
# Links between two holders

One address, and two holders that may each have a transport for it: one that listens at the address,
or one that reaches out to it. Whoever reaches out gets a stream as soon as somebody listens; the
listener takes the streams up one after the other. A pipe leaves a file at its address while
somebody listens. One handle can be taken on a stream. It keeps the end that it was taken at, also
when its holder has given that end up, until the next one is taken.

Main facts: `isBound_bind` (whoever listens can be reached), `holder_setHolder_self` (a holder has
what it was given) and `release_of_isHeld` (nothing happens to an end that is still held).
-/

namespace BytecodeDebugger

/-- One of the two holders of a link. -/
inductive Holder where
  | a
  | b
  deriving DecidableEq, Repr

/-- A stream of a link, by its number, and the end of it that is held. The near end belongs to
whoever reached out. -/
structure Grip where
  number : Nat
  side : End
  deriving DecidableEq, Repr

/-- What a holder has. -/
structure LinkEnd where
  /-- Whether the transport listens; if not, it reaches out. -/
  listens : Bool
  grip : Option Grip
  deriving DecidableEq, Repr

/-- An address with its streams and its two holders. -/
structure Link where
  kind : TransportKind
  /-- The address in messages. -/
  address : String
  /-- Whether somebody listens. -/
  isBound : Bool
  /-- The streams that the listener has not taken up yet, the first one first. -/
  pending : List Nat
  streams : List Duplex
  holderA : Option LinkEnd
  holderB : Option LinkEnd
  /-- The end that the handle taken last was taken at. -/
  handle : Option Grip

namespace Link

/-- An address where nobody listens. -/
def new (kind : TransportKind) (address : String) : Link :=
  ⟨kind, address, false, [], [], none, none, none⟩

/-- What a holder has. -/
def holder (l : Link) : Holder → Option LinkEnd
  | .a => l.holderA
  | .b => l.holderB

/-- Changes what a holder has. -/
def setHolder (l : Link) (e : Option LinkEnd) : Holder → Link
  | .a => { l with holderA := e }
  | .b => { l with holderB := e }

/-- Whether there is a file at the address. -/
def fileExists (l : Link) : Bool := l.kind == .pipe && l.isBound

/-- How a transport of the link describes itself. -/
def describe (l : Link) : String := l.kind.name ++ " " ++ l.address

/-- Changes a stream. -/
def changeStream {α : Type} (l : Link) (number : Nat) (f : Duplex → α × Duplex) :
    Option (α × Link) :=
  l.streams[number]?.map fun d =>
    let (a, d) := f d
    (a, { l with streams := l.streams.set number d })

/-- Shuts a stream down. -/
def shutDown (l : Link) (number : Nat) : Link :=
  { l with streams := l.streams.modify number Duplex.shutDown }

/-- The end of a stream that a holder has. -/
def grip? (l : Link) (who : Holder) : Option Grip := (l.holder who).bind LinkEnd.grip

/-- Whether a holder or the handle has an end of a stream. -/
def isHeld (l : Link) (g : Grip) : Bool :=
  l.grip? .a == some g || l.grip? .b == some g || l.handle == some g

/-- Gives an end of a stream up for good, unless it is held. -/
def release (l : Link) (g : Grip) : Link :=
  if l.isHeld g then l
  else { l with streams := l.streams.modify g.number (Duplex.hangUp g.side) }

/-- Shuts the stream down that a holder has, and takes it away. -/
def close (l : Link) (who : Holder) : Link :=
  match l.holder who with
  | none => l
  | some e =>
    match e.grip with
    | none => l
    | some g => ((l.shutDown g.number).setHolder (some { e with grip := none }) who).release g

/-- Takes away all that a holder has. A listener takes its file and the streams that wait along. -/
def drop (l : Link) (who : Holder) : Link :=
  match l.holder who with
  | none => l
  | some e =>
    let l := l.setHolder none who
    let l := e.grip.elim l l.release
    if e.listens then
      let l := l.pending.foldl (fun l n => l.release ⟨n, .far⟩) l
      { l with isBound := false, pending := [] }
    else l

/-- A holder starts to listen. A pipe has one listener at a time; a port is always free. -/
def bind (l : Link) (who : Holder) : Except ConnectError Unit × Link :=
  if l.isBound ∧ l.kind = .pipe then (.error (.unavailable l.address .addressInUse), l)
  else (.ok (), { (l.drop who).setHolder (some ⟨true, none⟩) who with isBound := true })

/-- A holder gets ready to reach out. -/
def connectTo (l : Link) (who : Holder) : Link :=
  (l.drop who).setHolder (some ⟨false, none⟩) who

/-- Gives a holder a stream. -/
def hold (l : Link) (who : Holder) (e : LinkEnd) (g : Grip) : Link :=
  l.setHolder (some { e with grip := some g }) who

/-- Why nobody can be reached at the address. -/
def unreachable (l : Link) : ConnectError :=
  .unavailable l.address <|
    match l.kind with
    | .tcp => .networkUnreachable
    | .pipe => .noSuchFile

/-- A holder opens its transport. A listener that nobody has reached out to stays as it is. -/
def establish (l : Link) (who : Holder) (e : LinkEnd) : Except ConnectError Unit × Link :=
  match e.grip with
  | some _ => (.ok (), l)
  | none =>
    if e.listens then
      match l.pending with
      | [] => (.ok (), l)
      | n :: rest => (.ok (), { l.hold who e ⟨n, .far⟩ with pending := rest })
    else if l.isBound ∧ l.kind = .pipe then
      let n := l.streams.length
      (.ok (),
        { l.hold who e ⟨n, .near⟩ with
          streams := l.streams ++ [.fresh], pending := l.pending ++ [n] })
    else (.error l.unreachable, l)

/-- A holder sends a frame. -/
def send (l : Link) (e : LinkEnd) (f : Frame) : Except ConnectError Unit × Link :=
  match e.grip with
  | none => (.error .notConnected, l)
  | some g => (l.changeStream g.number (Duplex.send g.side f)).getD (.error .notConnected, l)

/-- A holder receives a frame. -/
def receive (l : Link) (e : LinkEnd) : Except ConnectError (Option Frame) × Link :=
  match e.grip with
  | none => (.error .notConnected, l)
  | some g => (l.changeStream g.number (Duplex.receive g.side)).getD (.error .notConnected, l)

/-- The handle is taken anew at the end that a holder has, if it has one. -/
def takeHandle (l : Link) (who : Holder) : Bool × Link :=
  let grip := l.grip? who
  let next := { l with handle := grip }
  (grip.isSome, l.handle.elim next next.release)

/-- Shuts the stream down that the handle was taken at, if there is one. -/
def useHandle (l : Link) : Option Link := l.handle.map fun g => l.shutDown g.number

@[simp] theorem holder_setHolder_self (l : Link) (e : Option LinkEnd) (who : Holder) :
    (l.setHolder e who).holder who = e := by
  cases who <;> rfl

theorem release_of_isHeld {l : Link} {g : Grip} (h : l.isHeld g = true) : l.release g = l := by
  simp [release, h]

/-- Whoever listens can be reached. -/
theorem isBound_bind {l : Link} {who : Holder} (h : (l.bind who).1 = .ok ()) :
    (l.bind who).2.isBound = true := by
  unfold bind at *
  split at h
  · simp at h
  · next hb => simp [hb]

end Link

end BytecodeDebugger
