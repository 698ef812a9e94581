import BytecodeDebugger.Connect.Error
import BytecodeDebugger.Decode.Trace
import BytecodeDebugger.Text.Quoted

/-!
# Listings and where they go

A listing is what a request writes, call by call, and what it comes to. It is computed as a value
and then written to a sink. A sink can refuse a call; the listing then ends at once with that
refusal.

Main facts: `writeTo_of_ok` (a sink that takes everything yields the outcome of the listing) and
`output_writeAll` (a recording collects the texts of all calls).
-/

namespace BytecodeDebugger

/-- One call on a sink. -/
inductive Write where
  /-- A text without a line end. -/
  | fragment (text : String)
  /-- A text and a line end. -/
  | line (text : String)
  deriving DecidableEq, Repr

namespace Write

/-- What the call adds to the output. -/
def text : Write → String
  | .fragment t => t
  | .line t => t ++ "\n"

/-- The heading of a block. -/
def heading (title : String) : Write := .line title

/-- A line that reports a fault. -/
def fault (text : String) : Write := .line ("** " ++ text)

end Write

/-- Something that takes output, as the state it keeps. -/
structure Sink (σ : Type) where
  write : Write → σ → Except ConnectError Unit × σ

/-- Why a listing ended early. -/
inductive ListingError where
  | decode (e : DecodeError)
  /-- The code has no line as high as the start line. -/
  | startLineOutOfRange (line max : Nat)
  /-- The source file is not known. -/
  | noSource (filename : String)
  /-- The source file has no line as high as the first one. -/
  | sourceLineOutOfRange (line : Nat) (filename : String) (max : Nat)
  /-- The sink refused a call. -/
  | sink (e : ConnectError)
  deriving DecidableEq, Repr

namespace ListingError

/-- The wording of a failure. -/
def message : ListingError → String
  | .decode e => e.message
  | .startLineOutOfRange l m =>
    "Bad start line " ++ toString l ++ " - code has only " ++ toString m ++ " lines"
  | .noSource f => "No file " ++ f ++ " found"
  | .sourceLineOutOfRange l f m =>
    "Bad start line " ++ toString l ++ " - file \"" ++ f ++ "\" has only " ++ toString m ++ " lines"
  | .sink e => e.message

/-- The wordings of a failure and its causes, outermost first. -/
def chain (e : ListingError) : List String :=
  match e with
  | .sink c => c.chain
  | _ => [e.message]

end ListingError

/-- What a request writes, and what it comes to. -/
structure Listing (ρ : Type) where
  writes : List Write
  outcome : Except ListingError ρ

namespace Listing

variable {ρ τ σ : Type}

/-- A listing that writes nothing. -/
def result (r : ρ) : Listing ρ := ⟨[], .ok r⟩

/-- A listing that fails at once. -/
def failed (e : ListingError) : Listing ρ := ⟨[], .error e⟩

/-- The listing with further calls in front. -/
def after (ws : List Write) (l : Listing ρ) : Listing ρ := ⟨ws ++ l.writes, l.outcome⟩

/-- One listing and then another one, unless the first one fails. -/
def andThen (l : Listing ρ) (next : ρ → Listing τ) : Listing τ :=
  match l.outcome with
  | .error e => ⟨l.writes, .error e⟩
  | .ok r => (next r).after l.writes

/-- The calls made on a sink one after the other, up to the first one that it refuses. -/
def writeAll (sink : Sink σ) : List Write → σ → Except ConnectError Unit × σ
  | [], s => (.ok (), s)
  | w :: rest, s =>
    match sink.write w s with
    | (.error e, s) => (.error e, s)
    | (.ok (), s) => writeAll sink rest s

/-- The listing written to a sink. -/
def writeTo (l : Listing ρ) (sink : Sink σ) (s : σ) : Except ListingError ρ × σ :=
  match writeAll sink l.writes s with
  | (.error e, s) => (.error (.sink e), s)
  | (.ok (), s) => (l.outcome, s)

/-- What the listing adds to the output in all. -/
def text (l : Listing ρ) : String := String.join (l.writes.map Write.text)

/-- Calls that a sink takes, and then others. -/
theorem writeAll_append_of_ok {sink : Sink σ} {before after : List Write} {s t : σ}
    (h : writeAll sink before s = (.ok (), t)) :
    writeAll sink (before ++ after) s = writeAll sink after t := by
  induction before generalizing s with
  | nil =>
    cases h
    rfl
  | cons w before ih =>
    simp only [List.cons_append, writeAll] at h ⊢
    rcases hw : sink.write w s with ⟨e | _, u⟩ <;> rw [hw] at h
    · cases h
    · exact ih h

/-- A sink that takes everything yields the outcome of the listing. -/
theorem writeTo_of_ok (l : Listing ρ) (sink : Sink σ) (s : σ)
    (h : ∀ w s, (sink.write w s).1 = .ok ()) : (l.writeTo sink s).1 = l.outcome := by
  have key : ∀ (ws : List Write) (s : σ), (writeAll sink ws s).1 = .ok () := by
    intro ws
    induction ws with
    | nil => intro s; rfl
    | cons w rest ih =>
      intro s
      have hw := h w s
      unfold writeAll
      split
      · next heq => simp [heq] at hw
      · exact ih _
  have hk := key l.writes s
  unfold writeTo
  split
  · next heq => simp [heq] at hk
  · rfl

end Listing

/-! ## Recording sinks -/

/-- The output collected so far, the number of calls made, and the calls to refuse. -/
structure Recording where
  output : String
  calls : Nat
  refuse : List Nat
  deriving DecidableEq, Repr

namespace Recording

/-- A recording without output. -/
def new (refuse : List Nat) : Recording := ⟨"", 0, refuse⟩

/-- Takes a call, or refuses it as a lost connection; a refused call counts. -/
def take (w : Write) (r : Recording) : Except ConnectError Unit × Recording :=
  if r.refuse.contains r.calls then (.error .notConnected, { r with calls := r.calls + 1 })
  else (.ok (), { r with output := r.output ++ w.text, calls := r.calls + 1 })

/-- The sink that records. -/
def sink : Sink Recording := ⟨take⟩

/-- A recording that refuses no call takes all of them. -/
theorem writeAll_of_refuse_nil (ws : List Write) {r : Recording} (h : r.refuse = []) :
    Listing.writeAll sink ws r =
      (.ok (), { r with
        output := r.output ++ String.join (ws.map Write.text)
        calls := r.calls + ws.length }) := by
  induction ws generalizing r with
  | nil => simp [Listing.writeAll]
  | cons w rest ih =>
    have hw : sink.write w r =
        (.ok (), { r with output := r.output ++ w.text, calls := r.calls + 1 }) := by
      simp [sink, take, h]
    have hrest := ih (r := { r with output := r.output ++ w.text, calls := r.calls + 1 }) h
    simp only [Listing.writeAll, hw]
    rw [hrest]
    simp [String.append_assoc, Nat.add_assoc, Nat.add_comm 1]

/-- A sink that refuses no call collects the texts of all of them. -/
theorem output_writeAll (ws : List Write) (r : Recording) (h : r.refuse = []) :
    (Listing.writeAll sink ws r).2.output = r.output ++ String.join (ws.map Write.text) := by
  rw [writeAll_of_refuse_nil ws h]

/-- A recording that refuses no call comes to what the listing comes to, and keeps its text. -/
theorem writeTo_new {ρ : Type} (l : Listing ρ) :
    l.writeTo sink (.new []) = (l.outcome, ⟨l.text, l.writes.length, []⟩) := by
  rw [Listing.writeTo, writeAll_of_refuse_nil l.writes rfl]
  simp [new, Listing.text]

end Recording

end BytecodeDebugger
