import BytecodeDebugger.Listing.Source
import BytecodeDebugger.Proofs.Listing.Rows

/-!
# Listings made call by call

A listing is computed as a value and then written. It can as well be made call by call: each call is
made as soon as it is due, and what cannot be listed any more ends the listing there. A container
takes the failure of a member for a report to make, unless it is the sink that refused a call.

Main facts: `perform_after` and `perform_andThen` (writing one thing after another), and
`isStreamedBy_renderListing`, `isStreamedBy_disassemble` and `isStreamedBy_renderSource` (both ways
come to the same on every sink).
-/

namespace BytecodeDebugger

variable {ρ τ σ : Type}

/-! ## Output -/

/-- What is made of a sink, call by call, and may fail at any call. -/
abbrev Output (σ : Type) := ExceptT ListingError (StateM σ)

namespace Output

/-- What output comes to that is made of a sink in some state. -/
def on (o : Output σ ρ) (s : σ) : Except ListingError ρ × σ := (ExceptT.run o).run s

theorem ext {o o' : Output σ ρ} (h : ∀ s, on o s = on o' s) : o = o' := funext h

/-- One output after another, unless the first one fails. -/
theorem on_bind (o : Output σ ρ) (f : ρ → Output σ τ) (s : σ) :
    on (o >>= f) s =
      match on o s with
      | (.ok r, s) => on (f r) s
      | (.error e, s) => (.error e, s) := by
  unfold on ExceptT.run StateT.run
  simp only [bind, ExceptT.bind, ExceptT.mk, StateT.bind, ExceptT.bindCont]
  rcases o s with ⟨e | r, t⟩ <;> rfl

/-- An output with something else to do in place of its failure. -/
theorem on_tryCatch (o : Output σ ρ) (f : ListingError → Output σ ρ) (s : σ) :
    on (tryCatch o f) s =
      match on o s with
      | (.ok r, s) => (.ok r, s)
      | (.error e, s) => on (f e) s := by
  unfold on ExceptT.run StateT.run
  simp only [tryCatch, tryCatchThe, MonadExceptOf.tryCatch, ExceptT.tryCatch, ExceptT.mk, bind,
    StateT.bind]
  rcases o s with ⟨e | r, t⟩ <;> rfl

end Output

/-- A call on a sink. -/
def Sink.call (sink : Sink σ) (w : Write) : Output σ Unit :=
  ExceptT.mk fun s =>
    match sink.write w s with
    | (.ok (), s) => (.ok (), s)
    | (.error e, s) => (.error (.sink e), s)

/-- Calls on a sink, one after the other. -/
def Sink.calls (sink : Sink σ) : List Write → Output σ Unit
  | [] => pure ()
  | w :: rest => do
    sink.call w
    sink.calls rest

/-- A value that needs no sink, or the failure to find it. -/
def Output.ofExcept : Except ListingError ρ → Output σ ρ
  | .ok r => pure r
  | .error e => throw e

/-! ## Listings made call by call -/

/-- The rows of instructions, after what `summary` counts, and the failure that ended decoding. -/
def streamRows (sink : Sink σ) (p : ListingPolicy) (failure : Option DecodeError)
    (summary : ListingSummary) : List Instruction → Output σ ListingSummary
  | [] =>
    match failure with
    | none => pure summary
    | some e => throw (.decode e)
  | i :: rest => do
    if p.endsBefore i then return summary
    else if p.hasBegun i then
      if i.startsLine then
        if p.isFull summary then return { summary with capped := true }
        else
          if 0 < summary.rows then sink.call (.line "")
          sink.call (.fragment (gutter i p.highlight))
          sink.call (.line (rowBody i p.highlight))
          streamRows sink p failure ⟨summary.rows + 1, summary.statements + 1, false⟩ rest
      else
        sink.call (.fragment (gutter i p.highlight))
        sink.call (.line (rowBody i p.highlight))
        streamRows sink p failure ⟨summary.rows + 1, summary.statements, false⟩ rest
    else streamRows sink p failure summary rest

/-- The listing of a code object. -/
def streamListing (d : Disassembly) (p : ListingPolicy) (sink : Sink σ) :
    Output σ ListingSummary := do
  .ofExcept (checkStartLine d.code p)
  streamRows sink p d.instructions.failure ⟨0, 0, false⟩ d.instructions.items

/-- What is done about a member that cannot be listed: it is reported, unless it was the sink that
refused a call. -/
def reportMember (sink : Sink σ) (name : String) : ListingError → Output σ Unit
  | .sink e => throw (.sink e)
  | e => sink.call (.fault ("Sorry: " ++ name ++ ": " ++ e.message))

/-- The listing of a member of a container. -/
def streamMember (table : OpcodeTable) (p : ListingPolicy) (sink : Sink σ)
    (m : String × CodeObject) : Output σ Unit := do
  tryCatch (do let _ ← streamListing ⟨m.2, table, none⟩ p sink) (reportMember sink m.1)
  sink.call (.line "")

/-- The listing of a target. -/
def streamTarget (target : Target) (table : OpcodeTable) (p : ListingPolicy)
    (current : Option Nat) (sink : Sink σ) : Output σ Unit :=
  match target with
  | .code unit => do
    .ofExcept (checkStartLine unit p)
    sink.call (targetHeading unit.shown p)
    let _ ← streamListing ⟨unit, table, current⟩ p sink
  | .container name members => do
    sink.call (targetHeading name p)
    members.toList.forM (streamMember table p sink)

/-- The rows of source lines from `line` on; `shown` is the last line listed before. -/
def streamSourceRows (c : SourceContext) (filename : String) (style : HighlightStyle)
    (sink : Sink σ) (shown : Option Nat) (line : Nat) : (count : Nat) → Output σ (Option Nat)
  | 0 => pure shown
  | count + 1 =>
    match c.sources.line filename line with
    | none => do
      sink.call (.line "[EOF]")
      return shown
    | some text => do
      sink.call (.line (sourceRow c (c.sources.canonicalName filename) style line text))
      streamSourceRows c filename style sink (some line) (line + 1) count

/-- The listing of source lines. -/
def streamSource (r : SourceRequest) (c : SourceContext) (style : HighlightStyle)
    (sink : Sink σ) : Output σ (Option Nat) :=
  match c.sources.lineCount r.filename with
  | none => throw (.noSource r.filename)
  | some max =>
    if max < r.first then throw (.sourceLineOutOfRange r.first r.filename max)
    else do
      if max < r.last then
        sink.call (.line ("End position changed to last line " ++ toString max ++ " "))
      let first := Nat.max r.first 1
      streamSourceRows c r.filename style sink none first (min r.last max + 1 - first)

/-! ## Writing a listing -/

/-- A listing written to a sink, as output. -/
def Listing.perform (l : Listing ρ) (sink : Sink σ) : Output σ ρ := ExceptT.mk (l.writeTo sink)

variable {sink : Sink σ}

theorem Sink.on_call (w : Write) (s : σ) :
    Output.on (sink.call w) s =
      match sink.write w s with
      | (.ok (), s) => (.ok (), s)
      | (.error e, s) => (.error (.sink e), s) := rfl

/-- What calls come to that are made up to the first one that is refused. -/
theorem Sink.on_calls (ws : List Write) (s : σ) :
    Output.on (sink.calls ws) s =
      match Listing.writeAll sink ws s with
      | (.ok (), s) => (.ok (), s)
      | (.error e, s) => (.error (.sink e), s) := by
  induction ws generalizing s with
  | nil => rfl
  | cons w rest ih =>
    rw [calls, Output.on_bind, on_call, Listing.writeAll]
    rcases sink.write w s with ⟨e | ⟨⟩, t⟩
    · rfl
    · exact ih t

theorem Sink.calls_singleton (w : Write) : sink.calls [w] = sink.call w := by
  rw [calls, calls]
  exact bind_pure _

theorem Sink.calls_append (ws ws' : List Write) :
    sink.calls (ws ++ ws') = sink.calls ws >>= fun _ => sink.calls ws' := by
  induction ws with
  | nil => rw [List.nil_append, calls, pure_bind]
  | cons w rest ih => rw [List.cons_append, calls, calls, ih, bind_assoc]

namespace Listing

/-- A listing is written by making its calls, and comes to its outcome then. -/
theorem perform_eq (l : Listing ρ) :
    l.perform sink = sink.calls l.writes >>= fun _ => .ofExcept l.outcome := by
  refine Output.ext fun s => ?_
  rw [Output.on_bind, Sink.on_calls]
  show l.writeTo sink s = _
  unfold writeTo
  rcases writeAll sink l.writes s with ⟨e | ⟨⟩, t⟩
  · rfl
  · cases l.outcome <;> rfl

/-- Calls in front of a listing are made before it. -/
theorem perform_after (ws : List Write) (l : Listing ρ) :
    (l.after ws).perform sink = sink.calls ws >>= fun _ => l.perform sink := by
  rw [perform_eq, perform_eq, after, Sink.calls_append, bind_assoc]

/-- One listing after another is written after it, unless that one fails. -/
theorem perform_andThen (l : Listing ρ) (f : ρ → Listing τ) :
    (l.andThen f).perform sink = l.perform sink >>= fun r => (f r).perform sink := by
  unfold andThen
  rw [perform_eq l]
  cases l.outcome with
  | error e =>
    rw [perform_eq, bind_assoc]
    rfl
  | ok r =>
    dsimp only
    rw [perform_after, bind_assoc]
    rfl

end Listing

/-! ## Both ways come to the same -/

/-- The calls of a row, and what is done after it. -/
theorem calls_rowWrites_bind (i : Instruction) (style : HighlightStyle) (o : Output σ ρ) :
    (sink.calls (rowWrites i style) >>= fun _ => o) =
      sink.call (.fragment (gutter i style)) >>= fun _ =>
        sink.call (.line (rowBody i style)) >>= fun _ => o := by
  simp only [rowWrites, Sink.calls, bind_assoc, pure_bind]

/-- Rows made call by call are the rows that are written. -/
theorem streamRows_eq (p : ListingPolicy) (failure : Option DecodeError) (summary : ListingSummary)
    (is : List Instruction) :
    streamRows sink p failure summary is = (listRows p failure summary is).perform sink := by
  induction is generalizing summary with
  | nil => cases failure <;> rfl
  | cons i rest ih =>
    unfold streamRows listRows
    split
    · rfl
    · split
      · split
        · split
          · rfl
          · rw [Listing.perform_after, Sink.calls_append, bind_assoc, calls_rowWrites_bind, ih]
            split
            · simp only [Sink.calls, bind_assoc, pure_bind]
            · simp only [Sink.calls, pure_bind]
        · rw [Listing.perform_after, calls_rowWrites_bind, ih]
      · exact ih summary

/-- The listing of a code object made call by call. -/
theorem streamListing_eq (d : Disassembly) (p : ListingPolicy) :
    streamListing d p sink = (renderListing d p).perform sink := by
  unfold streamListing renderListing
  cases checkStartLine d.code p with
  | error e => rfl
  | ok u => exact streamRows_eq p _ _ _

/-- Who takes failures for something else, but not that of the sink, need not look for them in
calls. -/
theorem tryCatch_calls_bind (ws : List Write) (o : Output σ ρ) {f : ListingError → Output σ ρ}
    (hf : ∀ e, f (.sink e) = throw (.sink e)) :
    tryCatch (sink.calls ws >>= fun _ => o) f = sink.calls ws >>= fun _ => tryCatch o f := by
  refine Output.ext fun s => ?_
  rw [Output.on_tryCatch, Output.on_bind, Output.on_bind, Sink.on_calls]
  rcases Listing.writeAll sink ws s with ⟨e | ⟨⟩, t⟩
  · exact congrArg (fun o => Output.on o t) (hf e)
  · exact (Output.on_tryCatch o f t).symm

/-- What is done about a member that cannot be listed is one call, if it was not the sink. -/
theorem reportMember_eq {name : String} {e : ListingError} (he : ∀ c, e ≠ .sink c) :
    reportMember sink name e = sink.call (.fault ("Sorry: " ++ name ++ ": " ++ e.message)) := by
  cases e with
  | sink c => exact absurd rfl (he c)
  | _ => rfl

/-- The listing of a member made call by call. -/
theorem streamMember_eq (table : OpcodeTable) (p : ListingPolicy) (m : String × CodeObject) :
    streamMember table p sink m = sink.calls (memberWrites table p m.1 m.2) := by
  have hsink : ∀ c, (renderListing ⟨m.2, table, none⟩ p).outcome ≠ .error (.sink c) := by
    intro c hc
    rcases Disassembly.error_of_outcome_renderListing hc with ⟨_, hcause⟩ | ⟨_, _, hcause⟩
    · cases hcause
    · cases hcause
  rw [streamMember, streamListing_eq, memberWrites]
  generalize renderListing ⟨m.2, table, none⟩ p = l at hsink ⊢
  rw [Listing.perform_eq, bind_assoc,
    tryCatch_calls_bind l.writes _ (f := reportMember sink m.1) fun _ => rfl, bind_assoc]
  cases houtcome : l.outcome with
  | ok r =>
    have hdone : tryCatch (do let _ ← (.ofExcept (.ok r) : Output σ ListingSummary))
        (reportMember sink m.1) = pure () := rfl
    rw [hdone, pure_bind, List.append_nil, Sink.calls_append, Sink.calls_singleton]
  | error e =>
    have he : ∀ c, e ≠ .sink c := by
      rintro c rfl
      exact hsink c houtcome
    have hreport : tryCatch (do let _ ← (.ofExcept (.error e) : Output σ ListingSummary))
        (reportMember sink m.1) = reportMember sink m.1 e := rfl
    rw [hreport, reportMember_eq he, List.append_assoc, Sink.calls_append, List.singleton_append,
      Sink.calls, Sink.calls_singleton]

/-- The listings of members made call by call. -/
theorem forM_streamMember_eq (table : OpcodeTable) (p : ListingPolicy)
    (ms : List (String × CodeObject)) :
    ms.forM (streamMember table p sink) =
      sink.calls (ms.flatMap fun m => memberWrites table p m.1 m.2) := by
  induction ms with
  | nil => rfl
  | cons m rest ih =>
    show (streamMember table p sink m >>= fun _ => rest.forM (streamMember table p sink)) = _
    rw [List.flatMap_cons, Sink.calls_append, streamMember_eq, ih]

/-- The listing of a target made call by call. -/
theorem streamTarget_eq (target : Target) (table : OpcodeTable) (p : ListingPolicy)
    (current : Option Nat) :
    streamTarget target table p current sink = (disassemble target table p current).perform sink := by
  unfold streamTarget disassemble
  cases target with
  | code unit =>
    dsimp only
    cases checkStartLine unit p with
    | error e => rfl
    | ok u =>
      dsimp only
      rw [Listing.perform_after, Listing.perform_andThen, streamListing_eq, Sink.calls_singleton]
      rfl
  | container name members =>
    dsimp only
    rw [forM_streamMember_eq, Listing.perform_eq]
    exact (bind_pure _).symm

/-- Rows of source lines made call by call. -/
theorem streamSourceRows_eq (c : SourceContext) (filename : String) (style : HighlightStyle)
    (shown : Option Nat) (line count : Nat) :
    streamSourceRows c filename style sink shown line count =
      (sourceRows c filename style shown line count).perform sink := by
  induction count generalizing shown line with
  | zero => rfl
  | succ count ih =>
    unfold streamSourceRows sourceRows
    cases c.sources.line filename line with
    | none =>
      dsimp only
      rw [Listing.perform_after, Sink.calls_singleton]
      rfl
    | some text =>
      dsimp only
      rw [Listing.perform_after, Sink.calls_singleton, ih]

/-- The listing of source lines made call by call. -/
theorem streamSource_eq (r : SourceRequest) (c : SourceContext) (style : HighlightStyle) :
    streamSource r c style sink = (renderSource r c style).perform sink := by
  unfold streamSource renderSource
  cases c.sources.lineCount r.filename with
  | none => rfl
  | some max =>
    dsimp only
    split
    · rfl
    · rw [Listing.perform_after, ← streamSourceRows_eq]
      split
      · rw [Sink.calls_singleton]
      · rfl

/-! ## Every sink -/

/-- Made call by call, the listing comes to the same and leaves the same behind as when it is
computed and then written, on every sink. -/
def Listing.IsStreamedBy (l : Listing ρ) (made : ∀ σ : Type, Sink σ → Output σ ρ) : Prop :=
  ∀ (σ : Type) (sink : Sink σ) (s : σ), Output.on (made σ sink) s = l.writeTo sink s

/-- The listing of a code object can be made call by call. -/
theorem isStreamedBy_renderListing (d : Disassembly) (p : ListingPolicy) :
    (renderListing d p).IsStreamedBy fun _ => streamListing d p :=
  fun _ _ s => congrArg (fun o => Output.on o s) (streamListing_eq d p)

/-- The listing of a target can be made call by call. -/
theorem isStreamedBy_disassemble (target : Target) (table : OpcodeTable) (p : ListingPolicy)
    (current : Option Nat) :
    (disassemble target table p current).IsStreamedBy
      fun _ => streamTarget target table p current :=
  fun _ _ s => congrArg (fun o => Output.on o s) (streamTarget_eq target table p current)

/-- The listing of source lines can be made call by call. -/
theorem isStreamedBy_renderSource (r : SourceRequest) (c : SourceContext)
    (style : HighlightStyle) :
    (renderSource r c style).IsStreamedBy fun _ => streamSource r c style :=
  fun _ _ s => congrArg (fun o => Output.on o s) (streamSource_eq r c style)

end BytecodeDebugger
