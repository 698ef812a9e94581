import BytecodeDebugger.Proofs.Listing.Containers
import BytecodeDebugger.Proofs.Listing.Streaming

/-!
# Listings on a sink that refuses a call

A sink is watched: the calls made on it are kept, and some are refused by their number, with others
taken again later. The first refusal ends a listing, which then comes to that refusal. Up to there
it has made the calls that it makes when nothing is refused, and it makes no call after it.

Main facts: `writeAll_watched_of_taken` and `writeAll_watched_of_refused` (calls on a watched sink),
and `refusal_ends_listing`.
-/

namespace BytecodeDebugger

variable {ρ σ : Type}

/-! ## Watched sinks -/

/-- A sink of which the calls are kept, the refused ones too, and of which calls are refused by their
number, counted from zero. A call that is not refused is passed on. -/
def Sink.watched (sink : Sink σ) (refuses : Nat → Option ConnectError) :
    Sink (σ × List Write) where
  write w s :=
    match refuses s.2.length with
    | some e => (.error e, s.1, s.2 ++ [w])
    | none =>
      let r := sink.write w s.1
      (r.1, r.2, s.2 ++ [w])

/-- A sink that takes every call. -/
def Sink.Obliges (sink : Sink σ) : Prop := ∀ w s, (sink.write w s).1 = .ok ()

variable {sink : Sink σ} {refuses : Nat → Option ConnectError}

/-- Calls of which none is refused are all made. -/
theorem writeAll_watched_of_taken (hsink : sink.Obliges) (ws calls : List Write) (s : σ)
    (htaken : ∀ n, n < calls.length + ws.length → refuses n = none) :
    Listing.writeAll (sink.watched refuses) ws (s, calls) =
      (.ok (), (Listing.writeAll sink ws s).2, calls ++ ws) := by
  induction ws generalizing s calls with
  | nil => simp [Listing.writeAll]
  | cons w rest ih =>
    have hnone : refuses calls.length = none := by
      refine htaken _ ?_
      rw [List.length_cons]
      omega
    rcases hw : sink.write w s with ⟨r, t⟩
    have hr : r = .ok () := by simpa [hw] using hsink w s
    subst hr
    have hrest := ih (calls ++ [w]) t fun n hn => by
      refine htaken n ?_
      rw [List.length_append, List.length_singleton] at hn
      rw [List.length_cons]
      omega
    rw [List.append_assoc, List.singleton_append] at hrest
    simp only [Listing.writeAll, Sink.watched, hnone, hw]
    exact hrest

/-- Calls up to one that is refused: those before it are made, and so is that one, but none behind
it. -/
theorem writeAll_watched_of_refused (hsink : sink.Obliges) (front back : List Write) (w : Write)
    (s : σ) {e : ConnectError} (hrefused : refuses front.length = some e)
    (htaken : ∀ n, n < front.length → refuses n = none) :
    Listing.writeAll (sink.watched refuses) (front ++ w :: back) (s, []) =
      (.error e, (Listing.writeAll sink front s).2, front ++ [w]) := by
  have hfront := writeAll_watched_of_taken hsink front [] s
    fun n hn => htaken n (by simpa using hn)
  rw [Listing.writeAll_append_of_ok hfront, Listing.writeAll]
  simp only [Sink.watched, List.nil_append, hrefused]

/-! ## Listings -/

/-- What is made of a watched sink, what becomes of the sink itself, and the calls made on it. -/
def attempt (made : ∀ σ : Type, Sink σ → Output σ ρ) (sink : Sink σ)
    (refuses : Nat → Option ConnectError) (s : σ) : Except ListingError ρ × σ × List Write :=
  Output.on (made _ (sink.watched refuses)) (s, [])

/-- A refused call ends what is made of a sink, on every sink that takes all calls but those that are
refused, of which number `k` is the first one. If more than `k` calls are made when none is refused,
it comes to the refusal, `k + 1` calls have been made, which are the first ones that are made when
none is refused, and those before the refused one have been passed on. If not, it comes to the same,
the same calls are made and the sink is left the same as when none is refused. -/
def EndsAtRefusal (made : ∀ σ : Type, Sink σ → Output σ ρ) : Prop :=
  ∀ (σ : Type) (sink : Sink σ) (s : σ), sink.Obliges →
    ∀ (k : Nat) (e : ConnectError) (refuses : Nat → Option ConnectError),
      refuses k = some e → (∀ n < k, refuses n = none) →
        let whole := attempt made sink (fun _ => none) s
        let broken := attempt made sink refuses s
        (k < whole.2.2.length →
          broken.1 = .error (.sink e) ∧ broken.2.2.length = k + 1 ∧
            broken.2.2 = whole.2.2.take (k + 1) ∧
            broken.2.1 = (Listing.writeAll sink (whole.2.2.take k) s).2) ∧
        (whole.2.2.length ≤ k → broken = whole)

namespace Listing

variable {l : Listing ρ} {made : ∀ σ : Type, Sink σ → Output σ ρ} {s : σ}

/-- A listing of whose calls none is refused. -/
theorem IsStreamedBy.attempt_of_taken (h : l.IsStreamedBy made) (hsink : sink.Obliges)
    (htaken : ∀ n, n < l.writes.length → refuses n = none) :
    attempt made sink refuses s = (l.outcome, (writeAll sink l.writes s).2, l.writes) := by
  have hwrites := writeAll_watched_of_taken hsink l.writes [] s
    fun n hn => htaken n (by simpa using hn)
  rw [attempt, h, writeTo, hwrites]
  rfl

/-- A listing of whose calls one is refused. -/
theorem IsStreamedBy.attempt_of_refused (h : l.IsStreamedBy made) (hsink : sink.Obliges) {k : Nat}
    {e : ConnectError} (hk : k < l.writes.length) (hrefused : refuses k = some e)
    (htaken : ∀ n, n < k → refuses n = none) :
    attempt made sink refuses s =
      (.error (.sink e), (writeAll sink (l.writes.take k) s).2, l.writes.take (k + 1)) := by
  have hlength : (l.writes.take k).length = k := List.length_take_of_le (Nat.le_of_lt hk)
  have hsplit : l.writes = l.writes.take k ++ l.writes[k] :: l.writes.drop (k + 1) := by
    rw [List.getElem_cons_drop, List.take_append_drop]
  have hwrites := writeAll_watched_of_refused hsink (l.writes.take k) (l.writes.drop (k + 1))
    l.writes[k] s (hlength.symm ▸ hrefused)
    fun n hn => htaken n (hlength ▸ hn)
  rw [← hsplit, ← List.take_succ_eq_append_getElem hk] at hwrites
  rw [attempt, h, writeTo, hwrites]

/-- What makes a listing call by call ends at a refused call. -/
theorem IsStreamedBy.endsAtRefusal (h : l.IsStreamedBy made) : EndsAtRefusal made := by
  intro σ sink s hsink k e refuses hrefused htaken
  dsimp only
  rw [h.attempt_of_taken hsink fun _ _ => rfl]
  constructor
  · intro hk
    rw [h.attempt_of_refused hsink hk hrefused htaken]
    exact ⟨rfl, List.length_take_of_le hk, rfl, rfl⟩
  · intro hk
    exact h.attempt_of_taken hsink fun n hn => htaken n (Nat.lt_of_lt_of_le hn hk)

end Listing

/-- A refused call ends a listing at once, be it of a code object, of a target or of source lines.
Each of them, made call by call, ends at the first refusal, whether or not later calls would be
taken; a container does not report it as the failure of a member. This is the listing as it is
written, on every sink. -/
theorem refusal_ends_listing :
    (∀ (d : Disassembly) (p : ListingPolicy),
      (renderListing d p).IsStreamedBy (fun _ => streamListing d p) ∧
        EndsAtRefusal fun _ => streamListing d p) ∧
    (∀ (target : Target) (table : OpcodeTable) (p : ListingPolicy) (current : Option Nat),
      (disassemble target table p current).IsStreamedBy
          (fun _ => streamTarget target table p current) ∧
        EndsAtRefusal fun _ => streamTarget target table p current) ∧
    (∀ (r : SourceRequest) (c : SourceContext) (style : HighlightStyle),
      (renderSource r c style).IsStreamedBy (fun _ => streamSource r c style) ∧
        EndsAtRefusal fun _ => streamSource r c style) := by
  refine ⟨fun d p => ?_, fun target table p current => ?_, fun r c style => ?_⟩
  · have hstreamed := isStreamedBy_renderListing d p
    exact ⟨hstreamed, hstreamed.endsAtRefusal⟩
  · have hstreamed := isStreamedBy_disassemble target table p current
    exact ⟨hstreamed, hstreamed.endsAtRefusal⟩
  · have hstreamed := isStreamedBy_renderSource r c style
    exact ⟨hstreamed, hstreamed.endsAtRefusal⟩

/-- A sink that takes every call and collects the text. -/
def Sink.collecting : Sink String := ⟨fun w s => (.ok (), s ++ w.text)⟩

/-- Refuses one call, and takes the later ones. -/
def refusing (k n : Nat) : Option ConnectError := if n = k then some .notConnected else none

/-- The report about a member is refused: the other member is not listed, though further calls would
be taken. A refusal behind the last call does not matter. -/
theorem refusal_ends_listing_brokenMember :
    let made := fun σ : Type => streamTarget (σ := σ) (.container "M" brokenMember)
      RuntimeVersion.classic.table plainly none
    let whole := attempt made .collecting (fun _ => none) ""
    let broken := attempt made .collecting (refusing 3) ""
    whole.1 = .ok () ∧ whole.2.2.length = 8 ∧ broken.1 = .error (.sink .notConnected) ∧
      broken.2.2 = whole.2.2.take 4 ∧
      broken.2.1 = "Disassembly of M:\n           0 NOP                 \n" ∧
      attempt made .collecting (refusing 8) "" = whole := by
  intro made whole broken
  obtain ⟨-, htarget, -⟩ := refusal_ends_listing
  have hends := (htarget (.container "M" brokenMember) RuntimeVersion.classic.table plainly none).2
    String .collecting "" fun _ _ => rfl
  have hlength : whole.2.2.length = 8 := by decide +kernel
  obtain ⟨hrefused, -⟩ := hends 3 .notConnected (refusing 3) rfl (by decide)
  obtain ⟨-, htaken⟩ := hends 8 .notConnected (refusing 8) rfl (by decide)
  obtain ⟨houtcome, -, hcalls, -⟩ := hrefused (by rw [hlength]; decide)
  exact ⟨by decide +kernel, hlength, houtcome, hcalls, by decide +kernel,
    htaken (Nat.le_of_eq hlength)⟩

end BytecodeDebugger
