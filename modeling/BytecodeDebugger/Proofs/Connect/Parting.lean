import BytecodeDebugger.Proofs.Connect.LifeCycle
import Mathlib.Data.List.Chain

/-!
# Quit frames of a connection

A history of a connection holds its openings and the frames it sends, in their order. If nobody asks
to send a quit frame in the middle of a session, a connection sends one only to leave: at most one
each time it was opened, and nothing behind it before it is opened again. Letting a connection go is
the last turn of its life cycle.

Main facts: `Discreet.turn` (one turn), `discreet_history` (any events) and `Turn.drop` (letting a
connection go).
-/

namespace BytecodeDebugger

/-- Whether a frame tells that its sender is leaving. -/
def Frame.isQuit (f : Frame) : Bool := f.role? == some .quit

namespace Connection

variable {c c' : Connection QueueTransport} {request : Option Frame}

/-! ## Letting go -/

/-- A connection that has said goodbye is down. -/
theorem Coupled.isDown_finalize (hc : c.Coupled) (r : Role) : (c.finalize r).IsDown := by
  rcases hc with hup | hdown
  · rw [hup.finalize_eq]
    split
    · exact hup.close
    · exact (hup.keep _).close
  · rw [hdown.finalize_eq]
    exact hdown

/-- Letting a connection go is saying goodbye with a quit frame. -/
theorem Coupled.drop_eq (hc : c.Coupled) : c.drop = c.finalize .quit := by
  have hopen : (c.finalize .quit).transport.isOpen = false := (hc.isDown_finalize .quit).2
  have hrelease : (c.finalize .quit).transport.release = (c.finalize .quit).transport := by
    rw [QueueTransport.release, ← hopen]
  show { c.finalize .quit with transport := (c.finalize .quit).transport.release } = _
  rw [hrelease]

/-- A connection that is let go sends one quit frame if it can, and nothing otherwise. -/
theorem Coupled.sent_drop (hc : c.Coupled) :
    c.drop.transport.sent = c.transport.sent ++
      if c.isConnected = true ∧ c.transport.failSend = false then [.ofRole .quit "\n"] else [] := by
  rw [hc.drop_eq]
  rcases hc with hup | hdown
  · rw [hup.finalize_eq, hup.isConnected]
    cases c.transport.failSend <;> simp [keep]
  · rw [hdown.finalize_eq, hdown.isConnected]
    simp

/-! ## Histories -/

/-- What can be told from the far end of a connection: that it was opened, or a frame it sent. -/
inductive Mark where
  | opened
  | sent (f : Frame)
  deriving DecidableEq, Repr

namespace Mark

/-- The frame of a mark. -/
def frame? : Mark → Option Frame
  | .opened => none
  | .sent f => some f

/-- Whether the mark is a quit frame. -/
def isQuit (m : Mark) : Bool := m.frame?.any Frame.isQuit

end Mark

/-- What can be told when one connection has become the other. -/
def marks (c c' : Connection QueueTransport) : List Mark :=
  List.replicate (c'.transport.opens - c.transport.opens) .opened ++
    (c'.transport.sent.drop c.transport.sent.length).map .sent

/-- What can be told while events happen. -/
def history : List Event → Connection QueueTransport → List Mark
  | [], _ => []
  | e :: rest, c => marks c (e.act c) ++ history rest (e.act c)

/-- Openings and frames that were added show as such. -/
theorem marks_eq (opens : Nat) (frames : List Frame)
    (hopens : c'.transport.opens = c.transport.opens + opens)
    (hsent : c'.transport.sent = c.transport.sent ++ frames) :
    marks c c' = List.replicate opens .opened ++ frames.map .sent := by
  rw [marks, hopens, hsent, Nat.add_sub_cancel_left, List.drop_left]

namespace Turn

/-- A turn adds openings and frames, if anything. -/
theorem exists_added (h : Turn request c c') : ∃ opens frames,
    c'.transport.opens = c.transport.opens + opens ∧
      c'.transport.sent = c.transport.sent ++ frames := by
  cases h with
  | stays _ _ hsent hopens => exact ⟨0, [], hopens, by rw [hsent, List.append_nil]⟩
  | opens _ _ hsent hopens => exact ⟨1, [], hopens, by rw [hsent, List.append_nil]⟩
  | sends f _ _ _ hsent hopens => exact ⟨0, [f], hopens, hsent⟩
  | closes last _ _ hsent hopens => exact ⟨0, last.toList, hopens, hsent⟩

/-- The frames that a turn adds show among its marks. -/
theorem filterMap_marks (h : Turn request c c') :
    c.transport.sent ++ (marks c c').filterMap Mark.frame? = c'.transport.sent := by
  obtain ⟨opens, frames, hopens, hsent⟩ := h.exists_added
  have hframes : Mark.frame? ∘ Mark.sent = some := rfl
  have hopened : (List.replicate opens Mark.opened).filterMap Mark.frame? = [] := by
    rw [List.filterMap_replicate_of_none rfl]
  rw [marks_eq opens frames hopens hsent, List.filterMap_append, hopened, List.nil_append,
    List.filterMap_map, hframes, List.filterMap_some, hsent]

/-- The openings that a turn adds show among its marks. -/
theorem count_marks (h : Turn request c c') :
    c.transport.opens + (marks c c').count .opened = c'.transport.opens := by
  obtain ⟨opens, frames, hopens, hsent⟩ := h.exists_added
  have hframes : (frames.map Mark.sent).count .opened = 0 := by
    rw [List.count_eq_zero]
    simp
  rw [marks_eq opens frames hopens hsent, List.count_append, List.count_replicate_self, hframes,
    hopens]
  rfl

theorem drop (hc : c.Coupled) : Turn none c c.drop := by
  rw [hc.drop_eq]
  exact .finalize hc .quit

end Turn

/-! ## Discreet histories -/

/-- Behind a quit frame, the next thing to be told is an opening. -/
def Silences (m m' : Mark) : Prop := m.isQuit = true → m' = .opened

/-- A history in which a quit frame is sent only to leave, and that has brought a connection to
where it is. -/
structure Discreet (log : List Mark) (c : Connection QueueTransport) : Prop where
  chain : log.IsChain Silences
  /-- A connection that is up has not left. -/
  last : c.IsUp → ∀ m ∈ log.getLast?, m.isQuit = false
  /-- Each opening allows for one quit frame, which is still to come while it is up. -/
  count : c.transport.sent.countP Frame.isQuit + (if c.isConnected then 1 else 0) ≤
    c.transport.opens

theorem discreet_unopened : Discreet [] unopened where
  chain := .nil
  last _ _ hm := absurd hm (by simp)
  count := Nat.le_refl 0

namespace Discreet

variable {log : List Mark}

/-- Behind the history of a connection that is up, anything can be told. -/
theorem chain_append (h : Discreet log c) (hup : c.IsUp) (m : Mark) :
    (log ++ [m]).IsChain Silences := by
  refine List.isChain_append.2 ⟨h.chain, .singleton m, ?_⟩
  intro m' hm' _ _ hquit
  exact absurd hquit (by simp [h.last hup m' hm'])

/-- One turn keeps a history discreet, unless it is asked to send a quit frame. -/
theorem turn (h : Discreet log c) (ht : Turn request c c')
    (hrequest : ∀ f, request = some f → f.isQuit = false) :
    Discreet (log ++ marks c c') c' := by
  have hcount := h.count
  cases ht with
  | stays hstate hopen hsent hopens =>
    have hmarks : marks c c' = [] := marks_eq 0 [] hopens (by simpa using hsent)
    have hconnected : c'.isConnected = c.isConnected := by rw [isConnected, isConnected, hstate]
    rw [hmarks, List.append_nil]
    refine ⟨h.chain, ?_, ?_⟩
    · exact fun hup => h.last ⟨hstate ▸ hup.1, hopen ▸ hup.2⟩
    · rw [hsent, hopens, hconnected]
      exact hcount
  | opens hdown hup hsent hopens =>
    have hmarks : marks c c' = [.opened] := marks_eq 1 [] hopens (by simpa using hsent)
    rw [hmarks]
    refine ⟨?_, ?_, ?_⟩
    · refine List.isChain_append.2 ⟨h.chain, .singleton _, ?_⟩
      intro _ _ m hm _
      exact (Option.some.inj hm).symm
    · intro _ m hm
      rw [List.getLast?_concat] at hm
      cases hm
      rfl
    · rw [hdown.isConnected] at hcount
      rw [hup.isConnected, hsent, hopens]
      exact Nat.succ_le_succ hcount
  | sends f hf hup hup' hsent hopens =>
    have hmarks : marks c c' = [.sent f] := marks_eq 0 [f] hopens hsent
    have hquit : f.isQuit = false := hrequest f hf
    rw [hmarks]
    refine ⟨h.chain_append hup _, ?_, ?_⟩
    · intro _ m hm
      rw [List.getLast?_concat] at hm
      cases hm
      exact hquit
    · have hnone : [f].countP Frame.isQuit = 0 := by simp [hquit]
      rw [hup.isConnected] at hcount
      rw [hup'.isConnected, hsent, hopens, List.countP_append, hnone]
      exact hcount
  | closes last hup hdown hsent hopens =>
    have hmarks : marks c c' = last.toList.map .sent := marks_eq 0 last.toList hopens hsent
    rw [hmarks]
    refine ⟨?_, ?_, ?_⟩
    · cases last with
      | none => simpa using h.chain
      | some f => exact h.chain_append hup _
    · intro hup'
      exact absurd hup'.isConnected (by simp [hdown.isConnected])
    · -- the quit frame that the opening allows for may have been this one
      have hone : last.toList.countP Frame.isQuit ≤ 1 :=
        Nat.le_trans List.countP_le_length (by cases last <;> simp)
      rw [hup.isConnected, if_pos rfl] at hcount
      rw [hdown.isConnected, hsent, hopens, List.countP_append]
      exact Nat.le_trans (Nat.add_le_add_left hone _) hcount

end Discreet

/-- Events that ask for no quit frame keep a history discreet. -/
theorem discreet_history {log : List Mark} {events : List Event} (hc : c.Coupled)
    (h : Discreet log c) (hevents : ∀ e ∈ events, ∀ f, e.request? = some f → f.isQuit = false) :
    Discreet (log ++ history events c) (run events c) := by
  induction events generalizing log c with
  | nil => simpa [history, run] using h
  | cons e rest ih =>
    have hturn := e.turn hc
    have hnext := h.turn hturn (hevents e List.mem_cons_self)
    rw [history, ← List.append_assoc]
    exact ih (hturn.coupled hc) hnext fun e' he' => hevents e' (List.mem_cons_of_mem e he')

/-- The frames in the history of events are those that they add. -/
theorem filterMap_history (events : List Event) (hc : c.Coupled) :
    c.transport.sent ++ (history events c).filterMap Mark.frame? =
      (run events c).transport.sent := by
  induction events generalizing c with
  | nil => exact List.append_nil _
  | cons e rest ih =>
    have hturn := e.turn hc
    rw [history, List.filterMap_append, ← List.append_assoc, hturn.filterMap_marks,
      ih (hturn.coupled hc), run]

/-- The openings in the history of events are those that they add. -/
theorem count_history (events : List Event) (hc : c.Coupled) :
    c.transport.opens + (history events c).count .opened = (run events c).transport.opens := by
  induction events generalizing c with
  | nil => rfl
  | cons e rest ih =>
    have hturn := e.turn hc
    rw [history, List.count_append, ← Nat.add_assoc, hturn.count_marks, ih (hturn.coupled hc), run]

/-- Between a quit frame and a later frame, there is an opening. -/
theorem opened_mem_of_isChain {before between after : List Mark} {q f : Frame}
    (h : (before ++ .sent q :: (between ++ .sent f :: after)).IsChain Silences)
    (hq : q.isQuit = true) : .opened ∈ between := by
  have hnext := (List.isChain_cons.1 h.right_of_append).1
  cases between with
  | nil => exact absurd (hnext _ rfl hq) (by simp)
  | cons m rest =>
    have hm : m = .opened := hnext m rfl hq
    exact hm ▸ List.mem_cons_self

/-- Whatever is called on a connection but sending quit frames in the middle of a session, and
whatever happens at its far end: up to the moment when it has been let go, it has sent at most one
quit frame for each time it was opened, and no frame between a quit frame and the next opening.
Letting it go sends one quit frame if it is connected and its transport takes it, and none
otherwise, and closes the transport. -/
theorem quit_once_per_opening {events : List Event}
    (h : ∀ e ∈ events, ∀ f, e.request? = some f → f.isQuit = false) :
    let c := run events unopened
    let log := history events unopened ++ marks c c.drop
    log.filterMap Mark.frame? = c.drop.transport.sent ∧
      log.count .opened = c.drop.transport.opens ∧
      c.drop.transport.sent.countP Frame.isQuit ≤ c.drop.transport.opens ∧
      (∀ before between after q f, log = before ++ .sent q :: (between ++ .sent f :: after) →
        q.isQuit = true → .opened ∈ between) ∧
      (c.drop.transport.sent = c.transport.sent ++
        if c.isConnected = true ∧ c.transport.failSend = false then [.ofRole .quit "\n"] else []) ∧
      c.drop.transport.isOpen = false := by
  intro c log
  have hunopened : unopened.Coupled := .inr isDown_unopened
  have hc : c.Coupled := coupled_run events hunopened
  have hdrop : Turn none c c.drop := .drop hc
  have hdiscreet : Discreet log c.drop :=
    (discreet_history hunopened discreet_unopened h).turn hdrop (by simp)
  refine ⟨?_, ?_, ?_, ?_, hc.sent_drop, rfl⟩
  · have hsent := filterMap_history events hunopened
    rw [List.filterMap_append, ← hdrop.filterMap_marks, ← hsent]
    rfl
  · have hopens := count_history events hunopened
    rw [List.count_append, ← hdrop.count_marks, ← hopens]
    exact congrArg (· + _) (Nat.zero_add _).symm
  · exact Nat.le_trans (Nat.le_add_right _ _) hdiscreet.count
  · intro before between after q f hlog hq
    exact opened_mem_of_isChain (hlog ▸ hdiscreet.chain) hq

/-- A connection that is refused, opened, left and opened again, and that receives a frame. -/
def twoSessions : List Event :=
  [.refuseOpens true, .connect, .refuseOpens false, .connect, .write .print "a", .finalize .quit,
    .writeLine .print "b", .connect, .push (.reply "c"), .receive]

/-- Let go in its second session, it has sent a quit frame at the end of each of the two. -/
theorem quit_once_per_opening_twoSessions :
    (run twoSessions unopened).drop.transport.sent =
        [.ofRole .print "a", .ofRole .quit "\n", .ofRole .quit "\n"] ∧
      (run twoSessions unopened).drop.transport.opens = 2 := by
  have h : ∀ e ∈ twoSessions, ∀ f, e.request? = some f → f.isQuit = false := by
    decide
  obtain ⟨-, hopens, -, -, hsent, -⟩ := quit_once_per_opening h
  refine ⟨hsent.trans ?_, hopens.symm.trans ?_⟩ <;> decide

end Connection

end BytecodeDebugger
