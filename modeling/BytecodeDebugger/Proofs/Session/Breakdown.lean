import BytecodeDebugger.Proofs.Command.Changes
import BytecodeDebugger.Proofs.Connect.UnreliableQueue
import BytecodeDebugger.Proofs.Session.Question

/-!
# Command lines while the connection breaks down

A front end is talked to over a connection. A call that fails disconnects it, and then nothing is
sent or received any more; so a command line comes to a failure exactly if one of its calls fails,
even where it makes further calls, as after a listing that was refused.

Main facts: `unbroken_or_not_connected` (a dialogue breaks down with the connection),
`not_connected_of_executeLine` (a command line that fails leaves the connection disconnected) and
`executeLine_quit` (why a command line quits).
-/

namespace BytecodeDebugger

open Dialogue

namespace Server

variable {τ : Type} [Transport τ] {c c' : Connection τ}

/-! ## Calls -/

/-- A request is sent, and a frame received. -/
theorem calls_await (request? : Option Frame) (c : Connection τ) : c.Calls (await request? c).2 := by
  unfold await
  cases request? with
  | none => exact .of_call .receive
  | some q =>
    have hsend : c.Calls (c.send q).2 := .of_call (.send q)
    dsimp only
    rcases h : c.send q with ⟨e | _, d⟩ <;> rw [h] at hsend
    · exact hsend
    · exact hsend.trans (.of_call .receive)

/-- Where no frame could be awaited, the connection is lost. -/
theorem not_connected_of_await {request? : Option Frame} {e : ConnectError}
    (h : await request? c = (.error e, c')) : c'.isConnected = false := by
  unfold await at h
  cases request? with
  | none => exact Connection.isConnected_receive_of_error h
  | some q =>
    dsimp only at h
    rcases hsend : c.send q with ⟨e' | _, d⟩ <;> rw [hsend] at h
    · cases h
      exact Connection.isConnected_of_send_eq_error hsend
    · exact Connection.isConnected_receive_of_error h

theorem interface_write (w : Write) (c : Connection τ) : interface.write w c = (write w).on c := rfl

theorem interface_confirm (question : String) (default : Bool) (c : Connection τ) :
    interface.confirm question default c = (confirm question default).on c := rfl

theorem calls_write (w : Write) (c : Connection τ) : c.Calls ((write w).on c).2 := by
  cases w <;> exact .of_call (.send _)

theorem not_connected_of_write {w : Write} {e : ConnectError}
    (h : (write w).on c = (.error e, c')) : c'.isConnected = false := by
  cases w <;> exact Connection.isConnected_of_send_eq_error h

theorem write_of_not_connected (w : Write) (h : c.isConnected = false) :
    (write w).on c = (.error .notConnected, c) := by
  cases w <;> exact Connection.send_of_not_connected _ h

/-- A question is asked in some calls, and where that fails, the connection is lost. -/
theorem calls_confirmWithin (question : String) (default : Bool) (attempts : Nat)
    (c : Connection τ) :
    c.Calls ((confirmWithin question default attempts).on c).2 ∧
      ∀ e, ((confirmWithin question default attempts).on c).1 = .error e →
        ((confirmWithin question default attempts).on c).2.isConnected = false := by
  induction attempts generalizing c with
  | zero => exact ⟨.refl, nofun⟩
  | succ attempts ih =>
    have hawait := calls_await (some (questionFrame question default)) c
    rw [confirmWithin_succ_await]
    rcases hask : await (some (questionFrame question default)) c with ⟨e | _ | f, d⟩ <;>
      rw [hask] at hawait
    · exact ⟨hawait, fun _ _ => not_connected_of_await hask⟩
    · exact ⟨hawait, nofun⟩
    · dsimp only
      split
      · exact ⟨hawait, nofun⟩
      · have hinsist : d.Calls (d.send insistence).2 := .of_call (.send _)
        rcases hsend : d.send insistence with ⟨e | _, d'⟩ <;> rw [hsend] at hinsist
        · exact ⟨hawait.trans hinsist,
            fun _ _ => Connection.isConnected_of_send_eq_error hsend⟩
        · exact ⟨(hawait.trans hinsist).trans (ih d').1, (ih d').2⟩

theorem calls_confirm (question : String) (default : Bool) (c : Connection τ) :
    c.Calls ((confirm question default).on c).2 := by
  rw [confirm, Action.on_of]
  exact (calls_confirmWithin question default _ c).1

/-- Where a question could not be asked, the connection is lost. -/
theorem not_connected_of_confirm {question : String} {default : Bool} {e : ConnectError}
    (h : (confirm question default).on c = (.error e, c')) : c'.isConnected = false := by
  have hlost := (calls_confirmWithin question default (Transport.backlog c.transport + 1) c).2 e
  rw [confirm, Action.on_of] at h
  rw [h] at hlost
  exact hlost rfl

/-! ## Dialogues -/

variable {α : Type}

theorem calls_runOn (d : Dialogue α) (c : Connection τ) : c.Calls (d.runOn interface c).2 := by
  induction d generalizing c with
  | done a => exact .refl
  | write w next ih => exact (calls_write w c).trans (ih _ _)
  | confirm question default next ih => exact (calls_confirm question default c).trans (ih _ _)

/-- No call of a dialogue fails, or the connection is lost at its end. -/
theorem unbroken_or_not_connected (d : Dialogue α) (c : Connection τ) :
    d.Unbroken interface c ∨ (d.runOn interface c).2.isConnected = false := by
  have hlost : ∀ (d : Dialogue α) (c : Connection τ), c.isConnected = false →
      (d.runOn interface c).2.isConnected = false := by
    intro d c hc
    rw [(calls_runOn d c).eq_of_not_connected hc]
    exact hc
  induction d generalizing c with
  | done a => exact .inl (List.forall_mem_nil _)
  | write w next ih =>
    unfold Unbroken
    rw [failuresOn, runOn, interface_write, List.forall_mem_cons]
    rcases h : (write w).on c with ⟨e | _, c'⟩
    · exact .inr (hlost _ _ (not_connected_of_write h))
    · exact (ih (.ok ()) c').imp_left (⟨rfl, ·⟩)
  | confirm question default next ih =>
    unfold Unbroken
    rw [failuresOn, runOn, interface_confirm, List.forall_mem_cons]
    rcases h : (confirm question default).on c with ⟨e | answer, c'⟩
    · exact .inr (hlost _ _ (not_connected_of_confirm h))
    · exact (ih (.ok answer) c').imp_left (⟨rfl, ·⟩)

end Server

/-! ## Command lines -/

namespace Processor

open Server

variable {τ : Type} [Transport τ] {c c' : Connection τ} {p p' : Processor} {line : String}

/-- A command line that fails leaves the connection lost. -/
theorem not_connected_of_executeLine (hcommands : p.commands = .ofList builtinCommands)
    {e : ConnectError} (h : (p.executeLine line).runOn interface c = ((.error e, p'), c')) :
    c'.isConnected = false := by
  rcases unbroken_or_not_connected (p.executeLine line) c with hunbroken | hlost
  · obtain ⟨w, hrun, -⟩ := executeLine_comesTo hcommands hunbroken
    rw [h] at hrun
    cases hrun
  · rw [h] at hlost
    exact hlost

/-- A command line fails if one of its calls does. -/
theorem unbroken_of_executeLine (hcommands : p.commands = .ofList builtinCommands) {flow : Flow}
    (h : ((p.executeLine line).runOn interface c).1.1 = .ok flow) :
    (p.executeLine line).Unbroken interface c := by
  have hok : ∀ e, ¬((p.executeLine line).runOn interface c).1.1 = .error e := by
    intro e he
    cases h.symm.trans he
  rcases executeLine_cases hcommands line with ⟨hsurfaces, -⟩ | ⟨rest, text, hrest, hline⟩
  · exact unbroken_of_onFailure hsurfaces hok
  · rw [hline, runOn_bind] at hok
    rw [hline, unbroken_bind]
    rcases hwrites : (writeAll (p.listingWrites line)).runOn interface c with ⟨e | _, d⟩
    · -- the refusal of a listing cannot be reported over the connection that is lost with it
      rw [hwrites] at hok
      have hlost := unbroken_or_not_connected (writeAll (p.listingWrites line)) c
      rw [hwrites] at hlost
      have hd : d.isConnected = false := by
        refine hlost.resolve_left fun hunbroken => ?_
        have hall := (writesOn_writeAll hunbroken).2
        rw [hwrites] at hall
        cases hall
      have hreport : interface.write (.fault (text e)) d = (.error .notConnected, d) :=
        write_of_not_connected (.fault (text e)) hd
      refine absurd ?_ (hok .notConnected)
      simp only [report, runOn, hreport]
    · rw [hwrites] at hok
      refine ⟨unbroken_of_onFailure (writeAll_onFailure _) ?_, ?_⟩
      · intro e he
        rw [hwrites] at he
        cases he
      · exact unbroken_of_onFailure hrest hok

/-- A command line quits only if it runs `quit`, and if it is told to do so for certain, or if nobody
is to be asked, or if the user is sure. -/
theorem executeLine_quit (hcommands : p.commands = .ofList builtinCommands)
    (h : ((p.executeLine line).runOn interface c).1.1 = .ok .quit) :
    ∃ args, p.Runs line Quit.command args ∧
      (args.head? = some "!" ∨ p.settings.confirm = false ∨
        ((Server.confirm "Really quit?" false).on c).1 = .ok true) := by
  obtain ⟨w, hrun, hw⟩ := executeLine_comesTo hcommands (unbroken_of_executeLine hcommands h)
  have hquit : w.quit = true := by
    rw [hrun] at h
    by_contra hne
    simp [outcome, hne] at h
  rcases hw with rfl | ⟨e, args, hruns, -, hchanges⟩
  · cases hquit
  · cases hchanges with
    | nothing => cases hquit
    | setting _ _ => cases hquit
    | listNext _ => cases hquit
    | quit hreason => exact ⟨args, hruns, hreason⟩

end Processor

end BytecodeDebugger
