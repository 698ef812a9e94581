import BytecodeDebugger.Command.Handler

/-!
# Dialogues and handlers in which calls fail

A call fails if the connection to the user is broken. A dialogue tells with what it goes on after
each failure, and whether it is over then. A handler surfaces failures if it ends with them; a
listing does not, since a failure is part of what it comes to.

Main facts: `failuresOn_bind`, `OnFailure.bind` and `SurfacesIn.bind` (one after another),
`OnFailure.eq_nil_of_isOver` (no further call) and `writesListingIn_list_bind` (what becomes of a
listing).
-/

namespace BytecodeDebugger

namespace Dialogue

variable {α β σ : Type} {P : ConnectError → Dialogue α → Prop}
  {Q : ConnectError → Dialogue β → Prop} {R : ConnectError → α → Prop} {d : Dialogue α}

/-! ## Failing calls -/

/-- Why a call failed, if it did. -/
def failure? : Except ConnectError α → Option ConnectError
  | .ok _ => none
  | .error e => some e

/-- The calls of the dialogue held with a user, one after the other: why each failed, if it did. -/
def failuresOn (i : Interface σ) : Dialogue α → σ → List (Option ConnectError)
  | .done _, _ => []
  | .write w next, s =>
    let (r, s) := i.write w s
    failure? r :: (next r).failuresOn i s
  | .confirm q d next, s =>
    let (r, s) := i.confirm q d s
    failure? r :: (next r).failuresOn i s

/-- The calls of one dialogue after another. -/
theorem failuresOn_bind (i : Interface σ) (d : Dialogue α) (f : α → Dialogue β) (s : σ) :
    (d >>= f).failuresOn i s =
      d.failuresOn i s ++ (f (d.runOn i s).1).failuresOn i (d.runOn i s).2 := by
  show (d.andThen f).failuresOn i s = _
  induction d generalizing s with
  | done a => rfl
  | write w next ih => simp [andThen, failuresOn, runOn, ih]
  | confirm q d next ih => simp [andThen, failuresOn, runOn, ih]

/-- Of calls that are made up to the first one that fails, all succeed but that one. -/
theorem failuresOn_writeAll_of_error {i : Interface σ} {ws : List Write} {s t : σ}
    {e : ConnectError} (h : (writeAll ws).runOn i s = (.error e, t)) :
    ∃ k < ws.length, (writeAll ws).failuresOn i s = List.replicate k none ++ [some e] := by
  induction ws generalizing s with
  | nil => cases h
  | cons w rest ih =>
    rcases hw : i.write w s with ⟨r, s'⟩
    simp only [writeAll, runOn, failuresOn, hw] at h ⊢
    cases r with
    | error e' =>
      cases h
      exact ⟨0, Nat.succ_pos _, rfl⟩
    | ok u =>
      obtain ⟨k, hk, hcalls⟩ := ih h
      exact ⟨k + 1, Nat.succ_lt_succ hk, congrArg (none :: ·) hcalls⟩

/-- Where a call fails, the dialogue goes on in some way that depends on the failure. -/
def OnFailure (P : ConnectError → Dialogue α → Prop) : Dialogue α → Prop
  | .done _ => True
  | .write _ next => (∀ e, P e (next (.error e))) ∧ (next (.ok ())).OnFailure P
  | .confirm _ _ next =>
    (∀ e, P e (next (.error e))) ∧ ∀ answer, (next (.ok answer)).OnFailure P

/-- The dialogue is over and came to some value. -/
def IsOver (R : ConnectError → α → Prop) (e : ConnectError) (d : Dialogue α) : Prop :=
  ∃ a, R e a ∧ d = .done a

/-- A dialogue that goes on after another one. -/
theorem OnFailure.bind {f : α → Dialogue β} (h : d.OnFailure P) (hf : ∀ a, (f a).OnFailure Q)
    (hPQ : ∀ e d, P e d → Q e (d >>= f)) : (d >>= f).OnFailure Q := by
  show (d.andThen f).OnFailure Q
  induction d with
  | done a => exact hf a
  | write w next ih => exact ⟨fun e => hPQ e _ (h.1 e), ih _ h.2⟩
  | confirm q d next ih => exact ⟨fun e => hPQ e _ (h.1 e), fun answer => ih _ (h.2 answer)⟩

/-- One call of a dialogue that is over when that call fails. -/
theorem eq_nil_of_isOver_call {γ : Type} {next : Except ConnectError γ → Dialogue α}
    {r : Except ConnectError γ} {i : Interface σ} {s : σ}
    {before after : List (Option ConnectError)} {e : ConnectError}
    (hover : ∀ e, IsOver R e (next (.error e)))
    (hok : ∀ a rest, r = .ok a → (next (.ok a)).failuresOn i s = rest ++ some e :: after →
      after = [] ∧ R e ((next (.ok a)).runOn i s).1)
    (hfails : failure? r :: (next r).failuresOn i s = before ++ some e :: after) :
    after = [] ∧ R e ((next r).runOn i s).1 := by
  cases r with
  | ok a =>
    cases before with
    | nil => exact absurd (List.cons.inj hfails).1 (Option.some_ne_none e).symm
    | cons b rest => exact hok a rest rfl (List.cons.inj hfails).2
  | error e' =>
    obtain ⟨a, ha, hdone⟩ := hover e'
    rw [hdone] at hfails ⊢
    cases before with
    | nil =>
      obtain ⟨he, hafter⟩ := List.cons.inj hfails
      cases he
      exact ⟨hafter.symm, ha⟩
    | cons b rest => exact absurd (List.cons.inj hfails).2 (by simp [failuresOn])

/-- A dialogue that is over when a call fails makes no further call then, and comes to what that
failure leads to. -/
theorem OnFailure.eq_nil_of_isOver (h : d.OnFailure (IsOver R)) {i : Interface σ} {s : σ}
    {before after : List (Option ConnectError)} {e : ConnectError}
    (hfails : d.failuresOn i s = before ++ some e :: after) :
    after = [] ∧ R e (d.runOn i s).1 := by
  induction d generalizing s before with
  | done a => exact absurd hfails (by simp [failuresOn])
  | write w next ih =>
    exact eq_nil_of_isOver_call h.1 (fun _ _ _ hrest => ih _ h.2 hrest) hfails
  | confirm q d next ih =>
    exact eq_nil_of_isOver_call h.1 (fun answer _ _ hrest => ih _ (h.2 answer) hrest) hfails

/-- Calls that are made up to the first one that fails come to its failure. -/
theorem writeAll_onFailure (ws : List Write) :
    (writeAll ws).OnFailure (IsOver fun e r => r = .error e) := by
  induction ws with
  | nil => trivial
  | cons w rest ih => exact ⟨fun e => ⟨_, rfl, rfl⟩, ih⟩

end Dialogue

/-! ## Handlers -/

namespace Handler

open Dialogue

variable {α β ρ : Type} {w : Workspace}

/-- A handler and what goes on after it. -/
theorem run_bind (h : Handler α) (f : α → Handler β) (w : Workspace) :
    (h >>= f).run w = h.run w >>= fun r =>
      match r with
      | (.ok a, w) => (f a).run w
      | (.error e, w) => .done (.error e, w) := by
  show (h.run w).andThen _ = (h.run w).andThen _
  congr
  funext r
  obtain ⟨r, w⟩ := r
  cases r <;> rfl

theorem run_get_bind (f : Workspace → Handler β) (w : Workspace) :
    ((get : Handler Workspace) >>= f).run w = (f w).run w := rfl

/-- A handler that begins with a value or with reasons why there is none. -/
theorem run_orFail_bind (r : Except (List String) α) (f : α → Handler β) (w : Workspace) :
    (orFail r >>= f).run w =
      match r with
      | .ok a => (f a).run w
      | .error causes => .done (.error (.report causes), w) := by
  cases r <;> rfl

/-- A listing makes its calls, and comes to its outcome or to the refusal of one of them. -/
theorem run_list (l : Listing ρ) (w : Workspace) :
    (list l).run w = Dialogue.writeAll l.writes >>= fun r =>
      .done (.ok (match r with
        | .ok () => l.outcome
        | .error e => .error (.sink e)), w) := by
  show (Dialogue.writeAll l.writes).andThen _ = (Dialogue.writeAll l.writes).andThen _
  congr
  funext r
  cases r <;> rfl

/-- In a workspace, the handler ends with the failure of the connection when a call fails. -/
def SurfacesIn (h : Handler α) (w : Workspace) : Prop :=
  (h.run w).OnFailure (IsOver fun e r => r.1 = .error (.connect e))

/-- A handler that goes on after another one. -/
theorem SurfacesIn.bind {h : Handler α} {f : α → Handler β} (hh : h.SurfacesIn w)
    (hf : ∀ a w', (f a).SurfacesIn w') : (h >>= f).SurfacesIn w := by
  rw [SurfacesIn, run_bind]
  refine OnFailure.bind hh ?_ ?_
  · rintro ⟨e | a, w'⟩
    · trivial
    · exact hf a w'
  · rintro e d ⟨⟨r, w'⟩, rfl, rfl⟩
    exact ⟨_, rfl, rfl⟩

/-- A dialogue that comes to the failure of a call. -/
theorem surfacesIn_speak {d : Dialogue (Except ConnectError α)}
    (h : d.OnFailure (IsOver fun e r => r = .error e)) : (speak d).SurfacesIn w := by
  refine OnFailure.bind h ?_ ?_
  · rintro (e | a) <;> trivial
  · rintro e d ⟨r, rfl, rfl⟩
    exact ⟨_, rfl, rfl⟩

/-! ### What handlers are made of -/

theorem surfacesIn_say (text : String) : (say text).SurfacesIn w :=
  surfacesIn_speak ⟨fun _ => ⟨_, rfl, rfl⟩, trivial⟩

theorem surfacesIn_confirm (question : String) (default : Bool) :
    (confirm question default).SurfacesIn w :=
  surfacesIn_speak ⟨fun _ => ⟨_, rfl, rfl⟩, fun _ => trivial⟩

theorem surfacesIn_sayAll (lines : List String) : (sayAll lines).SurfacesIn w :=
  surfacesIn_speak (writeAll_onFailure _)

/-- Whatever makes no call. -/
theorem surfacesIn_of_run_eq_done {h : Handler α} {r : Except CommandFailure α × Workspace}
    (hrun : h.run w = .done r) : h.SurfacesIn w := by
  rw [SurfacesIn, hrun]
  trivial

theorem surfacesIn_pure (a : α) : (pure a : Handler α).SurfacesIn w :=
  surfacesIn_of_run_eq_done rfl

theorem surfacesIn_fail (causes : List String) : (fail causes : Handler α).SurfacesIn w :=
  surfacesIn_of_run_eq_done rfl

theorem surfacesIn_get : (get : Handler Workspace).SurfacesIn w := surfacesIn_of_run_eq_done rfl

theorem surfacesIn_set (w' : Workspace) : (set w' : Handler Unit).SurfacesIn w :=
  surfacesIn_of_run_eq_done rfl

theorem surfacesIn_orFail (r : Except (List String) α) : (orFail r).SurfacesIn w := by
  cases r <;> exact surfacesIn_of_run_eq_done rfl

/-- One handler for each item of a list. -/
theorem surfacesIn_forM {items : List α} {f : α → Handler Unit}
    (hf : ∀ a ∈ items, ∀ w, (f a).SurfacesIn w) : (items.forM f).SurfacesIn w := by
  induction items generalizing w with
  | nil => exact surfacesIn_pure ()
  | cons a rest ih =>
    exact (hf a List.mem_cons_self w).bind fun _ _ =>
      ih fun b hb => hf b (List.mem_cons_of_mem a hb)

/-! ### Listings -/

/-- In a workspace, the handler makes the calls of a listing and is over. When one of them fails it
has something to report. -/
def WritesListingIn (h : Handler α) (w : Workspace) (ws : List Write) : Prop :=
  ∃ (causes : ConnectError → List String) (r : Except CommandFailure α × Workspace),
    h.run w = Dialogue.writeAll ws >>= fun
      | .ok () => .done r
      | .error e => .done (.error (.report (causes e)), w)

/-- A listing, and what is made of what it comes to. -/
theorem writesListingIn_list_bind {l : Listing ρ} {f : Except ListingError ρ → Handler α}
    {causes : ConnectError → List String}
    (hrefused : ∀ e, (f (.error (.sink e))).run w = .done (.error (.report (causes e)), w))
    (hwritten : ∃ r, (f l.outcome).run w = .done r) :
    (list l >>= f).WritesListingIn w l.writes := by
  obtain ⟨r, hwritten⟩ := hwritten
  refine ⟨causes, r, ?_⟩
  rw [run_bind, run_list, Dialogue.bind_assoc]
  congr
  funext result
  cases result with
  | ok u => exact hwritten
  | error e => exact hrefused e

end Handler

end BytecodeDebugger
