import BytecodeDebugger.Proofs.Command.Surfacing

/-!
# Dialogues and handlers in which no call fails

As long as the connection holds, a dialogue writes what it has to write, and a handler settles: it
comes to a value, or it has something to report. All handlers of the debugger leave the workspace
alone until nothing can go wrong any more, so what they have to report is reported of a workspace
that is unchanged.

Main facts: `unbroken_bind`, `writesOn_bind` and `SettlesOn.bind` (one after another), and
`writesOn_writeAll` (calls that are made up to the first one that fails are all made).
-/

namespace BytecodeDebugger

/-- A user who takes everything that is written, answers as is suggested and has no commands. -/
def Interface.obliging : Interface Unit where
  write _ s := (.ok (), s)
  confirm _ default s := (.ok default, s)
  readCommand _ s := (.ok none, s)
  backlog _ := 0

/-- A user who makes no call fail. -/
structure Interface.Obliges {σ : Type} (i : Interface σ) : Prop where
  write : ∀ w s, (i.write w s).1 = .ok ()
  confirm : ∀ question default s, ∃ answer, (i.confirm question default s).1 = .ok answer

/-- An obliging user makes no call fail. -/
theorem Interface.obliges_obliging : Interface.obliging.Obliges :=
  ⟨fun _ _ => rfl, fun _ default _ => ⟨default, rfl⟩⟩

namespace Dialogue

variable {α β σ : Type} {i : Interface σ} {s : σ}

/-! ## Dialogues -/

/-- No call of the dialogue held with a user fails. -/
def Unbroken (i : Interface σ) (s : σ) (d : Dialogue α) : Prop :=
  ∀ r ∈ d.failuresOn i s, r = none

instance (i : Interface σ) (s : σ) (d : Dialogue α) : Decidable (d.Unbroken i s) :=
  inferInstanceAs (Decidable (∀ r ∈ d.failuresOn i s, r = none))

/-- No call to a user fails who makes none fail. -/
theorem unbroken_of_obliges (hi : i.Obliges) (d : Dialogue α) (s : σ) : d.Unbroken i s := by
  induction d generalizing s with
  | done a => exact List.forall_mem_nil _
  | write w next ih =>
    refine List.forall_mem_cons.mpr ⟨?_, ih _ _⟩
    rw [hi.write w s]
    rfl
  | confirm question default next ih =>
    obtain ⟨answer, hanswer⟩ := hi.confirm question default s
    refine List.forall_mem_cons.mpr ⟨?_, ih _ _⟩
    rw [hanswer]
    rfl

theorem unbroken_obliging (d : Dialogue α) : d.Unbroken Interface.obliging () :=
  unbroken_of_obliges Interface.obliges_obliging d ()

/-- What is written to a user in the dialogue held with them, call by call. -/
def writesOn (i : Interface σ) : Dialogue α → σ → List Write
  | .done _, _ => []
  | .write w next, s =>
    let (r, s) := i.write w s
    w :: (next r).writesOn i s
  | .confirm q d next, s =>
    let (r, s) := i.confirm q d s
    (next r).writesOn i s

/-- A dialogue that goes on after another one is unbroken if both are. -/
theorem unbroken_bind {d : Dialogue α} {f : α → Dialogue β} :
    (d >>= f).Unbroken i s ↔
      d.Unbroken i s ∧ (f (d.runOn i s).1).Unbroken i (d.runOn i s).2 := by
  unfold Unbroken
  rw [failuresOn_bind]
  exact List.forall_mem_append

/-- What is written in one dialogue after another. -/
theorem writesOn_bind (i : Interface σ) (d : Dialogue α) (f : α → Dialogue β) (s : σ) :
    (d >>= f).writesOn i s =
      d.writesOn i s ++ (f (d.runOn i s).1).writesOn i (d.runOn i s).2 := by
  show (d.andThen f).writesOn i s = _
  induction d generalizing s with
  | done a => rfl
  | write w next ih => simp [andThen, writesOn, runOn, ih]
  | confirm q d next ih => simp [andThen, writesOn, runOn, ih]

/-- A call that does not fail is made, and the dialogue goes on from there. -/
theorem Unbroken.write {w : Write} {next : Except ConnectError Unit → Dialogue α}
    (h : (Dialogue.write w next).Unbroken i s) :
    ∃ t, i.write w s = (.ok (), t) ∧ (next (.ok ())).Unbroken i t := by
  rcases hw : i.write w s with ⟨r, t⟩
  simp only [Unbroken, failuresOn, hw, List.forall_mem_cons] at h
  cases r with
  | error e => exact absurd h.1 (Option.some_ne_none e)
  | ok u => exact ⟨t, rfl, h.2⟩

/-- A question that does not fail is answered, and the dialogue goes on from there. -/
theorem Unbroken.confirm {question : String} {default : Bool}
    {next : Except ConnectError Bool → Dialogue α}
    (h : (Dialogue.confirm question default next).Unbroken i s) :
    ∃ answer t, i.confirm question default s = (.ok answer, t) ∧
      (next (.ok answer)).Unbroken i t := by
  rcases hc : i.confirm question default s with ⟨r, t⟩
  simp only [Unbroken, failuresOn, hc, List.forall_mem_cons] at h
  cases r with
  | error e => exact absurd h.1 (Option.some_ne_none e)
  | ok answer => exact ⟨answer, t, rfl, h.2⟩

/-- Calls that are made up to the first one that fails are all made if none fails. -/
theorem writesOn_writeAll {ws : List Write} (h : (writeAll ws).Unbroken i s) :
    (writeAll ws).writesOn i s = ws ∧ ((writeAll ws).runOn i s).1 = .ok () := by
  induction ws generalizing s with
  | nil => exact ⟨rfl, rfl⟩
  | cons w rest ih =>
    obtain ⟨t, hw, hrest⟩ := Unbroken.write h
    obtain ⟨hwrites, hrun⟩ := ih hrest
    simp only [writeAll, writesOn, runOn, hw, hwrites, hrun, and_self]

/-- A dialogue that goes on after calls that are made up to the first one that fails. -/
theorem writesOn_writeAll_bind {ws : List Write} {f : Except ConnectError Unit → Dialogue β}
    (h : (writeAll ws >>= f).Unbroken i s) :
    ∃ t, (f (.ok ())).Unbroken i t ∧
      (writeAll ws >>= f).writesOn i s = ws ++ (f (.ok ())).writesOn i t := by
  rw [unbroken_bind] at h
  obtain ⟨hfirst, hrest⟩ := h
  obtain ⟨hwrites, hrun⟩ := writesOn_writeAll hfirst
  rw [hrun] at hrest
  rw [writesOn_bind, hwrites, hrun]
  exact ⟨_, hrest, rfl⟩

/-- A dialogue that is over when a call fails is unbroken if it came to something else. -/
theorem unbroken_of_onFailure {R : ConnectError → α → Prop} {d : Dialogue α}
    (h : d.OnFailure (IsOver R)) (hR : ∀ e, ¬R e (d.runOn i s).1) : d.Unbroken i s := by
  intro r hr
  cases r with
  | none => rfl
  | some e =>
    obtain ⟨before, after, hfails⟩ := List.append_of_mem hr
    exact absurd (h.eq_nil_of_isOver hfails).2 (hR e)

end Dialogue

/-! ## Handlers -/

namespace Handler

open Dialogue

variable {α β ρ σ : Type} {w : Workspace} {i : Interface σ} {s : σ} {P : α → Prop}
  {Q : β → Workspace → Prop}

/-- What a handler came to that began in a workspace: a value and a workspace of a kind, or
something to report of the workspace it began in. -/
def Settled (w : Workspace) (Q : α → Workspace → Prop) :
    Except CommandFailure α × Workspace → Prop
  | (.ok a, w') => Q a w'
  | (.error (.report _), w') => w' = w
  | (.error (.connect _), _) => False

/-- If no call of the dialogue held with a user fails, the handler settles. -/
def SettlesOn (i : Interface σ) (s : σ) (w : Workspace) (h : Handler α)
    (Q : α → Workspace → Prop) : Prop :=
  (h.run w).Unbroken i s → Settled w Q ((h.run w).runOn i s).1

/-- A handler that goes on, after another one that leaves the workspace alone. -/
theorem SettlesOn.bind {h : Handler α} {f : α → Handler β}
    (hh : h.SettlesOn i s w fun a w' => w' = w ∧ P a)
    (hf : ∀ a s', P a → (f a).SettlesOn i s' w Q) : (h >>= f).SettlesOn i s w Q := by
  intro hunbroken
  rw [run_bind, unbroken_bind] at hunbroken
  obtain ⟨hfirst, hrest⟩ := hunbroken
  have hsettled := hh hfirst
  rw [run_bind, runOn_bind]
  generalize (h.run w).runOn i s = r at hsettled hrest
  obtain ⟨⟨(e | causes) | a, w'⟩, t⟩ := r
  · exact hsettled
  · exact hsettled
  · obtain ⟨rfl, ha⟩ := hsettled
    exact hf a t ha hrest

/-- What settles in one way settles in a wider way. -/
theorem SettlesOn.mono {h : Handler β} {Q' : β → Workspace → Prop} (hh : h.SettlesOn i s w Q)
    (hQ : ∀ a w', Q a w' → Q' a w') : h.SettlesOn i s w Q' := by
  intro hunbroken
  have hsettled := hh hunbroken
  generalize ((h.run w).runOn i s).1 = r at hsettled
  obtain ⟨(e | causes) | a, w'⟩ := r
  · exact hsettled
  · exact hsettled
  · exact hQ a w' hsettled

/-- If no call fails, the handler settles and leaves the workspace as it was. -/
def KeepsOn (i : Interface σ) (s : σ) (w : Workspace) (h : Handler α) : Prop :=
  h.SettlesOn i s w fun _ w' => w' = w

/-- A handler that goes on, after another one of which only the workspace matters. -/
theorem KeepsOn.bind {h : Handler α} {f : α → Handler β} (hh : h.KeepsOn i s w)
    (hf : ∀ a s', (f a).SettlesOn i s' w Q) : (h >>= f).SettlesOn i s w Q :=
  SettlesOn.bind (P := fun _ => True) (hh.mono fun _ _ hw => ⟨hw, trivial⟩)
    fun a s' _ => hf a s'

theorem settlesOn_get_bind {f : Workspace → Handler β} (hf : (f w).SettlesOn i s w Q) :
    ((get : Handler Workspace) >>= f).SettlesOn i s w Q := hf

/-- A handler that begins with a value, or with reasons why there is none. -/
theorem settlesOn_orFail_bind {r : Except (List String) α} {f : α → Handler β}
    (hf : ∀ a, r = .ok a → (f a).SettlesOn i s w Q) : (orFail r >>= f).SettlesOn i s w Q := by
  unfold SettlesOn
  rw [run_orFail_bind]
  cases r with
  | error causes => exact fun _ => rfl
  | ok a => exact hf a rfl

/-- A dialogue comes to its value, or to the failure of a call. -/
theorem run_speak (d : Dialogue (Except ConnectError α)) (w : Workspace) :
    (speak d).run w = d >>= fun r =>
      .done (match r with
        | .ok a => (.ok a, w)
        | .error e => (.error (.connect e), w)) := by
  show d.andThen _ = d.andThen _
  congr
  funext r
  cases r <;> rfl

/-- A dialogue that comes to a value of a kind. -/
theorem settlesOn_speak {d : Dialogue (Except ConnectError α)}
    (h : d.Unbroken i s → ∃ a, (d.runOn i s).1 = .ok a ∧ P a) :
    (speak d).SettlesOn i s w fun a w' => w' = w ∧ P a := by
  intro hunbroken
  rw [run_speak, unbroken_bind] at hunbroken
  obtain ⟨a, ha, hP⟩ := h hunbroken.1
  rw [run_speak, runOn_bind, ha]
  exact ⟨rfl, hP⟩

/-! ### What handlers are made of -/

theorem settlesOn_pure {a : α} {Q : α → Workspace → Prop} (h : Q a w) :
    (pure a : Handler α).SettlesOn i s w Q := fun _ => h

theorem settlesOn_set {w' : Workspace} {Q : PUnit → Workspace → Prop} (h : Q ⟨⟩ w') :
    (set w' : Handler PUnit).SettlesOn i s w Q := fun _ => h

theorem settlesOn_fail (causes : List String) (Q : α → Workspace → Prop) :
    (fail causes : Handler α).SettlesOn i s w Q := fun _ => rfl

/-- A dialogue that comes to a value is held in any workspace. -/
theorem keepsOn_speak {d : Dialogue (Except ConnectError α)}
    (h : d.Unbroken i s → ∃ a, (d.runOn i s).1 = .ok a) : (speak d).KeepsOn i s w := by
  have hspeak := settlesOn_speak (P := fun _ => True) (w := w) fun hunbroken => by
    obtain ⟨a, ha⟩ := h hunbroken
    exact ⟨a, ha, trivial⟩
  exact hspeak.mono fun _ _ hw => hw.1

theorem keepsOn_say (text : String) : (say text).KeepsOn i s w := by
  refine keepsOn_speak fun hunbroken => ?_
  obtain ⟨t, hw, -⟩ := Unbroken.write hunbroken
  exact ⟨(), by simp [runOn, hw]⟩

theorem keepsOn_sayAll (lines : List String) : (sayAll lines).KeepsOn i s w :=
  keepsOn_speak fun hunbroken => ⟨(), (writesOn_writeAll hunbroken).2⟩

/-- The answer to a question is the one of the user. -/
theorem settlesOn_confirm (question : String) (default : Bool) :
    (confirm question default).SettlesOn i s w fun answer w' =>
      w' = w ∧ (i.confirm question default s).1 = .ok answer := by
  refine settlesOn_speak fun hunbroken => ?_
  obtain ⟨answer, t, hc, -⟩ := Unbroken.confirm hunbroken
  exact ⟨answer, by simp [runOn, hc], by rw [hc]⟩

/-- A listing comes to its outcome. -/
theorem settlesOn_list (l : Listing ρ) :
    (list l).SettlesOn i s w fun r w' => w' = w ∧ r = l.outcome := by
  intro hunbroken
  rw [run_list, unbroken_bind] at hunbroken
  rw [run_list, runOn_bind, (writesOn_writeAll hunbroken.1).2]
  exact ⟨rfl, rfl⟩

/-- One handler for each item of a list, none of which changes the workspace. -/
theorem keepsOn_forM {items : List α} {f : α → Handler Unit}
    (hf : ∀ a ∈ items, ∀ s, (f a).KeepsOn i s w) : (items.forM f).KeepsOn i s w := by
  induction items generalizing s with
  | nil => exact settlesOn_pure rfl
  | cons a rest ih =>
    exact (hf a List.mem_cons_self s).bind fun _ _ =>
      ih fun b hb => hf b (List.mem_cons_of_mem a hb)

end Handler

end BytecodeDebugger
