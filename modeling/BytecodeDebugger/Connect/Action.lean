/-!
# Actions that can fail

An action reads and changes a state and yields a value or a failure. When it fails the state is left
as the failure found it, not as it was before the action.

Main facts: `on_bind` (one action after another) and `on_of` (an action is a function on states).
-/

namespace BytecodeDebugger

/-- What reads and changes a state, and can fail. -/
abbrev Action (ε σ : Type) := ExceptT ε (StateM σ)

namespace Action

variable {ε ε' σ α β : Type}

/-- The action of a function. -/
def of (f : σ → Except ε α × σ) : Action ε σ α := ExceptT.mk f

/-- What the action comes to in a state, and the state after it. -/
def on (a : Action ε σ α) (s : σ) : Except ε α × σ := (a.run.run s).run

/-- The action with its failure in other words. -/
def mapError (f : ε → ε') (a : Action ε σ α) : Action ε' σ α :=
  of fun s =>
    match a.on s with
    | (.ok x, s) => (.ok x, s)
    | (.error e, s) => (.error (f e), s)

@[simp] theorem on_of (f : σ → Except ε α × σ) (s : σ) : (of f : Action ε σ α).on s = f s := rfl

@[simp] theorem on_pure (a : α) (s : σ) : (pure a : Action ε σ α).on s = (.ok a, s) := rfl

@[simp] theorem on_throw (e : ε) (s : σ) : (throw e : Action ε σ α).on s = (.error e, s) := rfl

/-- One action after another: the second one runs only if the first one does not fail. -/
theorem on_bind (a : Action ε σ α) (f : α → Action ε σ β) (s : σ) :
    (a >>= f).on s =
      match a.on s with
      | (.ok x, t) => (f x).on t
      | (.error e, t) => (.error e, t) := by
  simp only [on, ExceptT.run_bind, StateT.run_bind]
  generalize a.run.run s = r
  obtain ⟨x, t⟩ := r
  cases x <;> rfl

end Action

end BytecodeDebugger
