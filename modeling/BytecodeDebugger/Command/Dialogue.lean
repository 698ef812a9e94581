import BytecodeDebugger.Session.Interface

/-!
# Dialogues

What a command does with its user, as a tree: it writes, asks and goes on depending on what comes
back, which may be that the connection has failed. A dialogue is finite, and can be held with any
interface.

Main facts: `runOn_bind` (holding one dialogue after another) and `bind_assoc` (dialogues form a
monad).
-/

namespace BytecodeDebugger

/-- What is said to a user, and what comes of it. -/
inductive Dialogue (α : Type) where
  | done (a : α)
  /-- Something is written. -/
  | write (w : Write) (next : Except ConnectError Unit → Dialogue α)
  /-- A question is asked. -/
  | confirm (question : String) (default : Bool) (next : Except ConnectError Bool → Dialogue α)

namespace Dialogue

variable {α β γ σ : Type}

/-- One dialogue after another. -/
def andThen (f : α → Dialogue β) : Dialogue α → Dialogue β
  | .done a => f a
  | .write w next => .write w fun r => (next r).andThen f
  | .confirm q d next => .confirm q d fun r => (next r).andThen f

instance : Monad Dialogue where
  pure := .done
  bind d f := d.andThen f

/-- Makes calls up to the first one that fails. -/
def writeAll : List Write → Dialogue (Except ConnectError Unit)
  | [] => .done (.ok ())
  | w :: rest =>
    .write w fun
      | .ok () => writeAll rest
      | .error e => .done (.error e)

/-- The dialogue held with a user. -/
def runOn (i : Interface σ) : Dialogue α → σ → α × σ
  | .done a, s => (a, s)
  | .write w next, s =>
    let (r, s) := i.write w s
    (next r).runOn i s
  | .confirm q d next, s =>
    let (r, s) := i.confirm q d s
    (next r).runOn i s

@[simp] theorem pure_bind (a : α) (f : α → Dialogue β) : (pure a >>= f : Dialogue β) = f a := rfl

/-- A dialogue that goes on with nothing is itself. -/
@[simp] theorem bind_pure (d : Dialogue α) : (d >>= pure) = d := by
  change d.andThen .done = d
  induction d with
  | done a => rfl
  | write w next ih => simp [andThen, ih]
  | confirm q d next ih => simp [andThen, ih]

/-- Going on can be bracketed either way. -/
theorem bind_assoc (d : Dialogue α) (f : α → Dialogue β) (g : β → Dialogue γ) :
    (d >>= f >>= g) = (d >>= fun a => f a >>= g) := by
  change (d.andThen f).andThen g = d.andThen fun a => (f a).andThen g
  induction d with
  | done a => rfl
  | write w next ih => simp [andThen, ih]
  | confirm q d next ih => simp [andThen, ih]

/-- Holding one dialogue after another. -/
theorem runOn_bind (i : Interface σ) (d : Dialogue α) (f : α → Dialogue β) (s : σ) :
    (d >>= f).runOn i s = (f (d.runOn i s).1).runOn i (d.runOn i s).2 := by
  change (d.andThen f).runOn i s = _
  induction d generalizing s with
  | done a => rfl
  | write w next ih => simp [andThen, runOn, ih]
  | confirm q d next ih => simp [andThen, runOn, ih]

/-- Making calls is what writing them to the sink of an interface is. -/
theorem runOn_writeAll (i : Interface σ) (ws : List Write) (s : σ) :
    (writeAll ws).runOn i s = Listing.writeAll i.sink ws s := by
  induction ws generalizing s with
  | nil => rfl
  | cons w rest ih =>
    rcases hw : i.write w s with ⟨x, t⟩
    have hs : i.sink.write w s = (x, t) := hw
    cases x with
    | ok u => simp [writeAll, runOn, Listing.writeAll, hw, hs, ih]
    | error e => simp [writeAll, runOn, Listing.writeAll, hw, hs]

end Dialogue

end BytecodeDebugger
