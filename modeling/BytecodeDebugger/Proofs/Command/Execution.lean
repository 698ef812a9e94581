import BytecodeDebugger.Processor
import Mathlib.Tactic.Common

/-!
# What a command line comes to

A dialogue can come to different values, depending on what comes back from the user and on whether
the connection holds. What is true of all of them can be told from the dialogue alone.

Main facts: `Yields.bind` (one dialogue after another) and `executeLine_yields_self` (no command line
changes the prompt or the commands).
-/

namespace BytecodeDebugger

namespace Dialogue

variable {α β : Type} {P P' : α → Prop} {Q : β → Prop}

/-- Whatever comes back from the user, the dialogue comes to a value of a kind. -/
def Yields (P : α → Prop) : Dialogue α → Prop
  | .done a => P a
  | .write _ next => ∀ r, (next r).Yields P
  | .confirm _ _ next => ∀ r, (next r).Yields P

theorem yields_true (d : Dialogue α) : d.Yields fun _ => True := by
  induction d with
  | done a => trivial
  | write w next ih => exact ih
  | confirm question default next ih => exact ih

theorem Yields.mono {d : Dialogue α} (h : d.Yields P) (hP : ∀ a, P a → P' a) : d.Yields P' := by
  induction d with
  | done a => exact hP a h
  | write w next ih => exact fun r => ih r (h r)
  | confirm question default next ih => exact fun r => ih r (h r)

/-- What a dialogue comes to that is held with a user. -/
theorem Yields.runOn {σ : Type} {d : Dialogue α} (h : d.Yields P) (i : Interface σ) (s : σ) :
    P (d.runOn i s).1 := by
  induction d generalizing s with
  | done a => exact h
  | write w next ih => exact ih _ (h _) _
  | confirm question default next ih => exact ih _ (h _) _

/-- A dialogue that goes on after another one. -/
theorem Yields.bind {d : Dialogue α} {f : α → Dialogue β} (h : d.Yields P)
    (hf : ∀ a, P a → (f a).Yields Q) : (d >>= f).Yields Q := by
  show (d.andThen f).Yields Q
  induction d with
  | done a => exact hf a h
  | write w next ih => exact fun r => ih r (h r)
  | confirm question default next ih => exact fun r => ih r (h r)

end Dialogue

namespace Processor

/-- No command line changes the prompt or the commands. -/
theorem executeLine_yields_self (p : Processor) (line : String) :
    (p.executeLine line).Yields fun r =>
      r.2.prompt = p.prompt ∧ r.2.commands = p.commands := by
  have hreport : ∀ (q : Processor) flow text, q.prompt = p.prompt ∧ q.commands = p.commands →
      (q.report flow text).Yields fun r => r.2.prompt = p.prompt ∧ r.2.commands = p.commands := by
    intro q flow text hq
    rintro (e | _) <;> exact hq
  -- handlers work on the settings and the debuggee, which neither is a part of
  have hperform : ∀ command args, (p.perform command args).Yields fun r =>
      r.2.prompt = p.prompt ∧ r.2.commands = p.commands := by
    intro command args
    refine (Dialogue.yields_true _).bind ?_
    rintro ⟨(e | causes) | _, w⟩ -
    · exact ⟨rfl, rfl⟩
    · exact hreport _ _ _ ⟨rfl, rfl⟩
    · exact ⟨rfl, rfl⟩
  unfold executeLine
  split
  · exact ⟨rfl, rfl⟩
  · split
    · exact hreport p _ _ ⟨rfl, rfl⟩
    · split
      · exact hreport p _ _ ⟨rfl, rfl⟩
      · exact hperform _ _

end Processor

end BytecodeDebugger
