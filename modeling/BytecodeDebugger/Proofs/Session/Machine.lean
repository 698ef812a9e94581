import Mathlib.Logic.Relation
import Mathlib.Tactic.Common

/-!
# Machines

A machine is a function that takes a state to the next one. It has come to its end in a state that
it takes to itself.

Main fact: `Runs.eq_of_fixed` (a machine comes to one end only).
-/

namespace BytecodeDebugger

variable {α : Type} {step : α → α} {a b c : α}

/-- The machine gets from one state to another. -/
def Runs (step : α → α) : α → α → Prop := Relation.ReflTransGen fun a b => step a = b

namespace Runs

theorem refl : Runs step a a := Relation.ReflTransGen.refl

theorem head (h : Runs step (step a) b) : Runs step a b := Relation.ReflTransGen.head rfl h

theorem tail (h : Runs step a b) : Runs step a (step b) := Relation.ReflTransGen.tail h rfl

theorem trans (h : Runs step a b) (h' : Runs step b c) : Runs step a c :=
  Relation.ReflTransGen.trans h h'

/-- A machine gets nowhere from its end. -/
theorem eq_of_fixed_left (ha : step a = a) (h : Runs step a b) : b = a := by
  induction h with
  | refl => rfl
  | tail _ hstep ih => rw [← hstep, ih, ha]

/-- A machine comes to one end only. -/
theorem eq_of_fixed (hb : step b = b) (hc : step c = c) (h : Runs step a b) (h' : Runs step a c) :
    b = c := by
  have hdet : Relator.RightUnique fun a b => step a = b := by
    intro x y z hy hz
    rw [← hy, ← hz]
  rcases Relation.ReflTransGen.total_of_right_unique hdet h h' with hbc | hcb
  · exact (eq_of_fixed_left hb hbc).symm
  · exact eq_of_fixed_left hc hcb

end Runs

end BytecodeDebugger
