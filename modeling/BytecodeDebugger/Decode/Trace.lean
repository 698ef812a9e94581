import BytecodeDebugger.Opcode.Kind

/-!
# Decoding that can fail

A stream is decoded from its start, one item after the other, until it ends or an item cannot be
decoded. A trace holds what came out: the items, and the failure that ended them, if any.

Main facts: `next?_eq_none_iff` (nothing is left exactly when there are neither items nor a failure)
and `outcomes_eq` (the outcomes are the items and then the failure).
-/

namespace BytecodeDebugger

/-- Why an instruction cannot be decoded. -/
inductive DecodeError where
  /-- An index lies beyond the end of its table. -/
  | operandOutOfRange (offset : Nat) (kind : OperandKind) (index length : Nat)
  /-- The stream ends inside an instruction. -/
  | truncated (offset needed available : Nat)
  /-- The operand, or the jump it stands for, does not fit 64 bits. -/
  | operandOverflow (offset : Nat)
  deriving DecidableEq, Repr

namespace DecodeError

/-- Where decoding failed. -/
def offset : DecodeError → Nat
  | .operandOutOfRange o _ _ _ => o
  | .truncated o _ _ => o
  | .operandOverflow o => o

/-- The wording of a failure. -/
def message : DecodeError → String
  | .operandOutOfRange o k i n =>
    "offset " ++ toString o ++ ": " ++ k.shown ++ " index " ++ toString i ++
      " out of range (table has " ++ toString n ++ " entries)"
  | .truncated o n a =>
    "offset " ++ toString o ++ ": stream truncated, instruction needs " ++ toString n ++
      " bytes but " ++ toString a ++ " remain"
  | .operandOverflow o => "offset " ++ toString o ++ ": extended operand overflows 64 bits"

end DecodeError

/-- Items decoded one after the other, and the failure that ended them. -/
structure Trace (α : Type) where
  items : List α
  failure : Option DecodeError
  deriving DecidableEq, Repr

namespace Trace

variable {α : Type}

/-- The trace with one more item in front. -/
def cons (a : α) (t : Trace α) : Trace α := ⟨a :: t.items, t.failure⟩

/-- The next item or the failure, and what comes after it; nothing follows a failure. -/
def next? : Trace α → Option (Except DecodeError α × Trace α)
  | ⟨a :: rest, failure⟩ => some (.ok a, ⟨rest, failure⟩)
  | ⟨[], some e⟩ => some (.error e, ⟨[], none⟩)
  | ⟨[], none⟩ => none

/-- The outcomes from here on, given a number of items to go through, and the trace after them. -/
def drain : (count : Nat) → Trace α → List (Except DecodeError α) × Trace α
  | 0, t => ([], t)
  | count + 1, t =>
    match t.next? with
    | none => ([], t)
    | some (outcome, rest) =>
      let (outcomes, last) := drain count rest
      (outcome :: outcomes, last)

/-- All outcomes in order. -/
def outcomes (t : Trace α) : List (Except DecodeError α) :=
  (t.drain (t.items.length + 1)).1

/-- Nothing is left exactly when there are neither items nor a failure. -/
theorem next?_eq_none_iff {t : Trace α} : t.next? = none ↔ t = ⟨[], none⟩ := by
  obtain ⟨items, failure⟩ := t
  cases items <;> cases failure <;> simp [next?]

/-- The outcomes are the items and then the failure. -/
theorem outcomes_eq (t : Trace α) :
    t.outcomes = t.items.map .ok ++ (t.failure.map .error).toList := by
  obtain ⟨items, failure⟩ := t
  unfold outcomes
  induction items with
  | nil => cases failure <;> simp [drain, next?]
  | cons a rest ih => simpa [drain, next?] using ih

end Trace

end BytecodeDebugger
