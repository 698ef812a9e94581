import BytecodeDebugger.Decimal.Shortest

/-!
# The characters of numbers

A number is written with digits, signs, a point and the letter before its exponent, and with nothing
else. So a quote, an ESC or another control is never part of a number.

Main facts: `isNumberChar_of_mem_toString` (whole numbers), `Literal.isNumberChar_of_mem_chars` and
`Binary64.isNumberChar_of_mem_shown` (doubles).
-/

namespace BytecodeDebugger.Decimal

/-- A character that numbers are written with. -/
def isNumberChar (c : Char) : Bool := c.isDigit || ['-', '+', '.', 'e'].contains c

theorem isNumberChar_of_isDigit {c : Char} (h : c.isDigit = true) : isNumberChar c = true := by
  rw [isNumberChar, h, Bool.true_or]

theorem isNumberChar_of_mem_toDigits {n : Nat} {c : Char} (h : c ∈ Nat.toDigits 10 n) :
    isNumberChar c = true :=
  isNumberChar_of_isDigit (Nat.isDigit_of_mem_toDigits (by decide) (by decide) h)

/-- The controls are no characters of numbers. -/
theorem le_toNat_of_isNumberChar {c : Char} (h : isNumberChar c = true) : 0x20 ≤ c.toNat := by
  rw [isNumberChar, Bool.or_eq_true] at h
  rcases h with hdigit | hother
  · exact Nat.le_trans (by decide) (Char.isDigit_iff_toNat.1 hdigit).1
  · simp only [List.contains_iff_mem, List.mem_cons, List.not_mem_nil, or_false] at hother
    rcases hother with rfl | rfl | rfl | rfl
    all_goals decide

theorem toList_toString_nat (n : Nat) : (toString n).toList = Nat.toDigits 10 n := by
  rw [Nat.toString_eq_ofList_toDigits, String.toList_ofList]

/-- A whole number is written as its digits, behind a minus sign if it is negative. -/
theorem toList_toString (n : Int) :
    (toString n).toList = (if n < 0 then ['-'] else []) ++ Nat.toDigits 10 n.natAbs := by
  cases n with
  | ofNat m => exact toList_toString_nat m
  | negSucc m =>
    show ("-" ++ toString (m + 1)).toList = _
    rw [String.toList_append, toList_toString_nat, if_pos (Int.negSucc_lt_zero m)]
    rfl

/-- A whole number is written with characters of numbers. -/
theorem isNumberChar_of_mem_toString {n : Int} {c : Char} (h : c ∈ (toString n).toList) :
    isNumberChar c = true := by
  rw [toList_toString, List.mem_append] at h
  rcases h with hsign | hdigit
  · split at hsign
    · rw [List.mem_singleton.1 hsign]
      decide
    · cases hsign
  · exact isNumberChar_of_mem_toDigits hdigit

/-- A literal is written with characters of numbers if the digits after its point are digits. -/
theorem Literal.isNumberChar_of_mem_chars {plus : Bool} {l : Literal} {c : Char}
    (hfraction : ∀ ds, l.fraction = some ds → ∀ d ∈ ds, d.isDigit = true)
    (hc : c ∈ l.chars plus) : isNumberChar c = true := by
  have hexponent : ∀ e, c ∈ exponentText plus e → isNumberChar c = true := by
    intro e he
    have hmem : c = '-' ∨ c = '+' ∨ c ∈ Nat.toDigits 10 e.natAbs := by
      unfold exponentText at he
      split at he
      · rcases List.mem_cons.1 he with rfl | he
        · exact .inl rfl
        · exact .inr (.inr he)
      · split at he
        · rcases List.mem_cons.1 he with rfl | he
          · exact .inr (.inl rfl)
          · exact .inr (.inr he)
        · exact .inr (.inr he)
    rcases hmem with rfl | rfl | hdigit
    · decide
    · decide
    · exact isNumberChar_of_mem_toDigits hdigit
  unfold chars at hc
  rw [List.mem_append, List.mem_append, List.mem_append] at hc
  rcases hc with ((hsign | hwhole) | hpoint) | hpower
  · split at hsign
    · rw [List.mem_singleton.1 hsign]
      decide
    · cases hsign
  · exact isNumberChar_of_mem_toDigits hwhole
  · split at hpoint
    · cases hpoint
    · next ds hds =>
      rcases List.mem_cons.1 hpoint with rfl | hdigit
      · decide
      · exact isNumberChar_of_isDigit (hfraction ds hds c hdigit)
  · split at hpower
    · cases hpower
    · rcases List.mem_cons.1 hpower with rfl | he
      · decide
      · exact hexponent _ he

namespace Binary64

theorem isDigit_of_mem_shortest {layout : Layout} {x : Binary64} {c : Char}
    (hc : c ∈ (x.shortest layout).1) : c.isDigit = true := by
  have hmem := (List.dropWhile_sublist _).mem (List.mem_reverse.1 hc)
  exact Nat.isDigit_of_mem_toDigits (by decide) (by decide) (List.mem_reverse.1 hmem)

/-- The digits after the point of a double are digits. -/
theorem isDigit_of_mem_fraction {layout : Layout} {x : Binary64} {ds : List Char}
    (hds : (x.toLiteral layout).fraction = some ds) : ∀ c ∈ ds, c.isDigit = true := by
  have hshortest : ∀ c ∈ (x.shortest layout).1, c.isDigit = true := fun _ =>
    x.isDigit_of_mem_shortest
  have hzeros : ∀ n, ∀ c ∈ List.replicate n '0', c.isDigit = true := fun n c hc =>
    (List.mem_replicate.1 hc).2 ▸ rfl
  unfold toLiteral at hds
  generalize x.shortest layout = digits at hds hshortest
  obtain ⟨digits, point⟩ := digits
  dsimp only at hds hshortest
  split at hds
  · cases hds
    exact hzeros 1
  · split at hds
    · split at hds
      · cases hds
        intro c hc
        rcases List.mem_append.1 hc with hc | hc
        · exact hzeros _ c hc
        · exact hshortest c hc
      · split at hds
        · cases hds
          exact hzeros 1
        · cases hds
          exact fun c hc => hshortest c (List.mem_of_mem_drop hc)
    · split at hds
      · cases hds
      · cases hds
      · cases hds
        exact fun c hc => hshortest c (List.mem_cons_of_mem _ hc)

theorem isNumberChar_of_mem_shown {x : Binary64} {c : Char} (h : c ∈ x.shown.toList) :
    isNumberChar c = true := by
  rw [shown, String.toList_ofList] at h
  exact Literal.isNumberChar_of_mem_chars (fun _ => isDigit_of_mem_fraction) h

end Binary64

end BytecodeDebugger.Decimal
