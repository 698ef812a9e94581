import BytecodeDebugger.Json.Parse
import BytecodeDebugger.Json.Print
import BytecodeDebugger.Proofs.Decimal.Characters
import Mathlib.Tactic.Common

/-!
# Texts and numbers in JSON text

A written text is read as itself, whatever its characters and whatever stands behind its closing
quote, and no control is left in it as it is. A written whole number is read as itself unless what
stands behind it would go on with it.

Main facts: `text?_escaped` (a text), `number?_ofInt` (a number) and `le_toNat_of_mem_textChars` (no
control is written).
-/

namespace BytecodeDebugger.Json

open Decimal (Literal)

/-! ## Texts -/

/-- The character is written by the number of its code point. -/
def isWrittenByCode (c : Char) : Bool :=
  decide (c.toNat < 0x20 ∧ c ∉ ['\x08', '\t', '\n', '\x0c', '\r'])

/-- The piece that a written character is read as. -/
def pieceOf (c : Char) : Piece := if isWrittenByCode c then .unit c.toNat else .char c

/-- A control below 32 is read from the two last digits of its code point. -/
theorem unit?_control :
    ∀ n < 0x20, unit? '0' '0' (hexDigit (n / 16)) (hexDigit (n % 16)) = some n := by
  decide

/-- A character that needs no escape is read as it is. -/
theorem pieces?_cons {c : Char} (hquote : c ≠ '"') (hslash : c ≠ '\\') (hle : 0x20 ≤ c.toNat)
    (before : List Piece) (rest : List Char) :
    pieces? before (c :: rest) = pieces? (.char c :: before) rest := by
  rw [pieces?.eq_def]
  split
  · next heq => cases heq
  · next heq => exact absurd (List.cons.inj heq).1 hquote
  · next heq => exact absurd (List.cons.inj heq).1 hslash
  · next heq => exact absurd (List.cons.inj heq).1 hslash
  · next heq =>
    obtain ⟨rfl, rfl⟩ := List.cons.inj heq
    rw [if_neg (by simp [hslash, hle])]

theorem pieces?_code {a b c d : Char} {n : Nat} (h : unit? a b c d = some n) (before : List Piece)
    (rest : List Char) :
    pieces? before ('\\' :: 'u' :: a :: b :: c :: d :: rest) =
      pieces? (.unit n :: before) rest := by
  rw [pieces?, h]

/-- A written character is read as its piece. -/
theorem pieces?_escapeChar (c : Char) (before : List Piece) (rest : List Char) :
    pieces? before (escapeChar c ++ rest) = pieces? (pieceOf c :: before) rest := by
  unfold escapeChar
  split
  -- no letter stands for the character: it is a control of another kind, or written as it is
  case h_8 _ hquote hslash hb ht hn hf hr =>
    by_cases hlt : c.toNat < 0x20
    · have hpiece : pieceOf c = .unit c.toNat := by
        have hcode : isWrittenByCode c = true := by
          simpa [isWrittenByCode, hlt] using ⟨hb, ht, hn, hf, hr⟩
        rw [pieceOf, if_pos hcode]
      rw [if_pos hlt, hpiece]
      exact pieces?_code (unit?_control c.toNat hlt) before rest
    · have hpiece : pieceOf c = .char c := by simp [pieceOf, isWrittenByCode, hlt]
      rw [if_neg hlt, hpiece]
      exact pieces?_cons hquote hslash (Nat.le_of_not_lt hlt) before rest
  all_goals rfl

/-- The pieces of a written text are read up to its closing quote. -/
theorem pieces?_escaped (cs : List Char) (before : List Piece) (rest : List Char) :
    pieces? before (cs.flatMap escapeChar ++ '"' :: rest) =
      some (before.reverse ++ cs.map pieceOf, rest) := by
  induction cs generalizing before with
  | nil => simp [pieces?]
  | cons c cs ih =>
    rw [List.flatMap_cons, List.append_assoc, pieces?_escapeChar, ih]
    simp

/-- A unit below all halves of pairs spells the character of its number. -/
theorem spell?_unit_of_lt {n : Nat} (h : n < 0xD800) (before : List Char) (rest : List Piece) :
    spell? before (.unit n :: rest) = spell? (Char.ofNat n :: before) rest := by
  rw [spell?.eq_def]
  exact if_pos (.inl h)

/-- The pieces of characters spell these characters. -/
theorem spell?_map_pieceOf (cs before : List Char) :
    spell? before (cs.map pieceOf) = some (before.reverse ++ cs) := by
  induction cs generalizing before with
  | nil => simp [spell?]
  | cons c cs ih =>
    rw [List.map_cons, pieceOf]
    by_cases hcode : isWrittenByCode c = true
    · have hlt : c.toNat < 0xD800 := by
        exact Nat.lt_trans (of_decide_eq_true hcode).1 (by decide)
      rw [if_pos hcode, spell?_unit_of_lt hlt, Char.ofNat_toNat, ih]
      simp
    · rw [if_neg hcode, spell?, ih]
      simp

/-- A written text is read as itself. -/
theorem text?_escaped (text : String) (rest : List Char) :
    text? (text.toList.flatMap escapeChar ++ '"' :: rest) = some (some text, rest) := by
  rw [text?, pieces?_escaped]
  simp [spell?_map_pieceOf]

/-- No character is a control. -/
def hasNoControl (cs : List Char) : Bool := cs.all fun c => decide (0x20 ≤ c.toNat)

theorem le_toNat_of_hasNoControl {cs : List Char} (h : hasNoControl cs = true) {c : Char}
    (hc : c ∈ cs) : 0x20 ≤ c.toNat :=
  of_decide_eq_true (List.all_eq_true.1 h c hc)

/-- What is written for a character holds no control. -/
theorem hasNoControl_escapeChar (c : Char) : hasNoControl (escapeChar c) = true := by
  have hdigits : ∀ n < 0x20,
      hasNoControl ['\\', 'u', '0', '0', hexDigit (n / 16), hexDigit (n % 16)] = true := by
    decide
  unfold escapeChar
  split
  case h_8 =>
    split
    · next hlt => exact hdigits c.toNat hlt
    · next hle => simpa [hasNoControl] using Nat.le_of_not_lt hle
  all_goals rfl

/-- No control is written in a text. -/
theorem le_toNat_of_mem_textChars {text : String} {c : Char} (h : c ∈ textChars text) :
    0x20 ≤ c.toNat := by
  have hquote : c = '"' ∨ ∃ d ∈ text.toList, c ∈ escapeChar d := by
    simpa [textChars, or_comm] using h
  rcases hquote with rfl | ⟨d, -, hd⟩
  · decide
  · exact le_toNat_of_hasNoControl (hasNoControl_escapeChar d) hd

/-! ## Numbers -/

/-- The characters do not go on with a whole number: they begin with no digit, no point and no
exponent. -/
def EndsNumber (rest : List Char) : Prop :=
  ∀ c ∈ rest.head?, c.isDigit = false ∧ c ≠ '.' ∧ c ≠ 'e' ∧ c ≠ 'E'

/-- A number that is not zero is written without a zero in front. -/
theorem head?_toDigits_ne_zero {n : Nat} (h : 0 < n) : (Nat.toDigits 10 n).head? ≠ some '0' := by
  induction n using Nat.strongRecOn with
  | ind n ih =>
    by_cases hlt : n < 10
    · have hdigit : ∀ d < 10, 0 < d → [Nat.digitChar d].head? ≠ some '0' := by decide
      rw [Nat.toDigits_of_lt_base hlt]
      exact hdigit n hlt h
    · have hquotient := ih (n / 10) (by omega) (by omega)
      rwa [Nat.toDigits_of_base_le (by decide) (Nat.le_of_not_lt hlt), List.head?_append,
        Option.or_of_isSome (List.isSome_head?.2 Nat.toDigits_ne_nil)]

/-- The digits of a number spell it. -/
theorem digitsValue_toDigits (n : Nat) : digitsValue (Nat.toDigits 10 n) = n := by
  have hfold : digitsValue (Nat.toDigits 10 n) = Nat.ofDigitChars 10 (Nat.toDigits 10 n) 0 := by
    rw [digitsValue, Nat.ofDigitChars_eq_foldl]
    congr
    funext value c
    rw [Nat.mul_comm]
    rfl
  rw [hfold, Nat.ofDigitChars_ten_toDigits]

/-- The digits of a number are split off what does not go on with it. -/
theorem splitDigits_toDigits {rest : List Char} (h : EndsNumber rest) (n : Nat) :
    splitDigits (Nat.toDigits 10 n ++ rest) = (Nat.toDigits 10 n, rest) := by
  have hstop : rest.takeWhile Char.isDigit = [] ∧ rest.dropWhile Char.isDigit = rest := by
    cases rest with
    | nil => exact ⟨rfl, rfl⟩
    | cons c rest => simp [(h c rfl).1]
  have hdigits : ∀ c ∈ Nat.toDigits 10 n, c.isDigit = true := fun c hc =>
    Nat.isDigit_of_mem_toDigits (by decide) (by decide) hc
  rw [splitDigits, List.takeWhile_append_of_pos hdigits, List.dropWhile_append_of_pos hdigits,
    hstop.1, hstop.2, List.append_nil]

/-- There is no fraction in what does not go on with a number. -/
theorem fraction?_of_ends {rest : List Char} (h : EndsNumber rest) :
    fraction? rest = some (none, rest) := by
  unfold fraction?
  split
  · exact absurd rfl (h '.' rfl).2.1
  · rfl

/-- There is no exponent in what does not go on with a number. -/
theorem exponent?_of_ends {rest : List Char} (h : EndsNumber rest) :
    exponent? rest = some (none, rest) := by
  cases rest with
  | nil => rfl
  | cons c rest =>
    obtain ⟨-, -, he, hE⟩ := h c rfl
    exact if_neg (not_or.2 ⟨he, hE⟩)

theorem isDigit_of_mem_head?_toDigits {n : Nat} {c : Char} (h : c ∈ (Nat.toDigits 10 n).head?) :
    c.isDigit = true :=
  Nat.isDigit_of_mem_toDigits (by decide) (by decide) (List.mem_of_mem_head? h)

/-- The digits of a number, whatever stands behind them, do not begin with a minus sign. -/
theorem toDigits_append_ne_minus (n : Nat) (rest cs : List Char) :
    Nat.toDigits 10 n ++ rest ≠ '-' :: cs := by
  intro heq
  have hhead := congrArg List.head? heq
  rw [List.head?_append, Option.or_of_isSome (List.isSome_head?.2 Nat.toDigits_ne_nil)] at hhead
  exact absurd (isDigit_of_mem_head?_toDigits hhead) (by decide)

/-- A whole number is written as its digits, behind a minus sign if it is negative. -/
theorem chars_ofInt (n : Int) :
    (Literal.ofInt n).chars true =
      (if n < 0 then ['-'] else []) ++ Nat.toDigits 10 n.natAbs := by
  simp [Literal.chars, Literal.ofInt]

/-- A written whole number begins with a minus sign or a digit. -/
theorem exists_cons_chars_ofInt (n : Int) :
    ∃ c cs, (Literal.ofInt n).chars true = c :: cs ∧ (c = '-' ∨ c.isDigit = true) := by
  rw [chars_ofInt]
  by_cases hn : n < 0
  · rw [if_pos hn]
    exact ⟨_, _, rfl, .inl rfl⟩
  · rw [if_neg hn, List.nil_append]
    have hne : Nat.toDigits 10 n.natAbs ≠ [] := Nat.toDigits_ne_nil
    obtain ⟨c, cs, hcs⟩ := List.exists_cons_of_ne_nil hne
    have hhead : c ∈ (Nat.toDigits 10 n.natAbs).head? := hcs ▸ rfl
    exact ⟨c, cs, hcs, .inr (isDigit_of_mem_head?_toDigits hhead)⟩

/-- A written whole number is read as itself. -/
theorem number?_ofInt (n : Int) {rest : List Char} (h : EndsNumber rest) :
    number? ((Literal.ofInt n).chars true ++ rest) = some (Literal.ofInt n, rest) := by
  have hzero : ¬((Nat.toDigits 10 n.natAbs).head? = some '0' ∧
      (Nat.toDigits 10 n.natAbs).length ≠ 1) := by
    rintro ⟨hhead, hlength⟩
    rcases Nat.eq_zero_or_pos n.natAbs with h0 | hpos
    · exact hlength (h0 ▸ rfl)
    · exact head?_toDigits_ne_zero hpos hhead
  -- without a sign, the digits are not taken for one
  have hminus : ∀ cs, Nat.toDigits 10 n.natAbs ++ rest = '-' :: cs → False :=
    toDigits_append_ne_minus n.natAbs rest
  unfold number?
  rw [chars_ofInt]
  by_cases hn : n < 0
  all_goals
    simp only [hn, if_true, if_false, List.cons_append, List.nil_append]
    rw [splitDigits_toDigits h]
    split
    · next heq => exact absurd (congrArg Prod.fst heq) Nat.toDigits_ne_nil
    · next heq =>
      obtain ⟨rfl, rfl⟩ := Prod.mk.inj heq
      simp only [hzero, if_false, fraction?_of_ends h, exponent?_of_ends h, digitsValue_toDigits]
      simp [Literal.ofInt, hn]

/-- No control is written in a whole number. -/
theorem le_toNat_of_mem_chars_ofInt {n : Int} {c : Char} (h : c ∈ (Literal.ofInt n).chars true) :
    0x20 ≤ c.toNat := by
  have hfraction : ∀ ds, (Literal.ofInt n).fraction = some ds → ∀ d ∈ ds, d.isDigit = true := by
    simp [Literal.ofInt]
  exact Decimal.le_toNat_of_isNumberChar (Literal.isNumberChar_of_mem_chars hfraction h)

end BytecodeDebugger.Json
