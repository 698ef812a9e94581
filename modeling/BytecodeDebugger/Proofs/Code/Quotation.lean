import BytecodeDebugger.Code.Constant
import BytecodeDebugger.Proofs.Decimal.Characters
import Mathlib.Tactic.Common

/-!
# Texts between single quotes

A text constant is shown between single quotes. It is read back from there, and from no other
spelling, so two texts are never shown alike.

Which quotes belong to the text can be told from the backslashes in front of them: the two that
enclose it stand behind an even number of backslashes, all others behind an odd one. So a text is
also told at the end of a line, whatever stands in front of it, and no constant of another type ends
with a quote.

Main facts: `unquote?_eq_some_iff` (what a text is read from), `isEscaped_iff_between` (which quotes
stand behind an odd number of backslashes) and `Constant.eq_str_of_append_shown` (a line that ends
with a text constant does not end with another constant).
-/

namespace BytecodeDebugger

namespace Quotation

open Constant (escapeChar quotedChars)

variable {c : Char} {cs before front back : List Char} {s t : String}

/-! ## Characters -/

/-- A character that is shown as it is. -/
def isBare (c : Char) : Bool := decide (c ∉ ['\'', '\\', '\n', '\t', '\r'])

/-- The character that a letter behind a backslash stands for. -/
def escaped? : Char → Option Char
  | '\'' => some '\''
  | '\\' => some '\\'
  | 'n' => some '\n'
  | 't' => some '\t'
  | 'r' => some '\r'
  | _ => none

/-- A character is shown as it is, or as a backslash and a letter that stands for it. -/
theorem escapeChar_cases (c : Char) :
    (isBare c = true ∧ escapeChar c = [c]) ∨
      ∃ letter, escaped? letter = some c ∧ escapeChar c = ['\\', letter] := by
  unfold escapeChar
  split
  case h_6 hquote hslash hfeed htab hreturn =>
    have hbare : isBare c = true := by
      simpa [isBare] using ⟨hquote, hslash, hfeed, htab, hreturn⟩
    exact .inl ⟨hbare, rfl⟩
  all_goals exact .inr ⟨_, rfl, rfl⟩

theorem escapeChar_of_isBare (h : isBare c = true) : escapeChar c = [c] := by
  unfold escapeChar
  split
  case h_6 => rfl
  all_goals exact absurd h (by decide)

/-- What a letter stands for is shown with that letter. -/
theorem escapeChar_of_escaped? {letter : Char} (h : escaped? letter = some c) :
    escapeChar c = ['\\', letter] := by
  unfold escaped? at h
  split at h
  case h_6 => cases h
  all_goals
    cases h
    rfl

/-- Neither a backslash nor a quote is bare. -/
theorem ne_of_isBare (h : isBare c = true) : c ≠ '\\' ∧ c ≠ '\'' := by
  constructor
  all_goals
    rintro rfl
    exact absurd h (by decide)

/-- Nothing that is shown for a character breaks a line or moves along it. -/
theorem ne_control_of_mem_escapeChar {d : Char} (h : d ∈ escapeChar c) :
    d ≠ '\n' ∧ d ≠ '\r' ∧ d ≠ '\t' := by
  unfold escapeChar at h
  split at h
  case h_6 hfeed htab hreturn =>
    obtain rfl := List.mem_singleton.1 h
    exact ⟨hfeed, hreturn, htab⟩
  all_goals
    rw [List.mem_cons, List.mem_singleton] at h
    rcases h with rfl | rfl
    all_goals decide

/-- Nothing that is shown for a text breaks a line or moves along it. -/
theorem ne_control_of_mem_quotedChars {d : Char} (h : d ∈ quotedChars s) :
    d ≠ '\n' ∧ d ≠ '\r' ∧ d ≠ '\t' := by
  rw [quotedChars, List.mem_append, List.mem_cons, List.mem_singleton, List.mem_flatMap] at h
  rcases h with (rfl | ⟨c, -, hd⟩) | rfl
  · decide
  · exact ne_control_of_mem_escapeChar hd
  · decide

/-! ## Reading -/

/-- The characters shown in front of the closing quote, which has to be the last character. -/
def unescape? : List Char → Option (List Char)
  | [] => none
  | ['\''] => some []
  | '\\' :: letter :: rest =>
    match escaped? letter with
    | some c => (unescape? rest).map (c :: ·)
    | none => none
  | c :: rest => if isBare c then (unescape? rest).map (c :: ·) else none

/-- The text that is shown so, if there is one. -/
def unquote? (shownText : String) : Option String :=
  match shownText.toList with
  | '\'' :: rest => (unescape? rest).map String.ofList
  | _ => none

/-- A bare character is read as it is. -/
theorem unescape?_cons (h : isBare c = true) (rest : List Char) :
    unescape? (c :: rest) = (unescape? rest).map (c :: ·) := by
  obtain ⟨hslash, hquote⟩ := ne_of_isBare h
  rw [unescape?.eq_def]
  split
  · next heq => cases heq
  · next heq => exact absurd (List.cons.inj heq).1 hquote
  · next heq => exact absurd (List.cons.inj heq).1 hslash
  · next heq =>
    obtain ⟨rfl, rfl⟩ := List.cons.inj heq
    rw [if_pos h]

/-- A shown character is read as itself, whatever is shown behind it. -/
theorem unescape?_escapeChar (c : Char) (rest : List Char) :
    unescape? (escapeChar c ++ rest) = (unescape? rest).map (c :: ·) := by
  rcases escapeChar_cases c with ⟨hbare, hshown⟩ | ⟨letter, hletter, hshown⟩
  · rw [hshown]
    exact unescape?_cons hbare rest
  · rw [hshown, List.cons_append, List.singleton_append, unescape?, hletter]

/-- Shown characters are read up to the closing quote. -/
theorem unescape?_flatMap (cs : List Char) :
    unescape? (cs.flatMap escapeChar ++ ['\'']) = some cs := by
  induction cs with
  | nil => rfl
  | cons c cs ih =>
    rw [List.flatMap_cons, List.append_assoc, unescape?_escapeChar, ih, Option.map_some]

/-- Characters are read from nothing else than what is shown for them. -/
theorem eq_of_unescape? {shownChars : List Char} (h : unescape? shownChars = some cs) :
    shownChars = cs.flatMap escapeChar ++ ['\''] := by
  fun_induction unescape? shownChars generalizing cs with
  | case1 => cases h
  | case2 =>
    cases h
    rfl
  | case3 letter rest c hletter ih =>
    obtain ⟨cs, hrest, rfl⟩ := Option.map_eq_some_iff.1 h
    rw [List.flatMap_cons, escapeChar_of_escaped? hletter, ih hrest]
    rfl
  | case4 => cases h
  | case5 c rest _ _ hbare ih =>
    obtain ⟨cs, hrest, rfl⟩ := Option.map_eq_some_iff.1 h
    rw [List.flatMap_cons, escapeChar_of_isBare hbare, ih hrest]
    rfl
  | case6 => cases h

/-- A text is read from its characters between quotes, and from nothing else. -/
theorem unquote?_eq_some_iff {shownText : String} :
    unquote? shownText = some s ↔ shownText.toList = quotedChars s := by
  constructor
  · intro h
    unfold unquote? at h
    split at h
    · next rest heq =>
      obtain ⟨cs, hrest, rfl⟩ := Option.map_eq_some_iff.1 h
      rw [heq, eq_of_unescape? hrest, quotedChars, String.toList_ofList, List.cons_append]
    · cases h
  · intro h
    have hread := unescape?_flatMap s.toList
    rw [unquote?, h, quotedChars, List.cons_append]
    show (unescape? _).map String.ofList = some s
    rw [hread, Option.map_some, String.ofList_toList]

/-- Two texts do not have the same characters between quotes. -/
theorem quotedChars_inj : quotedChars s = quotedChars t ↔ s = t := by
  refine ⟨fun h => ?_, congrArg quotedChars⟩
  have hs : unquote? (String.ofList (quotedChars s)) = some s :=
    unquote?_eq_some_iff.2 String.toList_ofList
  have ht : unquote? (String.ofList (quotedChars s)) = some t :=
    unquote?_eq_some_iff.2 (h ▸ String.toList_ofList)
  exact Option.some.inj (hs.symm.trans ht)

/-! ## Runs of backslashes -/

/-- What stands in front of a character escapes it if it ends with an odd number of backslashes. -/
def IsEscaped (before : List Char) : Prop :=
  (before.reverse.takeWhile (· == '\\')).length % 2 = 1

instance (before : List Char) : Decidable (IsEscaped before) :=
  inferInstanceAs (Decidable (_ = 1))

/-- A further character escapes the next one if it is a backslash that is not escaped itself. -/
theorem isEscaped_concat : IsEscaped (before ++ [c]) ↔ c = '\\' ∧ ¬IsEscaped before := by
  unfold IsEscaped
  rw [List.reverse_append, List.reverse_singleton, List.singleton_append]
  by_cases hc : c = '\\'
  · rw [List.takeWhile_cons_of_pos (by simpa using hc), List.length_cons]
    simp only [hc, true_and]
    omega
  · rw [List.takeWhile_cons_of_neg (by simpa using hc)]
    simp [hc]

/-- Only what stands behind the last other character than a backslash matters. -/
theorem isEscaped_append_cons (hc : c ≠ '\\') (front : List Char) :
    IsEscaped (front ++ c :: back) ↔ IsEscaped back := by
  have hrun : (front ++ c :: back).reverse.takeWhile (· == '\\') =
      back.reverse.takeWhile (· == '\\') := by
    have hstop : (c :: front.reverse).takeWhile (· == '\\') = [] :=
      List.takeWhile_cons_of_neg (by simpa using hc)
    rw [List.reverse_append, List.reverse_cons, List.append_assoc, List.singleton_append,
      List.takeWhile_append, hstop]
    split
    · next hall => rw [List.append_nil, (List.takeWhile_prefix _).eq_of_length hall]
    · rfl
  rw [IsEscaped, hrun, IsEscaped]

/-- What is shown for a character escapes nothing behind it. -/
theorem not_isEscaped_append_escapeChar (h : ¬IsEscaped before) (c : Char) :
    ¬IsEscaped (before ++ escapeChar c) := by
  rcases escapeChar_cases c with ⟨hbare, hshown⟩ | ⟨letter, -, hshown⟩
  · rw [hshown, isEscaped_concat]
    exact fun hslash => (ne_of_isBare hbare).1 hslash.1
  · have hslash : IsEscaped (before ++ ['\\']) := isEscaped_concat.2 ⟨rfl, h⟩
    rw [hshown, List.append_cons, isEscaped_concat]
    exact fun hletter => hletter.2 hslash

/-- What is shown for characters escapes nothing behind it. -/
theorem not_isEscaped_append_flatMap (h : ¬IsEscaped before) (cs : List Char) :
    ¬IsEscaped (before ++ cs.flatMap escapeChar) := by
  induction cs generalizing before with
  | nil => simpa using h
  | cons c cs ih =>
    rw [List.flatMap_cons, ← List.append_assoc]
    exact ih (not_isEscaped_append_escapeChar h c)

/-- A quote that is shown for a character is escaped. -/
theorem isEscaped_of_flatMap_eq (h : ¬IsEscaped before)
    (heq : cs.flatMap escapeChar = front ++ '\'' :: back) : IsEscaped (before ++ front) := by
  induction cs generalizing before front with
  | nil => simp at heq
  | cons c cs ih =>
    have hnext := not_isEscaped_append_escapeChar h c
    rw [List.flatMap_cons] at heq
    rcases escapeChar_cases c with ⟨hbare, hshown⟩ | ⟨letter, -, hshown⟩
    · rw [hshown] at heq hnext
      cases front with
      | nil => exact absurd (List.cons.inj heq).1 (ne_of_isBare hbare).2
      | cons d front =>
        obtain ⟨rfl, hrest⟩ := List.cons.inj heq
        rw [List.append_cons]
        exact ih hnext hrest
    · rw [hshown, List.cons_append, List.singleton_append] at heq
      rw [hshown] at hnext
      -- the quote is the letter, or one that is shown for a later character
      match front with
      | [] => exact absurd (List.cons.inj heq).1 (by decide)
      | [d] =>
        obtain ⟨rfl, -⟩ := List.cons.inj heq
        exact isEscaped_concat.2 ⟨rfl, h⟩
      | d :: e :: front =>
        obtain ⟨rfl, htail⟩ := List.cons.inj heq
        obtain ⟨rfl, hrest⟩ := List.cons.inj htail
        have hsplit : before ++ '\\' :: letter :: front = before ++ ['\\', letter] ++ front := by
          simp
        rw [hsplit]
        exact ih hnext hrest

/-- The quotes around a text are not escaped, and all quotes between them are. -/
theorem isEscaped_iff_between (h : quotedChars s = front ++ '\'' :: back) :
    IsEscaped front ↔ front ≠ [] ∧ back ≠ [] := by
  have hnil : ¬IsEscaped [] := by decide
  cases front with
  | nil => simp [hnil]
  | cons d front =>
    rw [quotedChars, List.cons_append, List.cons_append] at h
    obtain ⟨rfl, hrest⟩ := List.cons.inj h
    have hfront : IsEscaped ('\'' :: front) ↔ IsEscaped front :=
      isEscaped_append_cons (by decide) []
    rw [hfront]
    rcases List.eq_nil_or_concat back with rfl | ⟨back, d, rfl⟩
    · have hlast := List.append_cancel_right hrest
      simpa [← hlast] using not_isEscaped_append_flatMap hnil s.toList
    · rw [List.concat_eq_append, ← List.cons_append, ← List.append_assoc] at hrest
      have hinner := (List.append_inj' hrest rfl).1
      simpa using isEscaped_of_flatMap_eq hnil hinner

/-- At the end of a line, a text is told from all others, whatever stands in front of its first
quote. -/
theorem eq_of_append_quotedChars (h : front ++ quotedChars s = back ++ quotedChars t)
    (hfront : ¬IsEscaped front) (hback : ¬IsEscaped back) : s = t := by
  -- if one of them were longer, the other one would begin inside it, with a quote that is escaped
  have key : ∀ {front middle : List Char} {s t : String},
      quotedChars s = middle ++ quotedChars t → ¬IsEscaped (front ++ middle) → s = t := by
    intro front middle s t heq hmiddle
    cases middle with
    | nil => exact quotedChars_inj.1 heq
    | cons d middle =>
      have hescaped : IsEscaped (d :: middle) :=
        (isEscaped_iff_between heq).2 ⟨List.cons_ne_nil _ _, by simp⟩
      obtain rfl : '\'' = d := (List.cons.inj heq).1
      rw [isEscaped_append_cons (by decide)] at hmiddle
      exact absurd ((isEscaped_append_cons (by decide) []).1 hescaped) hmiddle
  rcases List.append_eq_append_iff.1 h with ⟨middle, rfl, heq⟩ | ⟨middle, rfl, heq⟩
  · exact key heq hback
  · exact (key heq hfront).symm

end Quotation

/-! ## Constants of other types -/

namespace Constant

open Quotation

variable {c : Constant} {front back : List Char} {s : String}

theorem toList_shown_str (s : String) : (str s).shown.toList = quotedChars s := by
  rw [shown, String.toList_ofList]

/-- What is written with characters of numbers does not end with a quote. -/
theorem exists_concat_of_isNumberChar {cs : List Char} (hne : cs ≠ [])
    (h : ∀ d ∈ cs, Decimal.isNumberChar d = true) :
    ∃ init last, cs = init ++ [last] ∧ last ≠ '\'' := by
  refine ⟨_, _, (List.dropLast_concat_getLast hne).symm, fun hlast => ?_⟩
  have hquote := h _ (List.getLast_mem hne)
  rw [hlast] at hquote
  exact absurd hquote (by decide)

/-- A constant that is no text does not end with a quote. -/
theorem exists_shown_concat (h : ∀ s, c ≠ str s) :
    ∃ init last, c.shown.toList = init ++ [last] ∧ last ≠ '\'' := by
  cases c with
  | none => exact ⟨['N', 'o', 'n'], 'e', rfl, by decide⟩
  | bool value =>
    cases value with
    | true => exact ⟨['T', 'r', 'u'], 'e', rfl, by decide⟩
    | false => exact ⟨['F', 'a', 'l', 's'], 'e', rfl, by decide⟩
  | int value =>
    refine exists_concat_of_isNumberChar ?_ fun _ => Decimal.isNumberChar_of_mem_toString
    rw [shown, Decimal.toList_toString]
    exact List.append_ne_nil_of_right_ne_nil _ Nat.toDigits_ne_nil
  | float value =>
    refine exists_concat_of_isNumberChar ?_ fun _ => Decimal.Binary64.isNumberChar_of_mem_shown
    simp [shown, Decimal.Binary64.shown, Decimal.Literal.chars]
  | str text => exact absurd rfl (h text)
  | code name => exact ⟨_, '>', String.toList_append, by decide⟩

/-- A line that ends with a text constant does not end with another constant, unless what stands in
front of one of them escapes its first character. -/
theorem eq_str_of_append_shown (h : front ++ (str s).shown.toList = back ++ c.shown.toList)
    (hfront : ¬IsEscaped front) (hback : ¬IsEscaped back) : c = str s := by
  rw [toList_shown_str] at h
  by_cases hstr : ∃ t, c = str t
  · obtain ⟨t, rfl⟩ := hstr
    rw [toList_shown_str] at h
    rw [eq_of_append_quotedChars h hfront hback]
  · obtain ⟨init, last, hshown, hlast⟩ := exists_shown_concat (not_exists.1 hstr)
    rw [hshown, quotedChars, ← List.append_assoc, ← List.append_assoc] at h
    exact absurd (List.append_inj' h rfl).2 (by simpa using hlast.symm)

/-- No other constant is shown like a text constant. -/
theorem eq_str_of_shown_eq (h : c.shown = (str s).shown) : c = str s := by
  have hnil : ¬IsEscaped [] := by decide
  have hchars : [] ++ (str s).shown.toList = [] ++ c.shown.toList := by rw [h]
  exact eq_str_of_append_shown hchars hnil hnil

end Constant

end BytecodeDebugger
