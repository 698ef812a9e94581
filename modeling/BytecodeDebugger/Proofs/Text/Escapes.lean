import BytecodeDebugger.Listing.Highlight
import BytecodeDebugger.Proofs.Decimal.Characters
import BytecodeDebugger.Text.Blank
import BytecodeDebugger.Text.Pad

/-!
# Escape sequences in a text

An escape sequence begins with ESC and a bracket and goes up to the next `m`. A text decorates
another one if the other one is left when all escape sequences are deleted, whatever stands behind
the text; so pieces can be taken one by one. A highlighted token decorates the token itself.

Main facts: `Decorates.append`, `decorates_highlight` and `Decorates.undecorated_eq`.
-/

namespace BytecodeDebugger.Text

/-! ## Deleting escape sequences -/

/-- The length of the escape sequence that the characters begin with, if they begin with one. -/
def escapeLength? : List Char → Option Nat
  | '\x1b' :: '[' :: rest => (rest.findIdx? (· == 'm')).map (· + 3)
  | _ => none

/-- The characters outside escape sequences, after so many characters that belong to one. -/
def outsideEscapes : (inside : Nat) → List Char → List Char
  | _, [] => []
  | inside + 1, _ :: rest => outsideEscapes inside rest
  | 0, c :: rest =>
    match escapeLength? (c :: rest) with
    | none => c :: outsideEscapes 0 rest
    | some length => outsideEscapes (length - 1) rest

/-- The text without its escape sequences. -/
def undecorated (text : String) : String := String.ofList (outsideEscapes 0 text.toList)

/-- Characters inside an escape sequence are left out. -/
theorem outsideEscapes_length_append (front rest : List Char) :
    outsideEscapes front.length (front ++ rest) = outsideEscapes 0 rest := by
  induction front with
  | nil => rfl
  | cons c front ih => simpa [outsideEscapes] using ih

/-- Characters without ESC stay. -/
theorem outsideEscapes_append {front : List Char} (h : '\x1b' ∉ front) (rest : List Char) :
    outsideEscapes 0 (front ++ rest) = front ++ outsideEscapes 0 rest := by
  induction front with
  | nil => rfl
  | cons c front ih =>
    rw [List.mem_cons, not_or] at h
    have hnone : escapeLength? (c :: (front ++ rest)) = none := by
      unfold escapeLength?
      split
      · next heq => exact absurd (List.cons.inj heq).1.symm h.1
      · rfl
    simp only [List.cons_append, outsideEscapes, hnone, ih h.2]

/-- An escape sequence is deleted. -/
theorem outsideEscapes_escape {parameters : List Char} (h : 'm' ∉ parameters) (rest : List Char) :
    outsideEscapes 0 ('\x1b' :: '[' :: (parameters ++ 'm' :: rest)) = outsideEscapes 0 rest := by
  have hfind : (parameters ++ 'm' :: rest).findIdx? (· == 'm') = some parameters.length := by
    have hnone : parameters.findIdx? (· == 'm') = none := by
      rw [List.findIdx?_eq_none_iff]
      intro c hc
      simpa using fun heq : c = 'm' => h (heq ▸ hc)
    simp [List.findIdx?_append, hnone, List.findIdx?_cons]
  have hlength : escapeLength? ('\x1b' :: '[' :: (parameters ++ 'm' :: rest)) =
      some (parameters.length + 3) := by
    rw [escapeLength?, hfind]
    rfl
  have hinside := outsideEscapes_length_append ('[' :: (parameters ++ ['m'])) rest
  simp only [List.length_cons, List.length_append, List.length_nil, List.cons_append,
    List.append_assoc, List.nil_append] at hinside
  rw [outsideEscapes, hlength]
  exact hinside

/-! ## Texts without ESC -/

/-- Whether a text holds no ESC, the character that begins an escape sequence. -/
def IsPlain (text : String) : Prop := '\x1b' ∉ text.toList

instance (text : String) : Decidable (IsPlain text) := inferInstanceAs (Decidable (¬ _))

@[simp] theorem isPlain_append {s t : String} : IsPlain (s ++ t) ↔ IsPlain s ∧ IsPlain t := by
  simp [IsPlain]

theorem IsPlain.append {s t : String} (hs : IsPlain s) (ht : IsPlain t) : IsPlain (s ++ t) :=
  isPlain_append.2 ⟨hs, ht⟩

theorem isPlain_ofList {cs : List Char} (h : ∀ c ∈ cs, c ≠ '\x1b') : IsPlain (String.ofList cs) :=
  fun hmem => h _ (by simpa using hmem) rfl

@[simp] theorem isPlain_toString_nat (n : Nat) : IsPlain (toString n) := by
  intro hmem
  rw [Decimal.toList_toString_nat] at hmem
  exact absurd (Decimal.isNumberChar_of_mem_toDigits hmem) (by decide)

theorem isPlain_toString_int (n : Int) : IsPlain (toString n) :=
  fun hmem => absurd (Decimal.isNumberChar_of_mem_toString hmem) (by decide)

theorem isPlain_replicate (n : Nat) {c : Char} (h : c ≠ '\x1b') :
    IsPlain (String.ofList (List.replicate n c)) :=
  isPlain_ofList fun _ hc => (List.mem_replicate.1 hc).2 ▸ h

theorem IsPlain.padLeft {text : String} (h : IsPlain text) (width : Nat) :
    IsPlain (padLeft width text) :=
  (isPlain_replicate _ (by decide)).append h

theorem IsPlain.padRight {text : String} (h : IsPlain text) (width : Nat) :
    IsPlain (padRight width text) :=
  h.append (isPlain_replicate _ (by decide))

theorem isPlain_zeroPad (width n : Nat) : IsPlain (zeroPad width n) :=
  (isPlain_replicate _ (by decide)).append (isPlain_toString_nat n)

/-- What is left when the end of a text is cut off holds no ESC if the text holds none. -/
theorem IsPlain.trimEnd {text : String} (h : IsPlain text) (drop : Char → Bool) :
    IsPlain (trimEnd drop text) := by
  refine isPlain_ofList fun c hc heq => h ?_
  have hmem := List.mem_reverse.1 ((List.dropWhile_sublist drop).mem (List.mem_reverse.1 hc))
  exact heq ▸ hmem

/-! ## Decorations -/

/-- Whether the second text is left when the escape sequences of the first one are deleted, whatever
stands behind it. -/
def Decorates (text bare : String) : Prop :=
  ∀ rest, outsideEscapes 0 (text.toList ++ rest) = bare.toList ++ outsideEscapes 0 rest

/-- A text without ESC decorates itself. -/
theorem IsPlain.decorates {text : String} (h : IsPlain text) : Decorates text text :=
  outsideEscapes_append h

/-- Pieces of a text can be taken one by one. -/
theorem Decorates.append {s s' t t' : String} (hs : Decorates s s') (ht : Decorates t t') :
    Decorates (s ++ t) (s' ++ t') := by
  intro rest
  simp only [String.toList_append, List.append_assoc]
  rw [hs, ht]

/-- Deleting the escape sequences leaves the text that is decorated. -/
theorem Decorates.undecorated_eq {text bare : String} (h : Decorates text bare) :
    undecorated text = bare := by
  have hall := h []
  rw [List.append_nil, outsideEscapes, List.append_nil] at hall
  rw [undecorated, hall, String.ofList_toList]

/-- An escape sequence decorates nothing. -/
theorem decorates_escapeSequence {parameters : String} (h : 'm' ∉ parameters.toList) :
    Decorates (escapeSequence parameters) "" := by
  intro rest
  simpa [escapeSequence] using outsideEscapes_escape h rest

/-- The parameters of a colour hold no `m`. -/
theorem not_mem_colour? {k : TokenKind} {style : HighlightStyle} {parameters : String}
    (h : k.colour? style = some parameters) : 'm' ∉ parameters.toList := by
  cases style with
  | plain => cases h
  | light => cases k <;> cases h <;> decide
  | dark => cases k <;> cases h <;> decide

/-- A highlighted token decorates the token. -/
theorem decorates_highlight {text : String} (h : IsPlain text) (k : TokenKind)
    (style : HighlightStyle) : Decorates (highlight k text style) text := by
  cases hcolour : k.colour? style with
  | none => simpa [highlight, hcolour] using h.decorates
  | some parameters =>
    have hbegin := decorates_escapeSequence (not_mem_colour? hcolour)
    have hend : Decorates (escapeSequence "0") "" := decorates_escapeSequence (by decide)
    rw [highlight_eq text hcolour]
    simpa using (hbegin.append h.decorates).append hend

end BytecodeDebugger.Text
