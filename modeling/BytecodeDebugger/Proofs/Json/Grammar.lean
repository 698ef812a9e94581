import BytecodeDebugger.Proofs.Json.Token

/-!
# Spellings of JSON values

How a value may be spelled: any blanks may stand between its tokens, its numbers are whole and its
texts are written as `textChars` does. Whatever a value is spelled like, it is read as itself.

Main facts: `Spells.isRead` (a spelling is read, whatever stands behind it) and `Spells.parse?_eq`
(a document that spells a value is read as this value).
-/

namespace BytecodeDebugger.Json

open Decimal (Literal)

/-! ## Blanks -/

/-- Blanks only. -/
def IsBlank (cs : List Char) : Prop := ∀ c ∈ cs, isSpace c = true

theorem isBlank_nil : IsBlank [] := List.forall_mem_nil _

theorem isBlank_space : IsBlank [' '] := List.forall_mem_singleton.2 rfl

theorem isBlank_newLine (level : Nat) : IsBlank (newLine level) := by
  refine List.forall_mem_cons.2 ⟨by decide, fun c hc => ?_⟩
  rw [(List.mem_replicate.1 hc).2]
  rfl

theorem skipSpace_append {b : List Char} (hb : IsBlank b) (cs : List Char) :
    skipSpace (b ++ cs) = skipSpace cs :=
  List.dropWhile_append_of_pos hb

theorem skipSpace_cons {c : Char} (hc : isSpace c = false) (cs : List Char) :
    skipSpace (c :: cs) = c :: cs :=
  List.dropWhile_cons_of_neg (by simp [hc])

theorem skipSpace_append_cons {b : List Char} (hb : IsBlank b) {c : Char} (hc : isSpace c = false)
    (cs : List Char) : skipSpace (b ++ c :: cs) = c :: cs :=
  (skipSpace_append hb _).trans (skipSpace_cons hc cs)

/-- A number does not go on behind it with blanks and a punctuation mark. -/
theorem endsNumber_append {b : List Char} (hb : IsBlank b) {c : Char}
    (hc : c ∈ [',', ']', '\x7d']) (rest : List Char) : EndsNumber (b ++ c :: rest) := by
  have hends : ∀ d, isSpace d = true ∨ d ∈ [',', ']', '\x7d'] →
      d.isDigit = false ∧ d ≠ '.' ∧ d ≠ 'e' ∧ d ≠ 'E' := by
    intro d hd
    simp only [isSpace, Bool.or_eq_true, beq_iff_eq, List.mem_cons, List.not_mem_nil,
      or_false] at hd
    rcases hd with (((rfl | rfl) | rfl) | rfl) | rfl | rfl | rfl <;> decide
  cases b with
  | nil => rintro d ⟨⟩; exact hends c (.inr hc)
  | cons d b => rintro _ ⟨⟩; exact hends d (.inl (hb d List.mem_cons_self))

/-! ## Spellings -/

/-- A part of a document that is read at a time. -/
inductive Part where
  | value (v : Json)
  /-- One item or more, up to the closing bracket. -/
  | items (vs : List Json)
  /-- One member or more, up to the closing brace. -/
  | members (ms : List (String × Json))

/-- The characters spell the part. -/
inductive Spells : Part → List Char → Prop
  | null : Spells (.value .null) ['n', 'u', 'l', 'l']
  | true : Spells (.value (.bool true)) ['t', 'r', 'u', 'e']
  | false : Spells (.value (.bool false)) ['f', 'a', 'l', 's', 'e']
  | number (n : Int) : Spells (.value (.number (.ofInt n))) ((Literal.ofInt n).chars true)
  | string (text : String) : Spells (.value (.string text)) (textChars text)
  | emptyArray {b : List Char} (hb : IsBlank b) : Spells (.value (.array [])) ('[' :: (b ++ [']']))
  | array {b cs : List Char} {vs : List Json} (hb : IsBlank b) (hitems : Spells (.items vs) cs) :
    Spells (.value (.array vs)) ('[' :: (b ++ cs))
  | emptyObject {b : List Char} (hb : IsBlank b) :
    Spells (.value (.object [])) ('\x7b' :: (b ++ ['\x7d']))
  | object {b cs : List Char} {ms : List (String × Json)} (hb : IsBlank b)
    (hmembers : Spells (.members ms) cs) : Spells (.value (.object ms)) ('\x7b' :: (b ++ cs))
  | lastItem {cs b : List Char} {v : Json} (hv : Spells (.value v) cs) (hb : IsBlank b) :
    Spells (.items [v]) (cs ++ (b ++ [']']))
  | item {cs b b' cs' : List Char} {v : Json} {vs : List Json} (hv : Spells (.value v) cs)
    (hb : IsBlank b) (hb' : IsBlank b') (hitems : Spells (.items vs) cs') :
    Spells (.items (v :: vs)) (cs ++ (b ++ ',' :: (b' ++ cs')))
  | lastMember {key : String} {b b' cs b'' : List Char} {v : Json} (hb : IsBlank b)
    (hb' : IsBlank b') (hv : Spells (.value v) cs) (hb'' : IsBlank b'') :
    Spells (.members [(key, v)]) (textChars key ++ (b ++ ':' :: (b' ++ (cs ++ (b'' ++ ['\x7d'])))))
  | member {key : String} {b b' cs b'' b₃ cs' : List Char} {v : Json} {ms : List (String × Json)}
    (hb : IsBlank b) (hb' : IsBlank b') (hv : Spells (.value v) cs) (hb'' : IsBlank b'')
    (hb₃ : IsBlank b₃) (hmembers : Spells (.members ms) cs') :
    Spells (.members ((key, v) :: ms))
      (textChars key ++ (b ++ ':' :: (b' ++ (cs ++ (b'' ++ ',' :: (b₃ ++ cs'))))))

/-- The part is read from the characters, whatever stands behind them that does not go on with a
number. -/
def Part.IsRead (cs : List Char) : Part → Prop
  | .value v => ∀ fuel rest, cs.length < fuel → EndsNumber rest →
      value? fuel (cs ++ rest) = some (v, rest)
  | .items vs => ∀ fuel rest, cs.length < fuel → items? fuel (cs ++ rest) = some (vs, rest)
  | .members ms => ∀ fuel rest, cs.length < fuel →
      members? fuel (cs ++ rest) = some (some ms, rest)

/-- How the characters of a part begin: with nothing that is skipped or closes a list. -/
def Part.BeginsWith (c : Char) : Part → Prop
  | .value _ | .items _ => isSpace c = false ∧ c ≠ ']'
  | .members _ => c = '"'

/-- A number does not begin with a blank, nor as another value does. -/
theorem ne_of_numeric {c : Char} (h : c = '-' ∨ c.isDigit = true) :
    isSpace c = false ∧ c ∉ [']', '\x7b', '[', '"', 't', 'f', 'n'] := by
  have hother : ∀ d, isSpace d = true ∨ d ∈ [']', '\x7b', '[', '"', 't', 'f', 'n'] →
      ¬(d = '-' ∨ d.isDigit = true) := by
    intro d hd
    simp only [isSpace, Bool.or_eq_true, beq_iff_eq, List.mem_cons, List.not_mem_nil,
      or_false] at hd
    rcases hd with (((rfl | rfl) | rfl) | rfl) | rfl | rfl | rfl | rfl | rfl | rfl | rfl <;> decide
  exact ⟨Bool.eq_false_iff.2 fun hc => hother c (.inl hc) h, fun hc => hother c (.inr hc) h⟩

/-- A spelling begins as its part does. -/
theorem Spells.exists_cons {part : Part} {cs : List Char} (h : Spells part cs) :
    ∃ c cs', cs = c :: cs' ∧ part.BeginsWith c := by
  induction h with
  | null | true | false => exact ⟨_, _, rfl, by decide, by decide⟩
  | string text => exact ⟨_, _, rfl, by decide, by decide⟩
  | emptyArray | array | emptyObject | object => exact ⟨_, _, rfl, by decide, by decide⟩
  | number n =>
    obtain ⟨c, cs, hcs, hc⟩ := exists_cons_chars_ofInt n
    obtain ⟨hspace, hother⟩ := ne_of_numeric hc
    exact ⟨c, cs, hcs, hspace, fun heq => hother (heq ▸ List.mem_cons_self)⟩
  | lastItem _ _ ih =>
    obtain ⟨c, cs', rfl, hc⟩ := ih
    exact ⟨c, _, rfl, hc⟩
  | item _ _ _ _ ih _ =>
    obtain ⟨c, cs', rfl, hc⟩ := ih
    exact ⟨c, _, rfl, hc⟩
  | lastMember | member => exact ⟨_, _, rfl, rfl⟩

/-! ## Reading spellings -/

/-- What begins as a number does is read as one. -/
theorem value?_numeric {c : Char} (h : c = '-' ∨ c.isDigit = true) (fuel : Nat) (cs : List Char) :
    value? (fuel + 1) (c :: cs) =
      match number? (c :: cs) with
      | none => none
      | some (l, rest) => some (.number l, rest) := by
  obtain ⟨hspace, hother⟩ := ne_of_numeric h
  simp only [List.mem_cons, List.not_mem_nil, or_false, not_or] at hother
  obtain ⟨-, hbrace, hbracket, hquote, ht, hf, hn⟩ := hother
  rw [value?, skipSpace_cons hspace]
  split
  · next heq => exact absurd (List.cons.inj heq).1 hbrace
  · next heq => exact absurd (List.cons.inj heq).1 hbracket
  · next heq => exact absurd (List.cons.inj heq).1 hquote
  · next heq => exact absurd (List.cons.inj heq).1 ht
  · next heq => exact absurd (List.cons.inj heq).1 hf
  · next heq => exact absurd (List.cons.inj heq).1 hn
  · rfl

theorem value?_append {b : List Char} (hb : IsBlank b) (fuel : Nat) (cs : List Char) :
    value? fuel (b ++ cs) = value? fuel cs := by
  cases fuel with
  | zero => simp only [value?]
  | succ fuel => rw [value?, skipSpace_append hb, value?]

theorem items?_append {b : List Char} (hb : IsBlank b) (fuel : Nat) (cs : List Char) :
    items? fuel (b ++ cs) = items? fuel cs := by
  cases fuel with
  | zero => simp only [items?]
  | succ fuel => rw [items?, value?_append hb, items?]

theorem members?_append {b : List Char} (hb : IsBlank b) (fuel : Nat) (cs : List Char) :
    members? fuel (b ++ cs) = members? fuel cs := by
  cases fuel with
  | zero => simp only [members?]
  | succ fuel => rw [members?, skipSpace_append hb, members?]

/-- Behind a quote stands a text. -/
theorem value?_string {cs rest : List Char} {text : String}
    (h : text? cs = some (some text, rest)) (fuel : Nat) :
    value? (fuel + 1) ('"' :: cs) = some (.string text, rest) := by
  have hquote : skipSpace ('"' :: cs) = '"' :: cs := skipSpace_cons rfl cs
  simp only [value?, hquote, h]

/-- Behind a bracket stands the closing one, or items. -/
theorem value?_bracket (fuel : Nat) (cs : List Char) :
    value? (fuel + 1) ('[' :: cs) =
      match skipSpace cs with
      | ']' :: rest => some (.array [], rest)
      | rest =>
        match items? fuel rest with
        | none => none
        | some (vs, rest) => some (.array vs, rest) := by
  rw [value?, skipSpace_cons rfl]
  rfl

/-- Behind a brace stands the closing one, or members. -/
theorem value?_brace (fuel : Nat) (cs : List Char) :
    value? (fuel + 1) ('\x7b' :: cs) =
      match skipSpace cs with
      | '\x7d' :: rest => some (.object [], rest)
      | rest =>
        match members? fuel rest with
        | none => none
        | some (none, rest) => some (.unreadable, rest)
        | some (some ms, rest) => some (.object ms, rest) := by
  rw [value?, skipSpace_cons rfl]
  rfl

/-- Items behind a bracket are those of an array. -/
theorem value?_array {b cs rest : List Char} {vs : List Json} {fuel : Nat} {c : Char}
    (hb : IsBlank b) (hspace : isSpace c = false) (hclose : c ≠ ']')
    (hitems : items? fuel (c :: cs) = some (vs, rest)) :
    value? (fuel + 1) ('[' :: (b ++ c :: cs)) = some (.array vs, rest) := by
  rw [value?_bracket, skipSpace_append_cons hb hspace]
  split
  · next heq => exact absurd (List.cons.inj heq).1 hclose
  · rw [hitems]

/-- Members behind a brace are those of an object. -/
theorem value?_object {b cs rest : List Char} {ms : List (String × Json)} {fuel : Nat}
    (hb : IsBlank b) (hmembers : members? fuel ('"' :: cs) = some (some ms, rest)) :
    value? (fuel + 1) ('\x7b' :: (b ++ '"' :: cs)) = some (.object ms, rest) := by
  rw [value?_brace, skipSpace_append_cons hb rfl]
  split
  · next heq => exact absurd (List.cons.inj heq).1 (by decide)
  · rw [hmembers]

/-- The closing bracket behind an item ends the items. -/
theorem items?_last {cs b rest : List Char} {v : Json} {fuel : Nat} (hb : IsBlank b)
    (hv : value? fuel cs = some (v, b ++ ']' :: rest)) :
    items? (fuel + 1) cs = some ([v], rest) := by
  have hclose : skipSpace (b ++ ']' :: rest) = ']' :: rest := skipSpace_append_cons hb rfl rest
  simp only [items?, hv, hclose]

/-- Behind an item and a comma stand further items. -/
theorem items?_cons {cs b b' cs' rest : List Char} {v : Json} {vs : List Json} {fuel : Nat}
    (hb : IsBlank b) (hb' : IsBlank b') (hv : value? fuel cs = some (v, b ++ ',' :: (b' ++ cs')))
    (hitems : items? fuel cs' = some (vs, rest)) :
    items? (fuel + 1) cs = some (v :: vs, rest) := by
  have hcomma : skipSpace (b ++ ',' :: (b' ++ cs')) = ',' :: (b' ++ cs') :=
    skipSpace_append_cons hb rfl _
  simp only [items?, hv, hcomma, items?_append hb', hitems]

/-- The closing brace behind a member ends the members. -/
theorem members?_last {b b' cs b'' rest : List Char} {key : String} {v : Json} {fuel : Nat}
    (hb : IsBlank b) (hb' : IsBlank b') (hb'' : IsBlank b'')
    (hv : value? fuel cs = some (v, b'' ++ '\x7d' :: rest)) :
    members? (fuel + 1) (textChars key ++ (b ++ ':' :: (b' ++ cs))) =
      some (some [(key, v)], rest) := by
  have hcolon : skipSpace (b ++ ':' :: (b' ++ cs)) = ':' :: (b' ++ cs) :=
    skipSpace_append_cons hb rfl _
  have hclose : skipSpace (b'' ++ '\x7d' :: rest) = '\x7d' :: rest :=
    skipSpace_append_cons hb'' rfl _
  rw [members?, textChars, List.append_assoc, List.cons_append, List.singleton_append,
    skipSpace_cons rfl]
  simp only [text?_escaped, hcolon, value?_append hb', hv, hclose, Option.map_some]

/-- Behind a member and a comma stand further members. -/
theorem members?_cons {b b' cs b'' b₃ cs' rest : List Char} {key : String} {v : Json}
    {ms : List (String × Json)} {fuel : Nat} (hb : IsBlank b) (hb' : IsBlank b')
    (hb'' : IsBlank b'') (hb₃ : IsBlank b₃)
    (hv : value? fuel cs = some (v, b'' ++ ',' :: (b₃ ++ cs')))
    (hmembers : members? fuel cs' = some (some ms, rest)) :
    members? (fuel + 1) (textChars key ++ (b ++ ':' :: (b' ++ cs))) =
      some (some ((key, v) :: ms), rest) := by
  have hcolon : skipSpace (b ++ ':' :: (b' ++ cs)) = ':' :: (b' ++ cs) :=
    skipSpace_append_cons hb rfl _
  have hcomma : skipSpace (b'' ++ ',' :: (b₃ ++ cs')) = ',' :: (b₃ ++ cs') :=
    skipSpace_append_cons hb'' rfl _
  rw [members?, textChars, List.append_assoc, List.cons_append, List.singleton_append,
    skipSpace_cons rfl]
  simp only [text?_escaped, hcolon, value?_append hb', hv, hcomma, Option.map_some,
    members?_append hb₃, hmembers]

/-- A spelling is read as what it spells. The fuel, which is more than the characters, is taken from
by one for each constructor of the spelling, and each has a character of its own. -/
theorem Spells.isRead {part : Part} {cs : List Char} (h : Spells part cs) : part.IsRead cs := by
  induction h with
  | null | true | false =>
    intro fuel rest hfuel _
    obtain ⟨k, rfl⟩ := Nat.exists_eq_add_of_lt hfuel
    rw [value?]
    rfl
  | number n =>
    intro fuel rest hfuel hrest
    obtain ⟨k, rfl⟩ := Nat.exists_eq_add_of_lt hfuel
    have hread := number?_ofInt n hrest
    obtain ⟨c, cs, hcs, hc⟩ := exists_cons_chars_ofInt n
    rw [hcs, List.cons_append] at hread ⊢
    rw [value?_numeric hc, hread]
  | string text =>
    intro fuel rest hfuel _
    obtain ⟨k, rfl⟩ := Nat.exists_eq_add_of_lt hfuel
    rw [textChars, List.append_assoc, List.cons_append]
    exact value?_string (text?_escaped text rest) _
  | emptyArray hb =>
    intro fuel rest hfuel _
    obtain ⟨k, rfl⟩ := Nat.exists_eq_add_of_lt hfuel
    rw [List.cons_append, List.append_assoc, value?_bracket, skipSpace_append hb]
    rfl
  | @array b cs vs hb hitems ih =>
    intro fuel rest hfuel _
    obtain ⟨k, rfl⟩ := Nat.exists_eq_add_of_lt hfuel
    obtain ⟨c, cs, rfl, hspace, hclose⟩ := hitems.exists_cons
    rw [List.cons_append, List.append_assoc, List.cons_append]
    exact value?_array hb hspace hclose (ih _ rest (by simp; omega))
  | emptyObject hb =>
    intro fuel rest hfuel _
    obtain ⟨k, rfl⟩ := Nat.exists_eq_add_of_lt hfuel
    rw [List.cons_append, List.append_assoc, value?_brace, skipSpace_append hb]
    rfl
  | @object b cs ms hb hmembers ih =>
    intro fuel rest hfuel _
    obtain ⟨k, rfl⟩ := Nat.exists_eq_add_of_lt hfuel
    obtain ⟨c, cs, rfl, rfl⟩ := hmembers.exists_cons
    rw [List.cons_append, List.append_assoc, List.cons_append]
    exact value?_object hb (ih _ rest (by simp; omega))
  -- a number among the items or the members ends where the next mark stands, blanks or not
  | lastItem _ hb ih =>
    intro fuel rest hfuel
    obtain ⟨k, rfl⟩ := Nat.exists_eq_add_of_lt hfuel
    rw [List.append_assoc, List.append_assoc, List.singleton_append]
    exact items?_last hb (ih _ _ (by simp; omega) (endsNumber_append hb (by decide) rest))
  | item _ hb hb' _ ih ih' =>
    intro fuel rest hfuel
    obtain ⟨k, rfl⟩ := Nat.exists_eq_add_of_lt hfuel
    rw [List.append_assoc, List.append_assoc, List.cons_append, List.append_assoc]
    exact items?_cons hb hb' (ih _ _ (by simp; omega) (endsNumber_append hb (by decide) _))
      (ih' _ _ (by simp; omega))
  | lastMember hb hb' _ hb'' ih =>
    intro fuel rest hfuel
    obtain ⟨k, rfl⟩ := Nat.exists_eq_add_of_lt hfuel
    simp only [List.append_assoc, List.cons_append, List.nil_append]
    exact members?_last hb hb' hb''
      (ih _ _ (by simp; omega) (endsNumber_append hb'' (by decide) rest))
  | member hb hb' _ hb'' hb₃ _ ih ih' =>
    intro fuel rest hfuel
    obtain ⟨k, rfl⟩ := Nat.exists_eq_add_of_lt hfuel
    simp only [List.append_assoc, List.cons_append]
    exact members?_cons hb hb' hb'' hb₃
      (ih _ _ (by simp; omega) (endsNumber_append hb'' (by decide) _)) (ih' _ _ (by simp; omega))

/-- A document that spells a value is read as this value. -/
theorem Spells.parse?_eq {v : Json} {cs : List Char} (h : Spells (.value v) cs) :
    parse? (String.ofList cs) = some v := by
  have hread : value? (2 * cs.length + 2) (cs ++ []) = some (v, []) :=
    h.isRead _ [] (by omega) (by rintro c ⟨⟩)
  rw [List.append_nil] at hread
  simp [parse?, hread, skipSpace]

end BytecodeDebugger.Json
