import BytecodeDebugger.Text.Blank
import BytecodeDebugger.Text.Unsigned
import Mathlib.Tactic.Common

/-!
# Reading a command line back

Words that are put together with a space are read as these words again, and a number is read from
its decimal digits, with or without a plus sign in front, and from nothing else.

Main facts: `words_append_space`, `parseUnsigned_toString` and `parseUnsigned_eq_ok_iff` (what a
number is read from).
-/

namespace BytecodeDebugger.Text

theorem toNat_of_isDigit {c : Char} (h : c.isDigit = true) : 48 ≤ c.toNat ∧ c.toNat ≤ 57 := by
  rw [Char.isDigit, Bool.and_eq_true, decide_eq_true_eq, decide_eq_true_eq] at h
  exact h

/-! ## Words -/

theorem isBlank_of_isDigit {c : Char} (h : c.isDigit = true) : isBlank c = false := by
  have hrange := toNat_of_isDigit h
  simp only [isBlank, Bool.or_eq_false_iff, Bool.and_eq_false_iff, decide_eq_false_iff_not,
    beq_eq_false_iff_ne]
  omega

/-- A run goes on over characters that are no blanks. -/
theorem wordsFrom_append (run : List Char) {cs : List Char}
    (h : ∀ c ∈ cs, isBlank c = false) (rest : List Char) :
    wordsFrom run (cs ++ rest) = wordsFrom (cs.reverse ++ run) rest := by
  induction cs generalizing run with
  | nil => rfl
  | cons c cs ih =>
    have hc := h c List.mem_cons_self
    rw [List.cons_append, wordsFrom, hc, if_neg Bool.false_ne_true,
      ih _ fun d hd => h d (List.mem_cons_of_mem c hd)]
    simp

/-- A text of one word is that word: it holds something, and no blank. -/
theorem words_eq_singleton_iff {w : String} :
    words w = [w] ↔ w.toList ≠ [] ∧ ∀ c ∈ w.toList, isBlank c = false := by
  constructor
  · intro h
    have hmem : w ∈ words w := h ▸ List.mem_singleton_self w
    exact ⟨ne_nil_of_mem_words hmem, not_isBlank_of_mem_words hmem⟩
  · rintro ⟨hne, hblank⟩
    have hrun := wordsFrom_append [] hblank []
    rw [List.append_nil, List.append_nil] at hrun
    rw [words, hrun, wordsFrom]
    simp [hne]

/-- Two words with a space between them are read as these. -/
theorem words_append_space {v w : String} (hv : words v = [v]) (hw : words w = [w]) :
    words (v ++ " " ++ w) = [v, w] := by
  obtain ⟨hne, hblank⟩ := words_eq_singleton_iff.1 hv
  have hlist : (v ++ " " ++ w).toList = v.toList ++ ' ' :: w.toList := by simp
  have hspace : isBlank ' ' = true := by decide
  have hsecond : wordsFrom [] w.toList = [w.toList] := by
    have hmap := congrArg (List.map String.toList) hw
    rw [words, List.map_map] at hmap
    simpa [Function.comp_def] using hmap
  rw [words, hlist, wordsFrom_append [] hblank, wordsFrom, hspace, if_pos rfl, hsecond]
  simp [hne]

/-! ## Numbers -/

theorem digit?_of_isDigit {c : Char} (h : c.isDigit = true) :
    digit? c = some (c.toNat - '0'.toNat) := by
  rw [digit?, if_pos h]

/-- Further digits make a number no smaller. -/
theorem le_ofDigitChars (cs : List Char) (value : Nat) : value ≤ Nat.ofDigitChars 10 cs value := by
  rw [Nat.ofDigitChars_eq_foldl]
  induction cs generalizing value with
  | nil => exact Nat.le_refl _
  | cons c cs ih =>
    have hrest := ih (10 * value + (c.toNat - '0'.toNat))
    rw [List.foldl_cons]
    omega

/-- Digits are read as the number that they spell, if it lies below the limit. -/
theorem parseDigits_eq_ok {limit value : Nat} {cs : List Char} (h : ∀ c ∈ cs, c.isDigit = true)
    (hlt : Nat.ofDigitChars 10 cs value < limit) :
    parseDigits limit value cs = .ok (Nat.ofDigitChars 10 cs value) := by
  induction cs generalizing value with
  | nil => rfl
  | cons c cs ih =>
    rw [Nat.ofDigitChars_cons, Nat.mul_comm] at hlt ⊢
    have hfits : value * 10 + (c.toNat - '0'.toNat) < limit :=
      Nat.lt_of_le_of_lt (le_ofDigitChars cs _) hlt
    simp only [parseDigits, digit?_of_isDigit (h c List.mem_cons_self), if_pos hfits]
    exact ih (fun d hd => h d (List.mem_cons_of_mem c hd)) hlt

/-- The characters are the decimal digits of a number below a limit. There may be leading zeros. -/
structure IsDecimal (limit : Nat) (cs : List Char) (n : Nat) : Prop where
  ne_nil : cs ≠ []
  isDigit : ∀ c ∈ cs, c.isDigit = true
  value : Nat.ofDigitChars 10 cs 0 = n
  lt : n < limit

instance (limit : Nat) (cs : List Char) (n : Nat) : Decidable (IsDecimal limit cs n) :=
  decidable_of_iff
    (cs ≠ [] ∧ cs.all Char.isDigit = true ∧ Nat.ofDigitChars 10 cs 0 = n ∧ n < limit)
    ⟨fun h => ⟨h.1, List.all_eq_true.1 h.2.1, h.2.2.1, h.2.2.2⟩,
      fun h => ⟨h.ne_nil, List.all_eq_true.2 h.isDigit, h.value, h.lt⟩⟩

/-- The characters are the digits of a number below a limit, with or without a plus sign in
front. -/
def IsNumeral (limit : Nat) (cs : List Char) (n : Nat) : Prop :=
  ∃ ds, IsDecimal limit ds n ∧ (cs = ds ∨ cs = '+' :: ds)

theorem IsDecimal.head?_ne_plus {limit n : Nat} {cs : List Char} (h : IsDecimal limit cs n) :
    cs.head? ≠ some '+' :=
  fun heq => absurd (h.isDigit '+' (List.mem_of_mem_head? heq)) (by decide)

/-- Only digits are read, as the number that they spell. -/
theorem parseDigits_eq_ok_iff {limit value n : Nat} {cs : List Char} (hv : value < limit) :
    parseDigits limit value cs = .ok n ↔
      (∀ c ∈ cs, c.isDigit = true) ∧ Nat.ofDigitChars 10 cs value = n ∧ n < limit := by
  refine ⟨fun h => ?_, fun ⟨hdigits, hvalue, hlt⟩ => ?_⟩
  · induction cs generalizing value with
    | nil =>
      cases h
      exact ⟨List.forall_mem_nil _, rfl, hv⟩
    | cons c cs ih =>
      unfold parseDigits digit? at h
      by_cases hc : c.isDigit = true
      · rw [if_pos hc] at h
        dsimp only at h
        split at h
        · next hlt =>
          obtain ⟨hdigits, hvalue, hn⟩ := ih hlt h
          refine ⟨List.forall_mem_cons.2 ⟨hc, hdigits⟩, ?_, hn⟩
          rw [Nat.ofDigitChars_cons, Nat.mul_comm, hvalue]
        · cases h
      · rw [if_neg hc] at h
        cases h
  · subst hvalue
    exact parseDigits_eq_ok hdigits hlt

/-- A number is read from its digits, with or without a plus sign in front, and from nothing
else. -/
theorem parseUnsigned_eq_ok_iff {limit n : Nat} {text : String} (hpos : 0 < limit) :
    parseUnsigned limit text = .ok n ↔ IsNumeral limit text.toList n := by
  have hparse : ∀ {cs : List Char}, cs ≠ [] →
      (parseDigits limit 0 cs = .ok n ↔ IsDecimal limit cs n) := by
    intro cs hne
    rw [parseDigits_eq_ok_iff hpos]
    exact ⟨fun ⟨hdigits, hvalue, hlt⟩ => ⟨hne, hdigits, hvalue, hlt⟩,
      fun h => ⟨h.isDigit, h.value, h.lt⟩⟩
  unfold parseUnsigned IsNumeral
  split
  · next hnil =>
    simp only [hnil, reduceCtorEq, false_iff, not_exists, not_and, or_false]
    rintro ds h rfl
    exact h.ne_nil rfl
  · next hplus =>
    simp only [hplus, reduceCtorEq, false_iff, not_exists, not_and, not_or]
    refine fun ds h => ⟨?_, ?_⟩
    · rintro rfl
      exact h.head?_ne_plus rfl
    · intro heq
      exact h.ne_nil (List.cons.inj heq).2.symm
  · next rest hne hplus =>
    have hrest : rest ≠ [] := by rintro rfl; exact hne rfl
    rw [hplus, hparse hrest]
    refine ⟨fun h => ⟨rest, h, .inr rfl⟩, ?_⟩
    rintro ⟨ds, h, rfl | heq⟩
    · exact absurd rfl h.head?_ne_plus
    · exact (List.cons.inj heq).2 ▸ h
  · next hne _ hplus =>
    rw [hparse hne]
    refine ⟨fun h => ⟨_, h, .inl rfl⟩, ?_⟩
    rintro ⟨ds, h, heq | heq⟩
    · rwa [heq]
    · exact (hplus ds heq).elim

/-- A number below the limit is read from its digits. -/
theorem parseUnsigned_toString {limit n : Nat} (h : n < limit) :
    parseUnsigned limit (toString n) = .ok n := by
  rw [parseUnsigned_eq_ok_iff (Nat.zero_lt_of_lt h), Nat.toString_eq_ofList_toDigits,
    String.toList_ofList]
  refine ⟨_, ⟨Nat.toDigits_ne_nil, fun c hc => ?_, Nat.ofDigitChars_ten_toDigits, h⟩, .inl rfl⟩
  exact Nat.isDigit_of_mem_toDigits (by decide) (by decide) hc

end BytecodeDebugger.Text
