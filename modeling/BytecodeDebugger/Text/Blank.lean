/-!
# Blanks and words

The characters that separate words on a command line, and the three cuts made at them: the words
of a text, a text without its outer blanks, and a text without its final line ends.

Main facts: `not_isBlank_of_mem_words` (a word holds no blank) and `ne_nil_of_mem_words` (no word is
empty).
-/

namespace BytecodeDebugger.Text

/-- The characters with the Unicode property White_Space. -/
def isBlank (c : Char) : Bool :=
  let n := c.toNat
  (9 ≤ n && n ≤ 13) || n == 0x20 || n == 0x85 || n == 0xA0 || n == 0x1680 ||
    (0x2000 ≤ n && n ≤ 0x200A) || n == 0x2028 || n == 0x2029 || n == 0x202F || n == 0x205F ||
    n == 0x3000

/-- The runs of characters between blanks, given the characters of the run under way, last first. -/
def wordsFrom (run : List Char) : List Char → List (List Char)
  | [] => if run.isEmpty then [] else [run.reverse]
  | c :: rest =>
    if isBlank c then
      if run.isEmpty then wordsFrom [] rest else run.reverse :: wordsFrom [] rest
    else wordsFrom (c :: run) rest

/-- The words of a line: its longest runs of characters that are no blanks. -/
def words (line : String) : List String :=
  (wordsFrom [] line.toList).map String.ofList

/-- The text without the blanks at its two ends. -/
def trim (text : String) : String :=
  String.ofList (((text.toList.dropWhile isBlank).reverse.dropWhile isBlank).reverse)

/-- The text without the characters of a class at its end. -/
def trimEnd (drop : Char → Bool) (text : String) : String :=
  String.ofList ((text.toList.reverse.dropWhile drop).reverse)

/-! ## What a word is -/

/-- No run is empty. -/
theorem ne_nil_of_mem_wordsFrom {run cs w : List Char} (h : w ∈ wordsFrom run cs) : w ≠ [] := by
  induction cs generalizing run with
  | nil =>
    cases run with
    | nil => simp [wordsFrom] at h
    | cons a r => simp only [wordsFrom] at h; simp at h; simp [h]
  | cons c rest ih =>
    simp only [wordsFrom] at h
    split at h
    · cases run with
      | nil => exact ih (by simpa using h)
      | cons a r =>
        simp at h
        rcases h with h | h
        · simp [h]
        · exact ih h
    · exact ih h

/-- A run holds no blank if what was collected before holds none. -/
theorem not_isBlank_of_mem_wordsFrom {run cs w : List Char} (hr : ∀ c ∈ run, isBlank c = false)
    (h : w ∈ wordsFrom run cs) : ∀ c ∈ w, isBlank c = false := by
  induction cs generalizing run with
  | nil =>
    cases run with
    | nil => simp [wordsFrom] at h
    | cons a r =>
      have hw : w = (a :: r).reverse := by simpa [wordsFrom] using h
      subst hw
      exact fun c hc => hr c (List.mem_reverse.1 hc)
  | cons c rest ih =>
    simp only [wordsFrom] at h
    split at h
    · cases run with
      | nil => exact ih (by simp) h
      | cons a r =>
        simp only [List.isEmpty_cons, Bool.false_eq_true, if_false, List.mem_cons] at h
        rcases h with h | h
        · subst h
          exact fun d hd => hr d (List.mem_reverse.1 hd)
        · exact ih (by simp) h
    · next hc =>
      refine ih ?_ h
      intro d hd
      rcases List.mem_cons.1 hd with rfl | hd
      · simpa using hc
      · exact hr d hd

/-- No word is empty. -/
theorem ne_nil_of_mem_words {line w : String} (h : w ∈ words line) : w.toList ≠ [] := by
  obtain ⟨cs, hcs, rfl⟩ := List.mem_map.1 h
  simpa using ne_nil_of_mem_wordsFrom hcs

/-- A word holds no blank. -/
theorem not_isBlank_of_mem_words {line w : String} (h : w ∈ words line) :
    ∀ c ∈ w.toList, isBlank c = false := by
  obtain ⟨cs, hcs, rfl⟩ := List.mem_map.1 h
  simpa using not_isBlank_of_mem_wordsFrom (by simp) hcs

end BytecodeDebugger.Text
