import BytecodeDebugger.Command.Disassemble
import BytecodeDebugger.Proofs.Text.Reading

/-!
# Bounds in words

The bounds of a disassembly are words of two kinds, those about offsets, which begin with `@`, and
those about lines. The words of each kind say something by themselves, whatever words of the other
kind stand between them: nothing, where to begin, or where to begin and where to end. Together they
are understood exactly if the words of both kinds are, and set the bounds that these give.

Main facts: `parseBoundsFrom_eq_ok_iff` (the words of the two kinds do not get in each other's way),
`parseBounds_eq_ok_iff` (which words are understood, and as what) and `parseBounds_interleaved`.
-/

namespace BytecodeDebugger

/-- The policy with new bounds; one that is not given stays as it is. -/
def ListingPolicy.withBounds (p : ListingPolicy) (startLine : Option Nat) (endLine : Option EndLine)
    (startOffset endOffset : Option Nat) : ListingPolicy :=
  { p with
    startLine := startLine.or p.startLine
    endLine := endLine.or p.endLine
    startOffset := startOffset.getD p.startOffset
    endOffset := endOffset.or p.endOffset }

namespace Disassemble

open Text (lineLimit offsetLimit IsDecimal IsNumeral)

variable {p q : ListingPolicy} {word : String} {words rest : List String} {n seen : Nat}
  {startLine startOffset endOffset : Option Nat} {endLine : Option EndLine}

/-! ## Single words -/

/-- The word is a line number: digits only. -/
def IsLine (word : String) (n : Nat) : Prop := IsDecimal lineLimit word.toList n

instance (word : String) (n : Nat) : Decidable (IsLine word n) :=
  inferInstanceAs (Decidable (IsDecimal lineLimit word.toList n))

/-- The word is a count of lines: a plus sign and a number, which may have one of its own. -/
def IsCount (word : String) (n : Nat) : Prop :=
  ∃ cs, word.toList = '+' :: cs ∧ IsNumeral lineLimit cs n

/-- The word is an offset: an at sign and a number, which may have a plus sign. -/
def IsOffset (word : String) (n : Nat) : Prop :=
  ∃ cs, word.toList = '@' :: cs ∧ IsNumeral offsetLimit cs n

/-- The word is about offsets. -/
def isAboutOffsets (word : String) : Bool := word.toList.head? == some '@'

/-- The words about lines. -/
def lineWords (words : List String) : List String := words.filter fun word => !isAboutOffsets word

/-- The words about offsets. -/
def offsetWords (words : List String) : List String := words.filter isAboutOffsets

/-- A number is what the digits spell. -/
theorem number_eq_ok_iff {limit : Nat} {complaint digits : String} (hpos : 0 < limit) :
    number limit complaint word digits = .ok n ↔ IsNumeral limit digits.toList n := by
  rw [← Text.parseUnsigned_eq_ok_iff hpos]
  unfold number
  cases Text.parseUnsigned limit digits <;> simp

/-! ## Words of one kind -/

/-- What words about lines say: nothing, `FIRST`, `FIRST LAST` or `FIRST +COUNT`. -/
inductive LineBounds : List String → Option Nat → Option EndLine → Prop
  | nothing : LineBounds [] none none
  | first {first : String} {n : Nat} (hfirst : IsLine first n) : LineBounds [first] (some n) none
  | last {first last : String} {n m : Nat} (hfirst : IsLine first n) (hlast : IsLine last m) :
    LineBounds [first, last] (some n) (some (.absolute m))
  | count {first count : String} {n m : Nat} (hfirst : IsLine first n) (hcount : IsCount count m) :
    LineBounds [first, count] (some n) (some (.relative m))

/-- What words about offsets say: nothing, `@START` or `@START @END`. -/
inductive OffsetBounds : List String → Option Nat → Option Nat → Prop
  | nothing : OffsetBounds [] none none
  | start {start : String} {n : Nat} (hstart : IsOffset start n) :
    OffsetBounds [start] (some n) none
  | stop {start stop : String} {n m : Nat} (hstart : IsOffset start n) (hstop : IsOffset stop m) :
    OffsetBounds [start, stop] (some n) (some m)

/-- What further words about lines say, when so many of them came before. -/
inductive GoesOnLines : (seen : Nat) → List String → Option Nat → Option EndLine → Prop
  | nothing {seen : Nat} : GoesOnLines seen [] none none
  | first {word : String} {n : Nat} {rest : List String} {endLine : Option EndLine}
    (h : IsLine word n) (hrest : GoesOnLines 1 rest none endLine) :
    GoesOnLines 0 (word :: rest) (some n) endLine
  | last {word : String} {n : Nat} (h : IsLine word n) :
    GoesOnLines 1 [word] none (some (.absolute n))
  | count {word : String} {n : Nat} (h : IsCount word n) :
    GoesOnLines 1 [word] none (some (.relative n))

/-- What further words about offsets say, when so many of them came before. -/
inductive GoesOnOffsets : (seen : Nat) → List String → Option Nat → Option Nat → Prop
  | nothing {seen : Nat} : GoesOnOffsets seen [] none none
  | start {word : String} {n : Nat} {rest : List String} {endOffset : Option Nat}
    (h : IsOffset word n) (hrest : GoesOnOffsets 1 rest none endOffset) :
    GoesOnOffsets 0 (word :: rest) (some n) endOffset
  | stop {word : String} {n : Nat} (h : IsOffset word n) :
    GoesOnOffsets 1 [word] none (some n)

/-- Words about lines that begin say one of four things. -/
theorem goesOnLines_zero_iff :
    GoesOnLines 0 words startLine endLine ↔ LineBounds words startLine endLine := by
  constructor
  · intro h
    cases h with
    | nothing => exact .nothing
    | first hfirst hrest =>
      cases hrest with
      | nothing => exact .first hfirst
      | last hlast => exact .last hfirst hlast
      | count hcount => exact .count hfirst hcount
  · intro h
    cases h with
    | nothing => exact .nothing
    | first hfirst => exact .first hfirst .nothing
    | last hfirst hlast => exact .first hfirst (.last hlast)
    | count hfirst hcount => exact .first hfirst (.count hcount)

/-- Words about offsets that begin say one of three things. -/
theorem goesOnOffsets_zero_iff :
    GoesOnOffsets 0 words startOffset endOffset ↔ OffsetBounds words startOffset endOffset := by
  constructor
  · intro h
    cases h with
    | nothing => exact .nothing
    | start hstart hrest =>
      cases hrest with
      | nothing => exact .start hstart
      | stop hstop => exact .stop hstart hstop
  · intro h
    cases h with
    | nothing => exact .nothing
    | start hstart => exact .start hstart .nothing
    | stop hstart hstop => exact .start hstart (.stop hstop)

/-! ## One word -/

variable {lines offsets : Nat}

/-- What becomes of a word about offsets: the first one is where to begin, the second one where to
end. -/
theorem parseBoundsFrom_offset {digits : List Char} (hword : word.toList = '@' :: digits) :
    parseBoundsFrom p lines offsets (word :: rest) = .ok q ↔
      ∃ o, IsOffset word o ∧
        (offsets = 0 ∧ parseBoundsFrom { p with startOffset := o } lines 1 rest = .ok q ∨
          offsets = 1 ∧ parseBoundsFrom { p with endOffset := some o } lines 2 rest = .ok q) := by
  have hoffset : ∀ o, IsOffset word o ↔
      number offsetLimit "Bad offset " word (String.ofList digits) = .ok o := by
    intro o
    rw [number_eq_ok_iff (by decide), String.toList_ofList, IsOffset, hword]
    simp
  simp only [parseBoundsFrom, hword, hoffset]
  cases number offsetLimit "Bad offset " word (String.ofList digits) with
  | error e => simp
  | ok o => match offsets with
    | 0 | 1 | _ + 2 => simp

/-- What becomes of a count of lines: it is the second word about lines. -/
theorem parseBoundsFrom_count {digits : List Char} (hword : word.toList = '+' :: digits) :
    parseBoundsFrom p lines offsets (word :: rest) = .ok q ↔
      ∃ count, IsCount word count ∧ lines = 1 ∧
        parseBoundsFrom { p with endLine := some (.relative count) } 2 offsets rest = .ok q := by
  have hcount : ∀ count, IsCount word count ↔
      number lineLimit "Bad line count " word (String.ofList digits) = .ok count := by
    intro count
    rw [number_eq_ok_iff (by decide), String.toList_ofList, IsCount, hword]
    simp
  simp only [parseBoundsFrom, hword, hcount]
  cases number lineLimit "Bad line count " word (String.ofList digits) with
  | error e => simp
  | ok count => by_cases h : lines = 1 <;> simp [h]

/-- What becomes of a line number: the first one is where to begin, the second one where to end. -/
theorem parseBoundsFrom_line (hoffset : word.toList.head? ≠ some '@')
    (hcount : word.toList.head? ≠ some '+') :
    parseBoundsFrom p lines offsets (word :: rest) = .ok q ↔
      ∃ line, IsLine word line ∧
        (lines = 0 ∧ parseBoundsFrom { p with startLine := some line } 1 offsets rest = .ok q ∨
          lines = 1 ∧
            parseBoundsFrom { p with endLine := some (.absolute line) } 2 offsets rest =
              .ok q) := by
  have hline : ∀ line, IsLine word line ↔
      number lineLimit "Expecting a line number, got " word word = .ok line := by
    intro line
    rw [number_eq_ok_iff (by decide), IsLine]
    refine ⟨fun h => ⟨_, h, .inl rfl⟩, ?_⟩
    rintro ⟨ds, h, heq | heq⟩
    · exact heq ▸ h
    · exact absurd (heq ▸ rfl) hcount
  simp only [parseBoundsFrom, hline]
  split
  · next digits heq => exact absurd (heq ▸ rfl) hoffset
  · next digits heq => exact absurd (heq ▸ rfl) hcount
  · cases number lineLimit "Expecting a line number, got " word word with
    | error e => simp
    | ok line => match lines with
      | 0 | 1 | _ + 2 => simp

/-! ## All words -/

theorem GoesOnLines.startLine_eq_none (h : GoesOnLines (seen + 1) words startLine endLine) :
    startLine = none := by
  cases h <;> rfl

theorem GoesOnLines.eq_nil (h : GoesOnLines 2 words startLine endLine) :
    words = [] ∧ endLine = none := by
  cases h
  exact ⟨rfl, rfl⟩

theorem GoesOnOffsets.startOffset_eq_none
    (h : GoesOnOffsets (seen + 1) words startOffset endOffset) : startOffset = none := by
  cases h <;> rfl

theorem GoesOnOffsets.eq_nil (h : GoesOnOffsets 2 words startOffset endOffset) :
    words = [] ∧ endOffset = none := by
  cases h
  exact ⟨rfl, rfl⟩

/-- The words of each kind say something, after so many of the kind, and the policy has the bounds
that they give. -/
def SetsBounds (p : ListingPolicy) (lines offsets : Nat) (words : List String)
    (q : ListingPolicy) : Prop :=
  ∃ startLine endLine startOffset endOffset,
    GoesOnLines lines (lineWords words) startLine endLine ∧
      GoesOnOffsets offsets (offsetWords words) startOffset endOffset ∧
      q = p.withBounds startLine endLine startOffset endOffset

/-- No words set no bounds. -/
theorem setsBounds_nil : SetsBounds p lines offsets [] q ↔ q = p := by
  constructor
  · rintro ⟨_, _, _, _, hlines, hoffsets, rfl⟩
    cases hlines
    cases hoffsets
    rfl
  · rintro rfl
    exact ⟨none, none, none, none, .nothing, .nothing, rfl⟩

/-- A word about offsets leaves those about lines alone. -/
theorem setsBounds_offset (hword : word.toList.head? = some '@') :
    SetsBounds p lines offsets (word :: rest) q ↔
      ∃ o, IsOffset word o ∧
        (offsets = 0 ∧ SetsBounds { p with startOffset := o } lines 1 rest q ∨
          offsets = 1 ∧ SetsBounds { p with endOffset := some o } lines 2 rest q) := by
  have hlineWords : lineWords (word :: rest) = lineWords rest :=
    List.filter_cons_of_neg (by simp [isAboutOffsets, hword])
  have hoffsetWords : offsetWords (word :: rest) = word :: offsetWords rest :=
    List.filter_cons_of_pos (by simp [isAboutOffsets, hword])
  unfold SetsBounds
  rw [hlineWords, hoffsetWords]
  generalize offsetWords rest = ws
  constructor
  · rintro ⟨startLine, endLine, _, _, hlines, hoffsets, rfl⟩
    cases hoffsets with
    | start ho hrest => exact ⟨_, ho, .inl ⟨rfl, _, _, _, _, hlines, hrest, rfl⟩⟩
    | stop ho => exact ⟨_, ho, .inr ⟨rfl, _, _, _, _, hlines, .nothing, rfl⟩⟩
  · rintro ⟨o, ho, ⟨rfl, startLine, endLine, _, _, hlines, hoffsets, rfl⟩ |
      ⟨rfl, startLine, endLine, _, _, hlines, hoffsets, rfl⟩⟩
    · cases hoffsets.startOffset_eq_none
      exact ⟨_, _, _, _, hlines, .start ho hoffsets, rfl⟩
    · cases hoffsets.startOffset_eq_none
      obtain ⟨rfl, rfl⟩ := hoffsets.eq_nil
      exact ⟨_, _, _, _, hlines, .stop ho, rfl⟩

/-- A word about lines leaves those about offsets alone. -/
theorem setsBounds_line (hword : word.toList.head? ≠ some '@') :
    SetsBounds p lines offsets (word :: rest) q ↔
      (∃ line, IsLine word line ∧
        (lines = 0 ∧ SetsBounds { p with startLine := some line } 1 offsets rest q ∨
          lines = 1 ∧ SetsBounds { p with endLine := some (.absolute line) } 2 offsets rest q)) ∨
      ∃ count, IsCount word count ∧ lines = 1 ∧
        SetsBounds { p with endLine := some (.relative count) } 2 offsets rest q := by
  have hlineWords : lineWords (word :: rest) = word :: lineWords rest :=
    List.filter_cons_of_pos (by simp [isAboutOffsets, hword])
  have hoffsetWords : offsetWords (word :: rest) = offsetWords rest :=
    List.filter_cons_of_neg (by simp [isAboutOffsets, hword])
  unfold SetsBounds
  rw [hlineWords, hoffsetWords]
  generalize lineWords rest = ws
  constructor
  · rintro ⟨_, _, startOffset, endOffset, hlines, hoffsets, rfl⟩
    cases hlines with
    | first hl hrest => exact .inl ⟨_, hl, .inl ⟨rfl, _, _, _, _, hrest, hoffsets, rfl⟩⟩
    | last hl => exact .inl ⟨_, hl, .inr ⟨rfl, _, _, _, _, .nothing, hoffsets, rfl⟩⟩
    | count hc => exact .inr ⟨_, hc, rfl, _, _, _, _, .nothing, hoffsets, rfl⟩
  · rintro (⟨line, hl, ⟨rfl, _, _, _, _, hlines, hoffsets, rfl⟩ |
      ⟨rfl, _, _, _, _, hlines, hoffsets, rfl⟩⟩ |
      ⟨count, hc, rfl, _, _, _, _, hlines, hoffsets, rfl⟩)
    · cases hlines.startLine_eq_none
      exact ⟨_, _, _, _, .first hl hlines, hoffsets, rfl⟩
    · cases hlines.startLine_eq_none
      obtain ⟨rfl, rfl⟩ := hlines.eq_nil
      exact ⟨_, _, _, _, .last hl, hoffsets, rfl⟩
    · cases hlines.startLine_eq_none
      obtain ⟨rfl, rfl⟩ := hlines.eq_nil
      exact ⟨_, _, _, _, .count hc, hoffsets, rfl⟩

/-- Words are understood exactly if those of the two kinds are, each kind by itself. -/
theorem parseBoundsFrom_eq_ok_iff :
    parseBoundsFrom p lines offsets words = .ok q ↔ SetsBounds p lines offsets words q := by
  induction words generalizing p lines offsets with
  | nil =>
    rw [setsBounds_nil, parseBoundsFrom, Except.ok.injEq, eq_comm]
  | cons word rest ih =>
    by_cases hoffset : word.toList.head? = some '@'
    · obtain ⟨digits, hword⟩ := List.head?_eq_some_iff.1 hoffset
      simp only [parseBoundsFrom_offset hword, setsBounds_offset hoffset, ih]
    · rw [setsBounds_line hoffset]
      by_cases hcount : word.toList.head? = some '+'
      · obtain ⟨digits, hword⟩ := List.head?_eq_some_iff.1 hcount
        have hnoline : ∀ n, ¬IsLine word n := fun n h => h.head?_ne_plus hcount
        simp only [parseBoundsFrom_count hword, ih, hnoline, false_and, exists_const, false_or]
      · have hnocount : ∀ n, ¬IsCount word n := by
          rintro n ⟨cs, hword, -⟩
          exact hcount (hword ▸ rfl)
        simp only [parseBoundsFrom_line hoffset hcount, ih, hnocount, false_and, exists_const,
          or_false]

/-- Words are understood exactly if those about lines are nothing, `FIRST`, `FIRST LAST` or
`FIRST +COUNT`, and those about offsets nothing, `@START` or `@START @END`; then the policy has the
bounds that they give, and is as it was otherwise. -/
theorem parseBounds_eq_ok_iff :
    parseBounds p words = .ok q ↔
      ∃ startLine endLine startOffset endOffset,
        LineBounds (lineWords words) startLine endLine ∧
          OffsetBounds (offsetWords words) startOffset endOffset ∧
          q = p.withBounds startLine endLine startOffset endOffset := by
  simp only [parseBounds, parseBoundsFrom_eq_ok_iff, SetsBounds, goesOnLines_zero_iff,
    goesOnOffsets_zero_iff]

/-- Only the words of each kind and their order matter. -/
theorem parseBounds_eq_ok_of_words {words' : List String} (h : parseBounds p words = .ok q)
    (hlines : lineWords words' = lineWords words)
    (hoffsets : offsetWords words' = offsetWords words) : parseBounds p words' = .ok q := by
  rw [parseBounds_eq_ok_iff] at h ⊢
  rwa [hlines, hoffsets]

/-- Words with those about lines first have the same words of each kind. -/
theorem words_in_order (words : List String) :
    lineWords (lineWords words ++ offsetWords words) = lineWords words ∧
      offsetWords (lineWords words ++ offsetWords words) = offsetWords words := by
  simp [lineWords, offsetWords, List.filter_append, List.filter_filter]

/-- Words about lines and about offsets may stand in any order between each other. They are
understood exactly if those about lines are nothing, `FIRST`, `FIRST LAST` or `FIRST +COUNT` and
those about offsets nothing, `@START` or `@START @END`, with numbers that are read. Then the policy
has these bounds and is as it was otherwise; so it is the one of any words that are the same of each
kind, those in which the words about lines come first among them. -/
theorem parseBounds_interleaved (p : ListingPolicy) (words : List String) :
    ((∃ q, parseBounds p words = .ok q) ↔
        (∃ startLine endLine, LineBounds (lineWords words) startLine endLine) ∧
          ∃ startOffset endOffset, OffsetBounds (offsetWords words) startOffset endOffset) ∧
      (∀ startLine endLine startOffset endOffset,
        LineBounds (lineWords words) startLine endLine →
        OffsetBounds (offsetWords words) startOffset endOffset →
          parseBounds p words =
            .ok (p.withBounds startLine endLine startOffset endOffset)) ∧
      ∀ q, parseBounds p words = .ok q →
        parseBounds p (lineWords words ++ offsetWords words) = .ok q ∧
          ∀ words', lineWords words' = lineWords words → offsetWords words' = offsetWords words →
            parseBounds p words' = .ok q := by
  refine ⟨?_, ?_, fun q h => ⟨?_, fun words' => parseBounds_eq_ok_of_words h⟩⟩
  · simp only [parseBounds_eq_ok_iff]
    constructor
    · rintro ⟨q, startLine, endLine, startOffset, endOffset, hlines, hoffsets, -⟩
      exact ⟨⟨_, _, hlines⟩, _, _, hoffsets⟩
    · rintro ⟨⟨startLine, endLine, hlines⟩, startOffset, endOffset, hoffsets⟩
      exact ⟨_, _, _, _, _, hlines, hoffsets, rfl⟩
  · intro startLine endLine startOffset endOffset hlines hoffsets
    exact parseBounds_eq_ok_iff.2 ⟨_, _, _, _, hlines, hoffsets, rfl⟩
  · exact parseBounds_eq_ok_of_words h (words_in_order words).1 (words_in_order words).2

/-- An end offset behind a line count, the words of each kind in their order, with the plus signs
that numbers may have. -/
theorem parseBounds_interleaved_signed :
    parseBounds .unbounded ["@4", "3", "@+10", "++2"] =
        .ok (ListingPolicy.unbounded.withBounds (some 3) (some (.relative 2)) (some 4) (some 10)) ∧
      parseBounds .unbounded ["3", "++2", "@4", "@+10"] =
        .ok (ListingPolicy.unbounded.withBounds (some 3) (some (.relative 2)) (some 4)
          (some 10)) := by
  have hlines : LineBounds ["3", "++2"] (some 3) (some (.relative 2)) :=
    .count (by decide) ⟨['+', '2'], rfl, ['2'], by decide, .inr rfl⟩
  have hoffsets : OffsetBounds ["@4", "@+10"] (some 4) (some 10) :=
    .stop ⟨['4'], rfl, ['4'], by decide, .inl rfl⟩
      ⟨['+', '1', '0'], rfl, ['1', '0'], by decide, .inr rfl⟩
  obtain ⟨-, hset, hordered⟩ := parseBounds_interleaved .unbounded ["@4", "3", "@+10", "++2"]
  have hq := hset _ _ _ _ hlines hoffsets
  exact ⟨hq, (hordered _ hq).1⟩

end Disassemble

end BytecodeDebugger
