import BytecodeDebugger.Listing.Source
import Mathlib.Tactic.Common

/-!
# Pages of a source file

The lines of a file are numbered from one. A listing of lines of a known file writes a row for each
of them, in order, and comes to the last one of them; what is asked for beyond the file is cut off,
and the listing says so. Pages of equal length, one after the other, are the file from the first
line of the first page on.

Main facts: `renderSource_of_texts` (what a listing writes and comes to) and `flatMap_page`.
-/

namespace BytecodeDebugger

/-- The lines of a file with their numbers. -/
def numbered (texts : List String) : List (String × Nat) := texts.zipIdx 1

/-- So many lines of a file from a line on, with their numbers; fewer if the file ends before. -/
def page (texts : List String) (first count : Nat) : List (String × Nat) :=
  ((numbered texts).drop (first - 1)).take count

/-- The numbers on a page are the ones from its first line on. -/
theorem map_snd_page (texts : List String) {first : Nat} (hfirst : 1 ≤ first) (count : Nat) :
    (page texts first count).map (·.2) =
      List.range' first (min count (texts.length + 1 - first)) := by
  have hnumbers : (numbered texts).map (·.2) = List.range' 1 texts.length :=
    List.zipIdx_map_snd 1 texts
  have hlength : texts.length - (first - 1) = texts.length + 1 - first := by omega
  have hstart : 1 + (first - 1) * 1 = first := by omega
  rw [page, List.map_take, List.map_drop, hnumbers, List.drop_range', hlength, hstart]
  rcases Nat.le_total count (texts.length + 1 - first) with hle | hge
  · rw [List.take_range'_of_length_ge hle, Nat.min_eq_left hle]
  · rw [List.take_range'_of_length_le hge, Nat.min_eq_right hge]

/-- The lines on a page are lines of the file. -/
theorem getElem?_of_mem_page {texts : List String} {first count line : Nat} {text : String}
    (h : (text, line) ∈ page texts first count) : texts[line - 1]? = some text := by
  have hmem : (text, line) ∈ texts.zipIdx 1 := List.mem_of_mem_drop (List.mem_of_mem_take h)
  obtain ⟨hline, hget⟩ := List.mk_mem_zipIdx_iff_le_and_getElem?_sub.1 hmem
  exact hget

/-- A page is a shorter one and the rest of it. -/
theorem page_add (texts : List String) {first : Nat} (hfirst : 1 ≤ first) (count more : Nat) :
    page texts first (count + more) =
      page texts first count ++ page texts (first + count) more := by
  have hstart : first + count - 1 = first - 1 + count := by omega
  rw [page, page, page, List.take_add, List.drop_drop, hstart]

/-- Nothing is on a page that is not in the file. -/
theorem page_min (texts : List String) {first : Nat} (hfirst : 1 ≤ first) (count : Nat) :
    page texts first (min count (texts.length + 1 - first)) = page texts first count := by
  rcases Nat.le_total count (texts.length + 1 - first) with hle | hge
  · rw [Nat.min_eq_left hle]
  · have hdrop : ((numbered texts).drop (first - 1)).length = texts.length + 1 - first := by
      simp only [numbered, List.length_drop, List.length_zipIdx]
      omega
    rw [Nat.min_eq_right hge, page, page, List.take_of_length_le (Nat.le_of_eq hdrop),
      List.take_of_length_le (hdrop ▸ hge)]

/-- Nothing is on a page behind the last line. -/
theorem page_of_length_lt {texts : List String} {first : Nat} (h : texts.length < first)
    (count : Nat) : page texts first count = [] := by
  have hnone : texts.length + 1 - first = 0 := by omega
  rw [← page_min texts (Nat.one_le_of_lt h) count, hnone, Nat.min_zero]
  rfl

/-- Pages of equal length, one after the other. -/
theorem flatMap_page (texts : List String) {first : Nat} (hfirst : 1 ≤ first) (size pages : Nat) :
    ((List.range pages).flatMap fun j => page texts (first + j * size) size) =
      page texts first (pages * size) := by
  induction pages with
  | zero => simp [page]
  | succ pages ih =>
    rw [List.range_succ, List.flatMap_append, ih, List.flatMap_singleton, Nat.succ_mul,
      page_add texts hfirst]

/-- A page begins with its first line, if the file has that line. -/
theorem page_succ {texts : List String} {first : Nat} {text : String} (hfirst : 1 ≤ first)
    (htext : texts[first - 1]? = some text) (count : Nat) :
    page texts first (count + 1) = (text, first) :: page texts (first + 1) count := by
  obtain ⟨n, rfl⟩ := Nat.exists_eq_add_of_le' hfirst
  obtain ⟨hlt, hget⟩ := List.getElem?_eq_some_iff.1 htext
  have hdrop : (numbered texts).drop n = (text, n + 1) :: (numbered texts).drop (n + 1) := by
    rw [List.drop_eq_getElem_cons (by simpa [numbered] using hlt)]
    simp [numbered, ← hget, Nat.add_comm]
  simp only [page, Nat.add_sub_cancel]
  rw [hdrop, List.take_succ_cons]

/-! ## Listings -/

/-- The rows of numbered lines. -/
def sourceLines (c : SourceContext) (canonical : String) (style : HighlightStyle)
    (lines : List (String × Nat)) : List Write :=
  lines.map fun l => .line (sourceRow c canonical style l.2 l.1)

/-- What is said when the lines asked for go beyond the file. -/
def cutNotice (count : Nat) : Write :=
  .line ("End position changed to last line " ++ toString count ++ " ")

variable {c : SourceContext} {s : SourceTexts} {filename : String} {texts : List String}

/-- A line of a known file. -/
theorem SourceTexts.line?_of_find? (hfind : s.find? filename = some texts) {line : Nat}
    (hline : 1 ≤ line) : s.line? filename line = texts[line - 1]? := by
  obtain ⟨n, rfl⟩ := Nat.exists_eq_add_of_le' hline
  rw [SourceTexts.line?, hfind]
  rfl

/-- A known file has as many lines as its text, if these can be counted. -/
theorem lineCount_of_find? (hsources : c.sources = s.provider)
    (hfind : s.find? filename = some texts) (hlength : texts.length < Text.lineLimit) :
    c.sources.lineCount filename = some texts.length := by
  rw [hsources]
  show (s.find? filename).map _ = _
  rw [hfind, Option.map_some, Nat.mod_eq_of_lt hlength]

/-- Lines of a known file are listed with a row for each of them. -/
theorem sourceRows_of_texts (style : HighlightStyle) (hsources : c.sources = s.provider)
    (hfind : s.find? filename = some texts) (shown : Option Nat) {line count : Nat}
    (hline : 1 ≤ line) (hcount : line + count ≤ texts.length + 1) :
    sourceRows c filename style shown line count =
      ⟨sourceLines c filename style (page texts line count),
        .ok (if count = 0 then shown else some (line + count - 1))⟩ := by
  induction count generalizing line shown with
  | zero => simp [sourceRows, page, sourceLines, Listing.result]
  | succ count ih =>
    have hlt : line - 1 < texts.length := by omega
    have htext : texts[line - 1]? = some texts[line - 1] := List.getElem?_eq_getElem hlt
    have hsource : c.sources.line filename line = some texts[line - 1] := by
      rw [hsources]
      exact (SourceTexts.line?_of_find? hfind hline).trans htext
    have hcanonical : c.sources.canonicalName filename = filename := by rw [hsources]; rfl
    have hrest := ih (some line) (Nat.le_add_left 1 line) (by omega)
    rw [sourceRows, hsource, hcanonical]
    dsimp only
    rw [hrest, page_succ hline htext]
    have hlast : (if count = 0 then some line else some (line + 1 + count - 1)) =
        some (line + (count + 1) - 1) := by
      split
      · next hzero => rw [hzero, Nat.add_sub_cancel]
      · rw [Nat.add_right_comm, Nat.add_assoc]
    rw [hlast, if_neg (Nat.succ_ne_zero count)]
    rfl

/-- What a listing of lines of a known file writes, and what it comes to: the lines of the file from
the first one on, and the last one of them. -/
theorem renderSource_of_texts (style : HighlightStyle) (hsources : c.sources = s.provider)
    (hfind : s.find? filename = some texts) (hlength : texts.length < Text.lineLimit)
    {first last : Nat} (hfirst : 1 ≤ first) (hle : first ≤ texts.length) (hlast : first ≤ last) :
    renderSource ⟨filename, first, last⟩ c style =
      ⟨(if texts.length < last then [cutNotice texts.length] else []) ++
          sourceLines c filename style (page texts first (last + 1 - first)),
        .ok (some (min last texts.length))⟩ := by
  have hcount := lineCount_of_find? hsources hfind hlength
  have hmax : Nat.max first 1 = first := Nat.max_eq_left hfirst
  -- what is cut off lies beyond the file, so the page is the same without it
  have hpage : page texts first (min last texts.length + 1 - first) =
      page texts first (last + 1 - first) := by
    rw [← page_min texts hfirst (last + 1 - first)]
    congr 1
    omega
  have hrows := sourceRows_of_texts style hsources hfind none hfirst
    (show first + (min last texts.length + 1 - first) ≤ texts.length + 1 by omega)
  have hnonempty : min last texts.length + 1 - first ≠ 0 := by omega
  have hend : first + (min last texts.length + 1 - first) - 1 = min last texts.length := by omega
  rw [if_neg hnonempty, hend, hpage] at hrows
  unfold renderSource
  simp only [hcount]
  rw [if_neg (Nat.not_lt.2 hle), hmax, hrows]
  rfl

/-- A listing that begins beyond a known file fails. -/
theorem renderSource_of_length_lt (style : HighlightStyle) (hsources : c.sources = s.provider)
    (hfind : s.find? filename = some texts) (hlength : texts.length < Text.lineLimit)
    {first : Nat} (hlt : texts.length < first) (last : Nat) :
    renderSource ⟨filename, first, last⟩ c style =
      .failed (.sourceLineOutOfRange first filename texts.length) := by
  unfold renderSource
  simp only [lineCount_of_find? hsources hfind hlength]
  rw [if_pos hlt]

end BytecodeDebugger
