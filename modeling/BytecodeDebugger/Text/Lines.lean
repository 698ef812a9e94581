/-!
# Lines of a text

A line ends at a line feed, and a carriage return directly before that line feed belongs to the line
end. The last line needs no line end; a carriage return at the very end of the text is kept.

Main facts: `not_mem_of_mem_lines` (no line holds a line feed) and `stripLineEnd_append_lf` (a line
feed at the end is cut off).
-/

namespace BytecodeDebugger.Text

/-- The line whose characters were collected last first, with one final carriage return dropped. -/
def closeLine : List Char → List Char
  | '\r' :: run => run.reverse
  | run => run.reverse

/-- The lines of a text, given the characters of the line under way, last first. -/
def linesFrom (run : List Char) : List Char → List (List Char)
  | [] => if run.isEmpty then [] else [run.reverse]
  | '\n' :: rest => closeLine run :: linesFrom [] rest
  | c :: rest => linesFrom (c :: run) rest

/-- The lines of a text, without their line ends. -/
def lines (text : String) : List String :=
  (linesFrom [] text.toList).map String.ofList

/-- Only the empty text has no lines. -/
theorem lines_eq_nil_iff {text : String} : lines text = [] ↔ text = "" := by
  have hlines : ∀ run cs : List Char, linesFrom run cs = [] ↔ run = [] ∧ cs = [] := by
    intro run cs
    fun_induction linesFrom run cs <;> simp_all
  rw [lines, List.map_eq_nil_iff, hlines, String.toList_eq_nil_iff]
  exact and_iff_right rfl

/-- The text without one line end at its end. -/
def stripLineEnd (text : String) : String :=
  match text.toList.reverse with
  | '\n' :: run => String.ofList (closeLine run)
  | _ => text

/-- A text that ends in a line feed loses it. -/
theorem stripLineEnd_append_lf {text : String} (h : text.toList.getLast? ≠ some '\r') :
    stripLineEnd (text ++ "\n") = text := by
  have hr : (text ++ "\n").toList.reverse = '\n' :: text.toList.reverse := by simp
  unfold stripLineEnd
  rw [hr]
  simp only
  unfold closeLine
  split
  · next run heq =>
    exfalso
    apply h
    have : text.toList = run.reverse ++ ['\r'] := by
      have := congrArg List.reverse heq
      simpa using this
    simp [this]
  · simp

/-! ## No line holds a line feed -/

/-- What closing a line leaves was collected before. -/
theorem mem_of_mem_closeLine {c : Char} {run : List Char} (h : c ∈ closeLine run) : c ∈ run := by
  unfold closeLine at h
  split at h
  · exact List.mem_cons_of_mem _ (by simpa using h)
  · simpa using h

/-- A line holds no line feed if what was collected before holds none. -/
theorem not_mem_of_mem_linesFrom {run cs l : List Char} (hr : '\n' ∉ run)
    (h : l ∈ linesFrom run cs) : '\n' ∉ l := by
  fun_induction linesFrom run cs with
  | case1 => simp at h
  | case2 run hrun =>
    have : l = run.reverse := by simpa using h
    subst this
    simpa using hr
  | case3 run rest ih =>
    rcases List.mem_cons.1 h with rfl | h
    · exact fun hc => hr (mem_of_mem_closeLine hc)
    · exact ih (by simp) h
  | case4 run c rest hc ih =>
    refine ih ?_ h
    intro hm
    rcases List.mem_cons.1 hm with rfl | hm
    · exact hc rfl
    · exact hr hm

/-- No line holds a line feed. -/
theorem not_mem_of_mem_lines {text l : String} (h : l ∈ lines text) : '\n' ∉ l.toList := by
  obtain ⟨cs, hcs, rfl⟩ := List.mem_map.1 h
  simpa using not_mem_of_mem_linesFrom (by simp) hcs

end BytecodeDebugger.Text
