import BytecodeDebugger.Proofs.Text.Utf8
import BytecodeDebugger.Session.Client
import BytecodeDebugger.Text.Lines
import Mathlib.Tactic.Common

/-!
# The lines of a user

The input of a front end is the bytes of a text. A front end takes it line by line, and what it
takes are the lines of the text, each without the line end characters at its end.

Main facts: `takeLine_flatMap` (bytes are cut where the characters are) and `nextLine_on` (the next
line is the next line of the text).
-/

namespace BytecodeDebugger

/-- What a user answers: the lines of a text, without the line end characters at their ends. -/
def userLines (text : String) : List String := (Text.lines text).map (Text.trimEnd isLineEnd)

/-! ## The first line -/

/-- The characters up to and with the first line feed, and those after it. -/
def cutLine : List Char → List Char × List Char
  | [] => ([], [])
  | c :: rest => if c = '\n' then (['\n'], rest) else (c :: (cutLine rest).1, (cutLine rest).2)

/-- A line feed has a byte of its own, and no other character has that byte. -/
theorem mem_utf8EncodeChar_lineFeed {c : Char} (h : (10 : UInt8) ∈ String.utf8EncodeChar c) :
    c = '\n' := by
  by_cases hc : c.toNat < 128
  · rw [Text.utf8EncodeChar_of_lt hc, List.mem_singleton] at h
    have hcode : c.toNat = 10 := by
      have := congrArg UInt8.toNat h
      rw [UInt8.toNat_ofNat', Nat.mod_eq_of_lt (by omega)] at this
      exact this.symm
    rw [← Char.ofNat_toNat c, hcode]
  · have := Text.le_of_mem_utf8EncodeChar (Nat.le_of_not_lt hc) h
    exact absurd this (by decide)

/-- Bytes that are no line feeds belong to the first line. -/
theorem takeLine_append {front : List UInt8} (h : (10 : UInt8) ∉ front) (rest : List UInt8) :
    takeLine (front ++ rest) = (front ++ (takeLine rest).1, (takeLine rest).2) := by
  induction front with
  | nil => rfl
  | cons b front ih =>
    have hb : b ≠ 10 := fun heq => h (heq ▸ List.mem_cons_self)
    have hfront : (10 : UInt8) ∉ front := fun hmem => h (List.mem_cons_of_mem b hmem)
    rw [List.cons_append, takeLine, if_neg hb, ih hfront]
    rfl

/-- The bytes of a text are cut where its characters are. -/
theorem takeLine_flatMap (cs : List Char) :
    takeLine (cs.flatMap String.utf8EncodeChar) =
      ((cutLine cs).1.flatMap String.utf8EncodeChar,
        (cutLine cs).2.flatMap String.utf8EncodeChar) := by
  induction cs with
  | nil => rfl
  | cons c rest ih =>
    rw [List.flatMap_cons, cutLine]
    by_cases hc : c = '\n'
    · rw [if_pos hc, hc]
      rfl
    · have hbytes : (10 : UInt8) ∉ String.utf8EncodeChar c :=
        fun hmem => hc (mem_utf8EncodeChar_lineFeed hmem)
      rw [if_neg hc, takeLine_append hbytes, ih, List.flatMap_cons]

/-! ## All lines -/

/-- Closing a line cuts off nothing but line end characters. -/
theorem trimEnd_closeLine (run : List Char) :
    Text.trimEnd isLineEnd (String.ofList (Text.closeLine run)) =
      Text.trimEnd isLineEnd (String.ofList (run.reverse ++ ['\n'])) := by
  have hclose : (Text.closeLine run).reverse.dropWhile isLineEnd = run.dropWhile isLineEnd := by
    unfold Text.closeLine
    split
    · rw [List.reverse_reverse]
      rfl
    · rw [List.reverse_reverse]
  rw [Text.trimEnd, Text.trimEnd, String.toList_ofList, String.toList_ofList, hclose,
    List.reverse_append, List.reverse_reverse]
  rfl

/-- The first line is what was collected with the characters up to the first line feed, and the
others are the lines of the characters after it. -/
theorem map_trimEnd_linesFrom {run cs : List Char} (h : run ≠ [] ∨ cs ≠ []) :
    ((Text.linesFrom run cs).map String.ofList).map (Text.trimEnd isLineEnd) =
      Text.trimEnd isLineEnd (String.ofList (run.reverse ++ (cutLine cs).1)) ::
        userLines (String.ofList (cutLine cs).2) := by
  -- the induction is on how lines are collected, and what was collected only grows in front
  fun_induction Text.linesFrom run cs with
  | case1 run hrun =>
    rw [List.isEmpty_iff] at hrun
    exact absurd rfl (h.resolve_left (fun hne => hne hrun))
  | case2 run hrun =>
    rw [cutLine, List.append_nil]
    rfl
  | case3 run rest ih =>
    rw [cutLine, if_pos rfl, userLines, Text.lines, String.toList_ofList, ← trimEnd_closeLine]
    rfl
  | case4 run c rest hc ih =>
    have hne : c ≠ '\n' := hc
    rw [cutLine, if_neg hne, ih (.inl (List.cons_ne_nil c run)), List.reverse_cons,
      List.append_assoc]
    rfl

/-- The first line of a text with a character, and the text behind it. -/
theorem userLines_ofList {cs : List Char} (h : cs ≠ []) :
    userLines (String.ofList cs) =
      Text.trimEnd isLineEnd (String.ofList (cutLine cs).1) ::
        userLines (String.ofList (cutLine cs).2) := by
  have hlines := map_trimEnd_linesFrom (Or.inr h : ([] : List Char) ≠ [] ∨ cs ≠ [])
  rw [userLines, Text.lines, String.toList_ofList, hlines]
  rfl

/-- A line without line end characters at its end has no line end to lose. -/
theorem stripLineEnd_trimEnd (text : String) :
    Text.stripLineEnd (Text.trimEnd isLineEnd text) = Text.trimEnd isLineEnd text := by
  have hrev : (Text.trimEnd isLineEnd text).toList.reverse =
      text.toList.reverse.dropWhile isLineEnd := by
    rw [Text.trimEnd, String.toList_ofList, List.reverse_reverse]
  have hhead := List.head?_dropWhile_not isLineEnd text.toList.reverse
  rw [← hrev] at hhead
  unfold Text.stripLineEnd
  split
  · next run heq =>
    rw [heq] at hhead
    have hhead : isLineEnd '\n' = false := hhead
    exact absurd hhead (by decide)
  · rfl

/-- What a user answers has no line end. -/
theorem stripLineEnd_of_mem_userLines {text line : String} (h : line ∈ userLines text) :
    Text.stripLineEnd line = line := by
  obtain ⟨l, -, rfl⟩ := List.mem_map.1 h
  exact stripLineEnd_trimEnd l

/-! ## Taking lines -/

namespace Client

variable {τ : Type}

/-- A line is taken from an input that is not at its end. -/
theorem nextLine_of_takeLine {c : Client τ} {line rest : List UInt8} {text : String}
    (htake : takeLine c.input = (line, rest)) (hne : line ≠ [])
    (htext : Text.ofUtf8? line = some text) :
    nextLine.on c = (.ok (some (Text.trimEnd isLineEnd text)), { c with input := rest }) := by
  rw [nextLine, Action.on_of, htake]
  cases line with
  | nil => exact absurd rfl hne
  | cons b line => simp only [htext]

/-- A front end with the bytes of a text as its input takes the first line of the text, or finds the
end of the input if there is none, and is left with the bytes of a text that has the other lines. -/
theorem nextLine_on {c : Client τ} {text : String} (h : c.input = Text.utf8Bytes text) :
    ∃ rest, nextLine.on c = (.ok (userLines text).head?, { c with input := Text.utf8Bytes rest }) ∧
      userLines rest = (userLines text).tail := by
  cases hcs : text.toList with
  | nil =>
    have htext : text = "" := by rw [← String.ofList_toList (s := text), hcs]
    subst htext
    have hinput : c.input = [] := h
    refine ⟨"", ?_, rfl⟩
    rw [nextLine, Action.on_of, hinput, ← h]
    rfl
  | cons d ds =>
    have htake := takeLine_flatMap (d :: ds)
    rw [← hcs, ← Text.utf8Bytes_eq_flatMap, ← h, hcs, ← Text.utf8Bytes_ofList,
      ← Text.utf8Bytes_ofList] at htake
    have hlines : userLines text = Text.trimEnd isLineEnd (String.ofList (cutLine (d :: ds)).1) ::
        userLines (String.ofList (cutLine (d :: ds)).2) := by
      rw [← userLines_ofList (List.cons_ne_nil d ds), ← hcs, String.ofList_toList]
    -- an empty line would be taken for the end of the input
    have hne : Text.utf8Bytes (String.ofList (cutLine (d :: ds)).1) ≠ [] := by
      obtain ⟨line, hline⟩ : ∃ line, (cutLine (d :: ds)).1 = d :: line := by
        rw [cutLine]
        split
        · next hd => exact ⟨[], by rw [hd]⟩
        · exact ⟨_, rfl⟩
      rw [hline, Text.utf8Bytes_ofList, List.flatMap_cons]
      exact List.append_ne_nil_of_left_ne_nil String.utf8EncodeChar_ne_nil _
    refine ⟨String.ofList (cutLine (d :: ds)).2, ?_, by rw [hlines]; rfl⟩
    rw [nextLine_of_takeLine htake hne (Text.ofUtf8?_utf8Bytes _), hlines]
    rfl

end Client

end BytecodeDebugger
