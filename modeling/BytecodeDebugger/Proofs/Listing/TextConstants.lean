import BytecodeDebugger.Opcode.Builtin
import BytecodeDebugger.Proofs.Code.Quotation
import BytecodeDebugger.Proofs.Decode.Windows
import BytecodeDebugger.Proofs.Listing.Rows

/-!
# Text constants in a listing

The row of an instruction that refers to a constant ends with what that is shown as, between
parentheses and in the colours of the style, whatever the names in front of it are. If it is a text,
no row of another constant looks like it.

Main facts: `exists_toList_rowText` (how such a row ends), `Loads.eq_str_of_rowText_eq` and
`text_constants_shown_without_loss`.
-/

namespace BytecodeDebugger

open Quotation

variable {i j : Instruction} {style : HighlightStyle}

/-! ## References to constants -/

/-- Whether the instruction is one of the stream and its operand refers to the constant. -/
structure Disassembly.Loads (d : Disassembly) (i : Instruction) (c : Constant) : Prop where
  mem : i ∈ d.instructions.items
  kind : d.table.kind i.opcode = .constIndex
  operand : ∃ v, i.operandValue = some v ∧ d.code.consts[v]? = some c

namespace Disassembly

variable {d d' : Disassembly} {c : Constant} {s : String}

/-- An operand that refers to a constant is resolved to what the constant is shown as. -/
theorem Loads.resolvedOperand_eq (h : d.Loads i c) :
    i.resolvedOperand = some (.constant c.shown) := by
  obtain ⟨v, hvalue, hconst⟩ := h.operand
  obtain ⟨front, step, back, r, -, hr, rfl⟩ := exists_split_of_mem_decode h.mem
  have hstep : step.value = some v := hvalue
  have hkind : d.table.kind step.opcode = .constIndex := h.kind
  rw [reference, hstep] at hr
  dsimp only at hr
  rw [hkind, resolveOperand, pickOperand, List.getElem?_map, hconst] at hr
  exact (Except.ok.inj hr).symm

end Disassembly

/-! ## Ends of rows -/

/-- What the row of an instruction adds to the output. -/
def rowText (i : Instruction) (style : HighlightStyle) : String :=
  String.join ((rowWrites i style).map Write.text)

/-- A style puts the same escape sequences around all tokens of a kind. What comes before a token
does not end with a backslash. -/
theorem exists_around_highlight (k : TokenKind) (style : HighlightStyle) :
    ∃ before after : List Char, (∀ front : List Char, ¬IsEscaped (front ++ '(' :: before)) ∧
      ∀ text, (highlight k text style).toList = before ++ text.toList ++ after := by
  cases hcolour : k.colour? style with
  | none =>
    refine ⟨[], [], fun front => ?_, fun text => ?_⟩
    · rw [isEscaped_concat]
      exact fun h => absurd h.1 (by decide)
    · simp [highlight, hcolour]
  | some parameters =>
    refine ⟨(escapeSequence parameters).toList, (escapeSequence "0").toList, fun front => ?_,
      fun text => ?_⟩
    · have hend : '(' :: (escapeSequence parameters).toList =
          ('(' :: '\x1b' :: '[' :: parameters.toList) ++ ['m'] := by
        simp [escapeSequence]
      rw [hend, ← List.append_assoc, isEscaped_concat]
      exact fun h => absurd h.1 (by decide)
    · rw [highlight_eq text hcolour, String.toList_append, String.toList_append]

/-- The row of an instruction that refers to a constant ends with the constant and with characters
that only the style decides. -/
theorem exists_toList_rowText (style : HighlightStyle) :
    ∃ after : List Char, ∀ i v text, i.operandValue = some v →
      i.resolvedOperand = some (.constant text) →
      ∃ front, ¬IsEscaped front ∧ (rowText i style).toList = front ++ text.toList ++ after := by
  obtain ⟨before, after, hbefore, hhighlight⟩ := exists_around_highlight .constant style
  refine ⟨after ++ [')', '\n'], fun i v text hvalue hresolved => ?_⟩
  -- the columns in front of the parenthesis
  let columns : String := gutter i style ++ Text.padLeft 4 (toString i.offset) ++ " " ++
    highlight .opcode (Text.padRight 20 i.name) style ++ Text.padLeft 5 (toString v) ++ " "
  refine ⟨columns.toList ++ '(' :: before, hbefore columns.toList, ?_⟩
  simp [columns, rowText, rowWrites, Write.text, rowBody, hvalue, hresolved, operandText,
    hhighlight]

/-- A row that shows a text constant shows no other constant, whatever else is in it. -/
theorem Disassembly.Loads.eq_str_of_rowText_eq {d d' : Disassembly} {c : Constant} {s : String}
    (hi : d.Loads i (.str s)) (hj : d'.Loads j c) (h : rowText i style = rowText j style) :
    c = .str s := by
  obtain ⟨after, hrow⟩ := exists_toList_rowText style
  obtain ⟨v, hv, -⟩ := hi.operand
  obtain ⟨w, hw, -⟩ := hj.operand
  obtain ⟨front, hfront, hi⟩ := hrow i v _ hv hi.resolvedOperand_eq
  obtain ⟨back, hback, hj⟩ := hrow j w _ hw hj.resolvedOperand_eq
  rw [h, hj] at hi
  exact Constant.eq_str_of_append_shown (List.append_cancel_right hi).symm hfront hback

/-- What a text constant is shown as holds no line feed, carriage return or tab. It begins and ends
with a quote; the quotes in between, and only these, are escaped. The text is read back from it, and
from nothing else. So no other constant is shown alike, and no row of another constant looks like a
row that shows the text. -/
theorem text_constants_shown_without_loss (s : String) :
    (∀ c ∈ (Constant.str s).shown.toList, c ≠ '\n' ∧ c ≠ '\r' ∧ c ≠ '\t') ∧
      (∃ inner, (Constant.str s).shown.toList = '\'' :: inner ++ ['\'']) ∧
      (∀ front back, (Constant.str s).shown.toList = front ++ '\'' :: back →
        (IsEscaped front ↔ front ≠ [] ∧ back ≠ [])) ∧
      (∀ text, unquote? text = some s ↔ text = (Constant.str s).shown) ∧
      (∀ c : Constant, c.shown = (Constant.str s).shown → c = .str s) ∧
      ∀ (d d' : Disassembly) (i j : Instruction) (c : Constant) (style : HighlightStyle),
        d.Loads i (.str s) → d'.Loads j c → rowText i style = rowText j style → c = .str s := by
  rw [Constant.toList_shown_str]
  refine ⟨fun _ => ne_control_of_mem_quotedChars, ⟨_, rfl⟩, fun _ _ => isEscaped_iff_between,
    fun text => ?_, fun _ => Constant.eq_str_of_shown_eq,
    fun _ _ _ _ _ _ hi hj => hi.eq_str_of_rowText_eq hj⟩
  rw [unquote?_eq_some_iff, ← Constant.toList_shown_str, String.toList_inj]

/-- A stream that loads three texts: a line feed, a backslash and an `n`, and a quote. -/
def threeTexts : Disassembly where
  code := { CodeObject.empty with
    code := [100, 0, 0, 100, 1, 0, 100, 2, 0]
    consts := [.str "\n", .str "\\n", .str "'"] }
  table := RuntimeVersion.classic.table
  current := none

/-- The instruction of `threeTexts` that loads the constant at an index, shown as given. -/
def loadOf (index : Nat) (shownText : String) : Instruction :=
  ⟨3 * index, 3, 100, "LOAD_CONST", some index, some (.constant shownText), none, false, false,
    false⟩

/-- A line feed is shown with a backslash and an `n`, and told from these two characters. -/
theorem text_constants_shown_without_loss_lineFeed :
    threeTexts.Loads (loadOf 0 "'\\n'") (.str "\n") ∧
      threeTexts.Loads (loadOf 1 "'\\\\n'") (.str "\\n") ∧
      threeTexts.Loads (loadOf 2 "'\\''") (.str "'") ∧
      rowText (loadOf 0 "'\\n'") .plain = "           0 LOAD_CONST              0 ('\\n')\n" ∧
      rowText (loadOf 1 "'\\\\n'") .plain =
        "           3 LOAD_CONST              1 ('\\\\n')\n" ∧
      unquote? "'\\n'" = some "\n" ∧
      (∀ style, rowText (loadOf 0 "'\\n'") style ≠ rowText (loadOf 1 "'\\\\n'") style) ∧
      Constant.none.shown ≠ (Constant.str "None").shown ∧
      (IsEscaped ['\'', '\\'] ∧ ¬IsEscaped ['\'', '\\', '\'']) := by
  have hfeed : threeTexts.Loads (loadOf 0 "'\\n'") (.str "\n") :=
    ⟨by decide +kernel, by decide +kernel, 0, rfl, rfl⟩
  have hslash : threeTexts.Loads (loadOf 1 "'\\\\n'") (.str "\\n") :=
    ⟨by decide +kernel, by decide +kernel, 1, rfl, rfl⟩
  have hquote : threeTexts.Loads (loadOf 2 "'\\''") (.str "'") :=
    ⟨by decide +kernel, by decide +kernel, 2, rfl, rfl⟩
  obtain ⟨-, -, -, hread, -, hrow⟩ := text_constants_shown_without_loss "\n"
  obtain ⟨-, -, hescaped, -, -, -⟩ := text_constants_shown_without_loss "'"
  obtain ⟨-, -, -, -, hnone, -⟩ := text_constants_shown_without_loss "None"
  refine ⟨hfeed, hslash, hquote, by decide +kernel, by decide +kernel, (hread _).2 (by decide),
    fun style h => ?_, fun h => ?_, ?_, ?_⟩
  · exact absurd (hrow _ _ _ _ _ style hfeed hslash h) (by decide)
  · exact absurd (hnone _ h) (by decide)
  · exact (hescaped _ ['\''] (by decide)).2 ⟨by decide, by decide⟩
  · exact fun h => ((hescaped _ [] (by decide)).1 h).2 rfl

end BytecodeDebugger
