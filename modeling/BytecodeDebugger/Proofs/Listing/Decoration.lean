import BytecodeDebugger.Listing.Source
import BytecodeDebugger.Proofs.Listing.Containers
import BytecodeDebugger.Proofs.Listing.PlainTexts
import Mathlib.Data.List.Forall2

/-!
# Highlighting is only decoration

A listing in colour makes the calls of the plain one, and each of its texts decorates the text of
the plain call. Columns are aligned before they are highlighted, so nothing moves; and no bound, no
cap and no failure depends on the style. So on a recording sink, whatever calls it refuses, both
listings come to the same after the same number of calls, and the output of the plain one is left
when the escape sequences are deleted from the other one.

Main facts: `decorates_rowBody`, `decorates_listRows`, `decorates_renderSource` and
`highlighting_only_decorates`.
-/

namespace BytecodeDebugger

open Text (Decorates)

variable {ρ τ : Type}

/-! ## Calls and listings -/

/-- A call of the same kind, with a text that decorates the other one. -/
inductive Write.Decorates : Write → Write → Prop
  | fragment {text bare : String} (h : Text.Decorates text bare) :
    Decorates (.fragment text) (.fragment bare)
  | line {text bare : String} (h : Text.Decorates text bare) : Decorates (.line text) (.line bare)

theorem Write.decorates_line {text : String} (h : Text.IsPlain text) :
    Write.Decorates (.line text) (.line text) := .line h.decorates

/-- What a call adds to the output decorates what the other one adds. -/
theorem Write.Decorates.text {w bare : Write} (h : w.Decorates bare) :
    Text.Decorates w.text bare.text := by
  cases h with
  | fragment h => exact h
  | line h => exact h.append (Text.IsPlain.decorates (by decide))

/-- Calls that decorate others, one by one. -/
abbrev DecorateAll : List Write → List Write → Prop := List.Forall₂ Write.Decorates

theorem DecorateAll.append {ws bare ws' bare' : List Write} (h : DecorateAll ws bare)
    (h' : DecorateAll ws' bare') : DecorateAll (ws ++ ws') (bare ++ bare') :=
  List.rel_append h h'

/-- A listing that comes to the same as another one, with calls that decorate those of the other
one. -/
structure Listing.Decorates (l bare : Listing ρ) : Prop where
  writes : DecorateAll l.writes bare.writes
  outcome : l.outcome = bare.outcome

namespace Listing.Decorates

theorem of_writes_eq_nil {l : Listing ρ} (h : l.writes = []) : l.Decorates l :=
  ⟨h ▸ .nil, rfl⟩

theorem after {ws bares : List Write} {l bare : Listing ρ} (hws : DecorateAll ws bares)
    (h : l.Decorates bare) : (l.after ws).Decorates (bare.after bares) :=
  ⟨hws.append h.writes, h.outcome⟩

/-- One listing and then another one. -/
theorem andThen {l bare : Listing ρ} {next nextBare : ρ → Listing τ} (h : l.Decorates bare)
    (hnext : ∀ r, (next r).Decorates (nextBare r)) :
    (l.andThen next).Decorates (bare.andThen nextBare) := by
  unfold Listing.andThen
  rw [h.outcome]
  cases bare.outcome with
  | error e => exact ⟨h.writes, rfl⟩
  | ok r => exact after h.writes (hnext r)

end Listing.Decorates

/-! ## Rows -/

/-- The columns for the line and the markers. -/
theorem decorates_gutter (i : Instruction) (style : HighlightStyle) :
    Decorates (gutter i style) (gutter i .plain) := by
  have hnumber : ∀ l : Nat, Text.IsPlain (Text.padLeft 3 (toString l)) := fun l =>
    (Text.isPlain_toString_nat l).padLeft 3
  unfold gutter
  refine .append (.append ?_ ?_) ?_
  · split
    · exact Text.decorates_highlight (hnumber _) _ _
    · exact Text.IsPlain.decorates (by decide)
  · split
    · exact Text.decorates_highlight (by decide) _ _
    · exact Text.IsPlain.decorates (by decide)
  · split
    · exact Text.decorates_highlight (by decide) _ _
    · exact Text.IsPlain.decorates (by decide)

/-- The column for what an operand refers to. Only the entry of a table is highlighted, but a jump
together with its parentheses. -/
theorem decorates_operandText {o : ResolvedOperand} (h : o.IsPlain) (style : HighlightStyle) :
    Decorates (operandText o style) (operandText o .plain) := by
  have hparens : ∀ (k : TokenKind) {text : String}, Text.IsPlain text →
      Decorates ("(" ++ highlight k text style ++ ")") ("(" ++ highlight k text .plain ++ ")") :=
    fun k _ h => (Decorates.append (Text.IsPlain.decorates (by decide))
      (Text.decorates_highlight h k style)).append (Text.IsPlain.decorates (by decide))
  cases o with
  | constant text => exact hparens .constant h
  | name text => exact hparens .name h
  | localVariable text => exact hparens .variable h
  | compare text => exact hparens .compare h
  | free text => exact (((show Text.IsPlain "(" by decide).append h).append (by decide)).decorates
  | jump offset =>
    have hjump : Text.IsPlain ("(to " ++ toString offset ++ ")") := by
      simp only [Text.isPlain_append, Text.isPlain_toString_nat]
      decide
    exact Text.decorates_highlight hjump .label style

/-- The columns for the offset, the name and the operand. -/
theorem decorates_rowBody {i : Instruction} (h : i.IsPlain) (style : HighlightStyle) :
    Decorates (rowBody i style) (rowBody i .plain) := by
  have hspace : Decorates " " " " := Text.IsPlain.decorates (by decide)
  have hnone : Decorates "" "" := Text.IsPlain.decorates (by decide)
  have hcolumn : ∀ width n : Nat, Decorates (Text.padLeft width (toString n))
      (Text.padLeft width (toString n)) := fun width n =>
    ((Text.isPlain_toString_nat n).padLeft width).decorates
  unfold rowBody
  refine .append (.append (.append (hcolumn 4 _) hspace) ?_) ?_
  · exact Text.decorates_highlight (h.name.padRight 20) .opcode style
  · split
    · exact hnone
    · refine .append (.append (hcolumn 5 _) hspace) ?_
      split
      · exact hnone
      · next o ho => exact decorates_operandText (h.operand o ho) style

theorem decorateAll_rowWrites {i : Instruction} (h : i.IsPlain) (style : HighlightStyle) :
    DecorateAll (rowWrites i style) (rowWrites i .plain) :=
  .cons (.fragment (decorates_gutter i style)) (.cons (.line (decorates_rowBody h style)) .nil)

/-! ## Listings of instructions -/

/-- The policy without colours. -/
def ListingPolicy.uncoloured (p : ListingPolicy) : ListingPolicy := { p with highlight := .plain }

/-- The rows of instructions. -/
theorem decorates_listRows (p : ListingPolicy) (failure : Option DecodeError)
    (summary : ListingSummary) {is : List Instruction} (h : ∀ i ∈ is, i.IsPlain) :
    (listRows p failure summary is).Decorates (listRows p.uncoloured failure summary is) := by
  induction is generalizing summary with
  | nil => cases failure <;> exact .of_writes_eq_nil rfl
  | cons i rest ih =>
    have hrow := decorateAll_rowWrites (h i List.mem_cons_self) p.highlight
    have hrest := fun summary => ih summary fun j hj => h j (List.mem_cons_of_mem i hj)
    -- neither the bounds nor the cap of a policy have to do with its style
    have hends : p.uncoloured.endsBefore i = p.endsBefore i := rfl
    have hbegun : p.uncoloured.hasBegun i = p.hasBegun i := rfl
    have hfull : p.uncoloured.isFull summary = p.isFull summary := rfl
    unfold listRows
    rw [hends, hbegun, hfull]
    split
    · exact .of_writes_eq_nil rfl
    · split
      · split
        · split
          · exact .of_writes_eq_nil rfl
          · refine .after (.append ?_ hrow) (hrest _)
            split
            · exact .cons (Write.decorates_line (by decide)) .nil
            · exact .nil
        · exact .after hrow (hrest _)
      · exact hrest _

/-- The listing of a code object. -/
theorem decorates_renderListing {d : Disassembly} (p : ListingPolicy) (hcode : d.code.IsPlain)
    (htable : d.table.IsPlain) :
    (renderListing d p).Decorates (renderListing d p.uncoloured) := by
  have hcheck : checkStartLine d.code p.uncoloured = checkStartLine d.code p := rfl
  unfold renderListing
  rw [hcheck]
  split
  · exact .of_writes_eq_nil rfl
  · exact decorates_listRows p _ _ fun i hi => d.isPlain_of_mem_instructions hcode htable hi

/-- The heading of a target. -/
theorem decorates_targetHeading {title : String} (h : Text.IsPlain title) (p : ListingPolicy) :
    (targetHeading title p).Decorates (targetHeading title p.uncoloured) := by
  refine Write.decorates_line (((Text.IsPlain.append ?_ h).append ?_).append ?_)
  · decide
  · decide
  · exact p.isPlain_describeBounds

/-- The calls that list one member of a container. -/
theorem decorateAll_memberWrites {table : OpcodeTable} (p : ListingPolicy) {name : String}
    {code : CodeObject} (htable : table.IsPlain) (hname : Text.IsPlain name)
    (hcode : code.IsPlain) :
    DecorateAll (memberWrites table p name code) (memberWrites table p.uncoloured name code) := by
  have hlisting := decorates_renderListing (d := ⟨code, table, none⟩) p hcode htable
  unfold memberWrites
  refine .append (.append hlisting.writes ?_) ?_
  · rw [hlisting.outcome]
    split
    · exact .nil
    · next e he =>
      have hmessage := isPlain_message_of_outcome_renderListing he
      refine .cons (Write.decorates_line ?_) .nil
      refine .append (by decide) (.append (.append (.append (by decide) hname) ?_) hmessage)
      decide
  · exact .cons (Write.decorates_line (by decide)) .nil

/-- The listing of a target. -/
theorem decorates_disassemble {target : Target} {table : OpcodeTable} (p : ListingPolicy)
    (current : Option Nat) (htarget : target.IsPlain) (htable : table.IsPlain) :
    (disassemble target table p current).Decorates
      (disassemble target table p.uncoloured current) := by
  cases target with
  | code unit =>
    have hcheck : checkStartLine unit p.uncoloured = checkStartLine unit p := rfl
    have hunit : unit.IsPlain := htarget
    unfold disassemble
    dsimp only
    rw [hcheck]
    split
    · exact .of_writes_eq_nil rfl
    · refine .after (.cons (decorates_targetHeading hunit.shown p) .nil) ?_
      exact (decorates_renderListing p hunit htable).andThen fun _ => .of_writes_eq_nil rfl
  | container name members =>
    obtain ⟨hname, hmembers⟩ := htarget
    refine ⟨.cons (decorates_targetHeading hname p) ?_, rfl⟩
    generalize members.toList = ms at hmembers
    induction ms with
    | nil => exact .nil
    | cons m rest ih =>
      have hm := hmembers m List.mem_cons_self
      simp only [List.flatMap_cons]
      exact (decorateAll_memberWrites p htable hm.1 hm.2).append
        (ih fun m hm => hmembers m (List.mem_cons_of_mem _ hm))

/-! ## Listings of source lines -/

/-- The margin of a line. At the current line it is highlighted as a whole. -/
theorem decorates_sourceMargin (line : Nat) (marker : Option BreakpointMarker) (isCurrent : Bool)
    (style : HighlightStyle) :
    Decorates (sourceMargin line marker isCurrent style)
      (sourceMargin line marker isCurrent .plain) := by
  have hcolumn : Text.IsPlain (lineNumberColumn line) := by
    have hnumber := (Text.isPlain_toString_nat line).padLeft 3
    unfold lineNumberColumn
    dsimp only
    split
    · exact hnumber.append (by decide)
    · exact hnumber
  have key : ∀ {icon number : String}, Text.IsPlain icon → Text.IsPlain number →
      Decorates
        (if isCurrent then highlight .emphasis (lineNumberColumn line ++ icon ++ "->") style
          else lineNumberColumn line ++ icon ++ number)
        (if isCurrent then highlight .emphasis (lineNumberColumn line ++ icon ++ "->") .plain
          else lineNumberColumn line ++ icon ++ number) := by
    intro icon number hicon hnumber
    have hstart := hcolumn.append hicon
    split
    · exact Text.decorates_highlight (hstart.append (by decide)) .emphasis style
    · exact (hstart.append hnumber).decorates
  cases marker with
  | none => exact @key " " "  " (by decide) (by decide)
  | some m =>
    have hicon : Text.IsPlain m.icon := by
      unfold BreakpointMarker.icon
      split <;> decide
    exact key hicon (Text.isPlain_zeroPad 2 m.number)

/-- A line behind its margin. -/
theorem decorates_sourceRow (c : SourceContext) (canonical : String) (style : HighlightStyle)
    (line : Nat) {text : String} (h : Text.IsPlain text) :
    Decorates (sourceRow c canonical style line text) (sourceRow c canonical .plain line text) := by
  refine .append (.append (decorates_sourceMargin _ _ _ style) ?_) ?_
  · exact Text.IsPlain.decorates (by decide)
  · exact (h.trimEnd _).decorates

/-- The listing of a number of lines. -/
theorem decorates_sourceRows {c : SourceContext} {filename : String} (style : HighlightStyle)
    (h : ∀ n text, c.sources.line filename n = some text → Text.IsPlain text) (shown : Option Nat)
    (line count : Nat) :
    (sourceRows c filename style shown line count).Decorates
      (sourceRows c filename .plain shown line count) := by
  induction count generalizing shown line with
  | zero => exact .of_writes_eq_nil rfl
  | succ count ih =>
    unfold sourceRows
    split
    · exact .after (.cons (Write.decorates_line (by decide)) .nil) (.of_writes_eq_nil rfl)
    · next text htext =>
      refine .after (.cons (.line ?_) .nil) (ih _ _)
      exact decorates_sourceRow c _ style line (h line text htext)

/-- The listing of source lines. -/
theorem decorates_renderSource {r : SourceRequest} {c : SourceContext} (style : HighlightStyle)
    (h : ∀ n text, c.sources.line r.filename n = some text → Text.IsPlain text) :
    (renderSource r c style).Decorates (renderSource r c .plain) := by
  unfold renderSource
  split
  · exact .of_writes_eq_nil rfl
  · next max _ =>
    split
    · exact .of_writes_eq_nil rfl
    · refine .after ?_ (decorates_sourceRows style h _ _ _)
      split
      · refine .cons (Write.decorates_line ?_) .nil
        simp only [Text.isPlain_append, Text.isPlain_toString_nat]
        decide
      · exact .nil

/-! ## What is recorded -/

/-- Two recordings that took the same calls in turn, with outputs of which the first one decorates
the second one. -/
structure Recording.Decorates (r bare : Recording) : Prop where
  output : Text.Decorates r.output bare.output
  calls : r.calls = bare.calls
  refuse : r.refuse = bare.refuse

/-- One call is taken by both recordings or refused by both. -/
theorem Recording.Decorates.take {r bare : Recording} {w bareWrite : Write} (h : r.Decorates bare)
    (hw : w.Decorates bareWrite) :
    (r.take w).1 = (bare.take bareWrite).1 ∧ (r.take w).2.Decorates (bare.take bareWrite).2 := by
  unfold Recording.take
  rw [h.calls, h.refuse]
  split
  · exact ⟨rfl, h.output, rfl, rfl⟩
  · exact ⟨rfl, h.output.append hw.text, rfl, rfl⟩

/-- Calls one after the other are taken by both recordings up to the same one. -/
theorem DecorateAll.writeAll {ws bares : List Write} (hws : DecorateAll ws bares)
    {r bare : Recording} (h : r.Decorates bare) :
    (Listing.writeAll Recording.sink ws r).1 = (Listing.writeAll Recording.sink bares bare).1 ∧
      (Listing.writeAll Recording.sink ws r).2.Decorates
        (Listing.writeAll Recording.sink bares bare).2 := by
  induction hws generalizing r bare with
  | nil => exact ⟨rfl, h⟩
  | @cons w bareWrite ws bares hw _ ih =>
    obtain ⟨houtcome, hstate⟩ := h.take hw
    unfold Listing.writeAll
    simp only [Recording.sink]
    rcases htake : r.take w with ⟨outcome, r'⟩
    rcases hbare : bare.take bareWrite with ⟨bareOutcome, bare'⟩
    rw [htake, hbare] at houtcome hstate
    dsimp only at houtcome hstate
    subst houtcome
    cases outcome with
    | error e => exact ⟨rfl, hstate⟩
    | ok u => exact ih hstate

/-! ## Decorated listings -/

/-- A call without the escape sequences in its text. -/
def Write.undecorated : Write → Write
  | .fragment text => .fragment (Text.undecorated text)
  | .line text => .line (Text.undecorated text)

/-- Calls that decorate others are the others when their escape sequences are deleted. -/
theorem DecorateAll.map_undecorated {ws bares : List Write} (h : DecorateAll ws bares) :
    ws.map Write.undecorated = bares := by
  induction h with
  | nil => rfl
  | cons hw _ ih =>
    rw [List.map_cons, ih]
    cases hw with
    | fragment htext => rw [Write.undecorated, htext.undecorated_eq]
    | line htext => rw [Write.undecorated, htext.undecorated_eq]

/-- A listing that differs from another one in escape sequences only: they come to the same, make
the same calls apart from the sequences, and do the same to a recording sink, whatever calls it
refuses, apart from the sequences in its output. -/
structure Listing.IsDecorationOf (l bare : Listing ρ) : Prop where
  outcome : l.outcome = bare.outcome
  calls : l.writes.map Write.undecorated = bare.writes
  recorded : ∀ refuse,
    let run := l.writeTo Recording.sink (.new refuse)
    let bareRun := bare.writeTo Recording.sink (.new refuse)
    run.1 = bareRun.1 ∧ run.2.calls = bareRun.2.calls ∧
      Text.undecorated run.2.output = bareRun.2.output

/-- What decorates a listing call by call differs from it in escape sequences only. -/
theorem Listing.Decorates.isDecorationOf {l bare : Listing ρ} (h : l.Decorates bare) :
    l.IsDecorationOf bare := by
  refine ⟨h.outcome, h.writes.map_undecorated, fun refuse => ?_⟩
  have hnew : (Recording.new refuse).Decorates (.new refuse) :=
    ⟨Text.IsPlain.decorates (show Text.IsPlain "" by decide), rfl, rfl⟩
  obtain ⟨hwrites, hstate⟩ := h.writes.writeAll hnew
  unfold Listing.writeTo
  generalize Listing.writeAll Recording.sink l.writes (.new refuse) = run at hwrites hstate ⊢
  generalize Listing.writeAll Recording.sink bare.writes (.new refuse) = bareRun at hwrites hstate ⊢
  obtain ⟨written, r⟩ := run
  obtain ⟨bareWritten, bareRecording⟩ := bareRun
  obtain rfl : written = bareWritten := hwrites
  cases written with
  | error e => exact ⟨rfl, hstate.calls, hstate.output.undecorated_eq⟩
  | ok u => exact ⟨h.outcome, hstate.calls, hstate.output.undecorated_eq⟩

/-- Highlighting is only decoration, where the names, the constants and the source lines hold no ESC.
A listing under any style, be it of a code object, of a target or of source lines, comes to what the
listing without colours comes to, after as many calls, and leaves the same output when the escape
sequences are deleted from it. -/
theorem highlighting_only_decorates :
    (∀ (d : Disassembly) (p : ListingPolicy), d.code.IsPlain → d.table.IsPlain →
      (renderListing d p).IsDecorationOf (renderListing d p.uncoloured)) ∧
    (∀ (target : Target) (table : OpcodeTable) (p : ListingPolicy) (current : Option Nat),
      target.IsPlain → table.IsPlain →
        (disassemble target table p current).IsDecorationOf
          (disassemble target table p.uncoloured current)) ∧
    (∀ (r : SourceRequest) (c : SourceContext) (style : HighlightStyle),
      (∀ n text, c.sources.line r.filename n = some text → Text.IsPlain text) →
        (renderSource r c style).IsDecorationOf (renderSource r c .plain)) :=
  ⟨fun _ p hcode htable => (decorates_renderListing p hcode htable).isDecorationOf,
    fun _ _ p current htarget htable =>
      (decorates_disassemble p current htarget htable).isDecorationOf,
    fun _ _ style h => (decorates_renderSource style h).isDecorationOf⟩

/-- A code object that names a variable and jumps back to that. -/
def loopOnName : CodeObject := { CodeObject.empty with
  name := "f"
  code := [101, 0, 0, 113, 0, 0]
  names := ["x"]
  lineTable := .ofPairs [(0, 7)] }

/-- A source of one line, where the program stands. -/
def oneLineSource : SourceContext :=
  ⟨(SourceTexts.ofTexts [("f.py", "x = 1")]).provider, [], some 1⟩

/-- A row in colours and the same row without them; a container of a member that cannot be listed to
its end; and the line where the program stands. -/
theorem highlighting_only_decorates_loopOnName :
    let table := RuntimeVersion.classic.table
    let p := ListingPolicy.unbounded
    let d : Disassembly := ⟨loopOnName, table, some 0⟩
    (renderListing d p).writes.take 2 =
        [.fragment "\x1b[1m  7\x1b[0m\x1b[1;31m-->\x1b[0m\x1b[1;31m>>\x1b[0m",
          .line "   0 \x1b[34mLOAD_NAME           \x1b[0m    0 (\x1b[36mx\x1b[0m)"] ∧
      (renderListing d p.uncoloured).writes.take 2 =
        [.fragment "  7-->>>", .line "   0 LOAD_NAME               0 (x)"] ∧
      (renderListing d p).IsDecorationOf (renderListing d p.uncoloured) ∧
      (disassemble (.container "M" brokenMember) table p none).IsDecorationOf
        (disassemble (.container "M" brokenMember) table p.uncoloured none) ∧
      (renderSource ⟨"f.py", 1, 9⟩ oneLineSource .dark).IsDecorationOf
        (renderSource ⟨"f.py", 1, 9⟩ oneLineSource .plain) := by
  intro table p d
  have hloop : loopOnName.IsPlain :=
    ⟨by decide, by decide, nofun, by decide, nofun, nofun, nofun⟩
  have hempty : Text.IsPlain "" := by decide
  have hunlined : ∀ code, (unlined code).IsPlain := fun _ =>
    ⟨hempty, hempty, nofun, nofun, nofun, nofun, nofun⟩
  have hmembers : Target.IsPlain (.container "M" brokenMember) := by
    refine ⟨by decide, fun m hm => ?_⟩
    have hlist : brokenMember.toList = [("a", unlined [9, 100]), ("b", unlined [83])] := by
      decide +kernel
    rw [hlist, List.mem_pair] at hm
    rcases hm with rfl | rfl
    · exact ⟨by decide, hunlined _⟩
    · exact ⟨by decide, hunlined _⟩
  have hlines : ∀ n text, oneLineSource.sources.line "f.py" n = some text →
      Text.IsPlain text := by
    rintro (_ | _ | n) text htext
    · cases htext
    · cases htext
      decide
    · cases htext
  obtain ⟨hlisting, htarget, hsource⟩ := highlighting_only_decorates
  have htable := RuntimeVersion.classic.isPlain_table
  exact ⟨by decide +kernel, by decide +kernel, hlisting d p hloop htable,
    htarget _ table p none hmembers htable, hsource ⟨"f.py", 1, 9⟩ oneLineSource .dark hlines⟩

end BytecodeDebugger
