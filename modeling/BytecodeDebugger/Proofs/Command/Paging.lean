import BytecodeDebugger.Proofs.Command.Changes
import BytecodeDebugger.Proofs.Listing.SourcePage
import BytecodeDebugger.Proofs.Text.Reading
import Mathlib.Data.List.TakeDrop

/-!
# Paging through a source file

A window of a source file is shown around a line, and each bare `list` shows the next one. Where the
next one begins is kept with the program, and nothing but `list` moves it: whatever is done between,
the windows are the pages of the file, one after the other, up to its last line. Behind that a bare
`list` reports that there is no such line. Only a file that uses up all line numbers has no line
number behind its last line; its last line is shown again and again.

Main facts: `executeLine_list_of_ok` and `executeLine_list_of_error` (what `list` does),
`GoesOnAt.bare` and `GoesOnAt.other` (one line more), and `lists_page_through_file`.
-/

namespace BytecodeDebugger

open Dialogue
open Text (lineLimit)

variable {σ : Type} {i : Interface σ} {s : σ} {filename : String} {texts : List String}
  {size first : Nat}

/-- No setting that can be assigned is the number of lines to list. -/
theorem Setting.Assigns.listSize_eq {settings settings' : Settings} {name : String}
    {args : List String} (h : Setting.Assigns settings name args settings') :
    settings'.listSize = settings.listSize := by
  cases h <;> rfl

/-! ## What `list` does -/

namespace Processor

variable {p : Processor} {line : String} {args : List String} {last : Nat}

/-- A line that runs `list` makes the calls of a listing; then it moves to where a bare `list` goes
on, or it reports why the listing failed. -/
theorem perform_list (hrequest : SourceList.request p.debuggee (max p.settings.listSize 1) args =
      .ok (some filename, first, last)) :
    p.perform SourceList.command.value args =
      let l := SourceList.listing p.debuggee p.settings.highlight ⟨filename, first, last⟩
      Dialogue.writeAll l.writes >>= fun
        | .error e => p.report .goOn (String.intercalate ": " (ListingError.sink e).chain)
        | .ok () =>
          match l.outcome with
          | .error e => p.report .goOn (String.intercalate ": " e.chain)
          | .ok shown =>
            .done (.ok .goOn, { p with debuggee := SourceList.goOnAfter p.debuggee filename shown })
    := by
  rw [perform_eq_bind_conclude, SourceList.run_command]
  simp only [hrequest]
  rw [Handler.run_bind, Handler.run_list, Dialogue.bind_assoc, Dialogue.bind_assoc]
  congr
  funext r
  cases r with
  | error e => rfl
  | ok u =>
    generalize SourceList.listing p.debuggee p.settings.highlight ⟨filename, first, last⟩ = l
    obtain ⟨writes, e | shown⟩ := l <;> rfl

variable (hi : i.Obliges)

include hi

/-- A listing that comes to its end is written, and a bare `list` goes on behind it. -/
theorem executeLine_list_of_ok {shown : Option Nat}
    (hruns : p.Runs line SourceList.command args)
    (hrequest : SourceList.request p.debuggee (max p.settings.listSize 1) args =
      .ok (some filename, first, last))
    (hshown : (SourceList.listing p.debuggee p.settings.highlight
      ⟨filename, first, last⟩).outcome = .ok shown) (s : σ) :
    ((p.executeLine line).runOn i s).1 =
        (.ok .goOn, { p with debuggee := SourceList.goOnAfter p.debuggee filename shown }) ∧
      (p.executeLine line).writesOn i s =
        (SourceList.listing p.debuggee p.settings.highlight ⟨filename, first, last⟩).writes := by
  rw [hruns.executeLine_eq, perform_list hrequest]
  generalize SourceList.listing p.debuggee p.settings.highlight ⟨filename, first, last⟩ = l
    at hshown ⊢
  obtain ⟨hwrites, hrun⟩ := writesOn_writeAll (unbroken_of_obliges hi (writeAll l.writes) s)
  simp only [runOn_bind, writesOn_bind, hwrites, hrun, hshown]
  exact ⟨rfl, List.append_nil _⟩

/-- A listing that fails is written as far as it went and reported, and nothing changes. -/
theorem executeLine_list_of_error {e : ListingError}
    (hruns : p.Runs line SourceList.command args)
    (hrequest : SourceList.request p.debuggee (max p.settings.listSize 1) args =
      .ok (some filename, first, last))
    (hfailed : (SourceList.listing p.debuggee p.settings.highlight
      ⟨filename, first, last⟩).outcome = .error e) (s : σ) :
    ((p.executeLine line).runOn i s).1 = (.ok .goOn, p) ∧
      (p.executeLine line).writesOn i s =
        (SourceList.listing p.debuggee p.settings.highlight ⟨filename, first, last⟩).writes ++
          [.fault (String.intercalate ": " e.chain)] := by
  rw [hruns.executeLine_eq, perform_list hrequest]
  generalize SourceList.listing p.debuggee p.settings.highlight ⟨filename, first, last⟩ = l
    at hfailed ⊢
  obtain ⟨hwrites, hrun⟩ := writesOn_writeAll (unbroken_of_obliges hi (writeAll l.writes) s)
  simp only [runOn_bind, writesOn_bind, hwrites, hrun, hfailed]
  generalize ((writeAll l.writes).runOn i s).2 = t
  exact ⟨runOn_report (unbroken_of_obliges hi _ _), congrArg _ (p.writesOn_report _ _)⟩

end Processor

/-! ## Turns -/

/-- A command line with the processor that executes it and the user it is executed for. -/
structure Turn (σ : Type) where
  before : Processor
  user : σ
  line : String

namespace Turn

/-- What executing the line comes to. -/
def result (i : Interface σ) (t : Turn σ) : (Except ConnectError Flow × Processor) × σ :=
  (t.before.executeLine t.line).runOn i t.user

/-- The processor after the line. -/
def after (i : Interface σ) (t : Turn σ) : Processor := (t.result i).1.2

/-- What is written to the user. -/
def writes (i : Interface σ) (t : Turn σ) : List Write :=
  (t.before.executeLine t.line).writesOn i t.user

/-- The line is a bare `list`. -/
def IsBareList (t : Turn σ) : Prop := t.before.Runs t.line SourceList.command []

end Turn

/-- Command lines executed one after the other. -/
def turns (i : Interface σ) : List String → Processor → σ → List (Turn σ)
  | [], _, _ => []
  | line :: rest, p, s =>
    let t : Turn σ := ⟨p, s, line⟩
    t :: turns i rest (t.after i) (t.result i).2

/-! ## Windows -/

/-- The program after the window of a file that begins with a line. -/
def SourceList.behindWindow (d : Debuggee) (filename : String) (texts : List String)
    (size first : Nat) : Debuggee :=
  let next := min (min (first + size) (texts.length + 1)) (lineLimit - 1)
  { d with listNext := some (filename, next) }

/-- In the turn, the window that begins with a line is shown: its lines, and a notice in front of
them if it goes beyond the file. A bare `list` goes on behind it, and nothing else changes. -/
structure Turn.ShowsWindow (i : Interface σ) (t : Turn σ) (filename : String) (texts : List String)
    (size first : Nat) : Prop where
  result : (t.result i).1 = (.ok .goOn, { t.before with
    debuggee := SourceList.behindWindow t.before.debuggee filename texts size first })
  writes : t.writes i =
    (if texts.length < SourceList.windowEnd first size then [cutNotice texts.length] else []) ++
      sourceLines (SourceList.context t.before.debuggee filename) filename
        t.before.settings.highlight (page texts first size)

/-- In the turn, it is reported that the file has no line behind its last one, and nothing changes.
-/
structure Turn.ReportsEnd (i : Interface σ) (t : Turn σ) (filename : String)
    (texts : List String) : Prop where
  result : (t.result i).1 = (.ok .goOn, t.before)
  writes : t.writes i =
    [.fault (ListingError.sourceLineOutOfRange (texts.length + 1) filename texts.length).message]

/-- What is done in the turn of a bare `list` that has come to a line. Up to the last line, it shows
the window that begins there. Behind that it reports the end of the file, or shows the last line
again, if that has the last one of all line numbers. -/
structure Turn.GoesOn (i : Interface σ) (t : Turn σ) (filename : String) (texts : List String)
    (size first : Nat) : Prop where
  within : first ≤ texts.length → t.ShowsWindow i filename texts size first
  behind : texts.length < first → texts.length + 1 < lineLimit → t.ReportsEnd i filename texts
  stuck : texts.length < first → texts.length + 1 = lineLimit →
    t.ShowsWindow i filename texts size texts.length

/-- Each bare `list` among turns goes on, the first one with the window that has the given number;
the windows begin with a line and have a size. -/
def PageThrough (i : Interface σ) (filename : String) (texts : List String) (size first : Nat) :
    (window : Nat) → List (Turn σ) → Prop
  | _, [] => True
  | window, t :: rest =>
    (t.IsBareList → t.GoesOn i filename texts size (first + window * size) ∧
      PageThrough i filename texts size first (window + 1) rest) ∧
    (¬ t.IsBareList → PageThrough i filename texts size first window rest)

/-- A processor with the built-in commands that knows a file, and lists so many lines at a time. -/
structure Processor.ListsFile (p : Processor) (filename : String) (texts : List String)
    (size : Nat) : Prop where
  commands : p.commands = .ofList builtinCommands
  size : max p.settings.listSize 1 = size
  find : p.debuggee.sources.find? filename = some texts

/-- A bare `list` has come to a line of the file, or to the end of it. -/
structure Processor.GoesOnAt (p : Processor) (filename : String) (texts : List String)
    (size first : Nat) : Prop extends p.ListsFile filename texts size where
  next : p.debuggee.listNext =
    some (filename, min (min first (texts.length + 1)) (lineLimit - 1))

section windows

variable {t : Turn σ} (hi : i.Obliges)

/-- Behind a window that was shown, the next one begins. -/
theorem Turn.ShowsWindow.goesOnAt (hshows : t.ShowsWindow i filename texts size first)
    (h : t.before.ListsFile filename texts size) :
    (t.after i).GoesOnAt filename texts size (first + size) := by
  rw [Turn.after, hshows.result]
  exact ⟨⟨h.commands, h.size, h.find⟩, rfl⟩

include hi

/-- The window that begins with a line of a known file is shown on request. -/
theorem Processor.ListsFile.showsWindow {args : List String}
    (h : t.before.ListsFile filename texts size) (hlength : texts.length < lineLimit)
    (hruns : t.before.Runs t.line SourceList.command args)
    (hrequest : SourceList.request t.before.debuggee size args =
      .ok (some filename, first, SourceList.windowEnd first size))
    (hfirst : 1 ≤ first) (hle : first ≤ texts.length) :
    t.ShowsWindow i filename texts size first := by
  obtain ⟨-, rfl, hfind⟩ := h
  have hend : first ≤ SourceList.windowEnd first (max t.before.settings.listSize 1) := by
    unfold SourceList.windowEnd
    omega
  have hlisting := renderSource_of_texts t.before.settings.highlight
    (c := SourceList.context t.before.debuggee filename) rfl hfind hlength hfirst hle hend
  -- the window ends before the last line number, or goes beyond the file
  have hpage : page texts first
      (SourceList.windowEnd first (max t.before.settings.listSize 1) + 1 - first) =
        page texts first (max t.before.settings.listSize 1) := by
    rw [← page_min texts hfirst (max _ 1), ← page_min texts hfirst (_ - first)]
    congr 1
    unfold SourceList.windowEnd
    omega
  have hnext : min (min (SourceList.windowEnd first (max t.before.settings.listSize 1))
      texts.length + 1) (lineLimit - 1) =
        min (min (first + max t.before.settings.listSize 1) (texts.length + 1)) (lineLimit - 1) := by
    unfold SourceList.windowEnd
    omega
  rw [hpage] at hlisting
  obtain ⟨hresult, hwrites⟩ := t.before.executeLine_list_of_ok hi hruns hrequest
    (congrArg Listing.outcome hlisting) t.user
  constructor
  · rw [Turn.result, hresult, SourceList.goOnAfter, hnext]
    rfl
  · rw [Turn.writes, hwrites]
    exact congrArg Listing.writes hlisting

/-- Behind the last line, the end of a known file is reported on request. -/
theorem Processor.ListsFile.reportsEnd {args : List String} {last : Nat}
    (h : t.before.ListsFile filename texts size) (hlength : texts.length < lineLimit)
    (hruns : t.before.Runs t.line SourceList.command args)
    (hrequest : SourceList.request t.before.debuggee size args =
      .ok (some filename, texts.length + 1, last)) :
    t.ReportsEnd i filename texts := by
  obtain ⟨-, rfl, hfind⟩ := h
  have hlisting := renderSource_of_length_lt t.before.settings.highlight
    (c := SourceList.context t.before.debuggee filename) rfl hfind hlength (Nat.lt_succ_self _) last
  obtain ⟨hresult, hwrites⟩ := t.before.executeLine_list_of_error hi hruns hrequest
    (congrArg Listing.outcome hlisting) t.user
  constructor
  · exact hresult
  · rw [Turn.writes, hwrites]
    exact congrArg (·.writes ++ _) hlisting

end windows

namespace Processor.GoesOnAt

/-- Where a bare `list` has come to is capped by the end of the file. -/
theorem of_next_eq {p : Processor} {first' : Nat} (h : p.GoesOnAt filename texts size first)
    (heq : min (min first (texts.length + 1)) (lineLimit - 1) =
      min (min first' (texts.length + 1)) (lineLimit - 1)) :
    p.GoesOnAt filename texts size first' :=
  ⟨h.toListsFile, heq ▸ h.next⟩

/-- A bare `list` goes on, and the next one goes on behind it. -/
theorem bare {t : Turn σ} (hi : i.Obliges) (h : t.before.GoesOnAt filename texts size first)
    (hlength : texts.length < lineLimit) (hfirst : 1 ≤ first) (hbare : t.IsBareList) :
    t.GoesOn i filename texts size first ∧
      (t.after i).GoesOnAt filename texts size (first + size) := by
  have hlimit : lineLimit = 4294967296 := rfl
  have hrequest : ∀ next, min (min first (texts.length + 1)) (lineLimit - 1) = next →
      SourceList.request t.before.debuggee size [] =
        .ok (some filename, next, SourceList.windowEnd next size) := by
    rintro next rfl
    simp only [SourceList.request, h.next]
  by_cases hle : first ≤ texts.length
  · have hshows := h.toListsFile.showsWindow hi hlength hbare (hrequest first (by omega)) hfirst hle
    exact ⟨⟨fun _ => hshows, fun hlt => absurd hle (by omega), fun hlt => absurd hle (by omega)⟩,
      hshows.goesOnAt h.toListsFile⟩
  · by_cases hend : texts.length + 1 < lineLimit
    · have hreports := h.toListsFile.reportsEnd hi hlength hbare (hrequest _ (by omega))
      refine ⟨⟨fun hin => absurd hin hle, fun _ _ => hreports, fun _ heq => by omega⟩, ?_⟩
      rw [Turn.after, hreports.result]
      exact h.of_next_eq (by omega)
    · have hshows := h.toListsFile.showsWindow hi hlength hbare (hrequest texts.length (by omega))
        (by omega) (Nat.le_refl _)
      refine ⟨⟨fun hin => absurd hin hle, fun _ hlt => absurd hlt hend, fun _ _ => hshows⟩, ?_⟩
      exact (hshows.goesOnAt h.toListsFile).of_next_eq (by omega)

/-- A line that does not run `list` does not change where a bare `list` goes on. -/
theorem other {t : Turn σ} (hi : i.Obliges) (h : t.before.GoesOnAt filename texts size first)
    (hother : ∀ args, ¬ t.before.Runs t.line SourceList.command args) :
    (t.after i).GoesOnAt filename texts size first := by
  obtain ⟨w, hrun, hw⟩ := executeLine_comesTo h.commands
    (unbroken_of_obliges hi (t.before.executeLine t.line) t.user)
  have hafter : t.after i =
      { t.before with settings := w.settings, debuggee := w.debuggee } := by
    rw [Turn.after, Turn.result, hrun]
    rfl
  have hsame : w.settings.listSize = t.before.settings.listSize ∧
      w.debuggee = t.before.debuggee := by
    rcases hw with rfl | ⟨e, args, hruns, -, hchanges⟩
    · exact ⟨rfl, rfl⟩
    · cases hchanges with
      | nothing => exact ⟨rfl, rfl⟩
      | setting hsub hassigns => exact ⟨hassigns.listSize_eq, rfl⟩
      | listNext hshows => exact absurd hruns (hother args)
      | quit hquit => exact ⟨rfl, rfl⟩
  obtain ⟨hsize, hdebuggee⟩ := hsame
  rw [hafter]
  exact ⟨⟨h.commands, by rw [← h.size, ← hsize], by rw [← h.find, ← hdebuggee]⟩,
    by rw [← h.next, ← hdebuggee]⟩

/-- Whatever is done between, the bare `list`s go on one after the other. -/
theorem pageThrough (hi : i.Obliges) (hlength : texts.length < lineLimit) (hfirst : 1 ≤ first)
    {window : Nat} {p : Processor} (h : p.GoesOnAt filename texts size (first + window * size))
    {lines : List String} {s : σ}
    (hlines : ∀ t ∈ turns i lines p s, ∀ args,
      t.before.Runs t.line SourceList.command args → args = []) :
    PageThrough i filename texts size first window (turns i lines p s) := by
  induction lines generalizing p s window with
  | nil => trivial
  | cons line rest ih =>
    obtain ⟨hline, hrest⟩ := List.forall_mem_cons.1 hlines
    refine ⟨fun hbare => ?_, fun hother => ih (h.other hi fun args hruns => ?_) hrest⟩
    · obtain ⟨hgoes, hafter⟩ := bare (t := ⟨p, s, line⟩) hi h hlength (by omega) hbare
      refine ⟨hgoes, ih ?_ hrest⟩
      rwa [Nat.succ_mul, ← Nat.add_assoc]
    · obtain rfl := hline args hruns
      exact hother hruns

end Processor.GoesOnAt

/-! ## Naming a line -/

/-- The word that names a line of a file. -/
def SourceList.location (filename : String) (line : Nat) : String :=
  filename ++ ":" ++ toString line

/-- A word that names a line of a file is read as that line of that file. -/
theorem SourceList.parseLocation_location (filename : String) {line : Nat}
    (hline : line < lineLimit) :
    parseLocation (location filename line) = .ok (some filename, some line) := by
  have hdigits : ∀ c ∈ (toString line).toList.reverse, (c != ':') = true := by
    intro c hc
    rw [List.mem_reverse, Nat.toString_eq_ofList_toDigits, String.toList_ofList] at hc
    have hdigit := Nat.isDigit_of_mem_toDigits (by decide) (by decide) hc
    simpa using fun heq : c = ':' => absurd (heq ▸ hdigit) (by decide)
  have hsplit : splitLastColon (location filename line).toList =
      some (filename.toList, (toString line).toList) := by
    have hlist : (location filename line).toList.reverse =
        (toString line).toList.reverse ++ ':' :: filename.toList.reverse := by
      simp [location]
    have hcolon : (':' != ':') = false := by decide
    rw [splitLastColon, List.span_eq_takeWhile_dropWhile, hlist,
      List.takeWhile_append_of_pos hdigits, List.dropWhile_append_of_pos hdigits,
      List.takeWhile_cons_of_neg (by simp), List.dropWhile_cons_of_neg (by simp)]
    simp
  rw [parseLocation, hsplit]
  dsimp only
  rw [String.ofList_toList, String.ofList_toList, parseLine, Text.parseUnsigned_toString hline]
  rfl

/-- The command line that lists a window around a line of a file. -/
def SourceList.around (filename : String) (line : Nat) : String :=
  "list " ++ location filename line

/-- The name of `list` is found whatever the settings are. -/
theorem Processor.lookupWith_list {p : Processor}
    (hcommands : p.commands = .ofList builtinCommands) :
    p.commands.lookupWith "list" p.settings.view = some SourceList.command := by
  have hname : ((Registry.ofList builtinCommands).get? "list").map (·.name) = some "list" := by
    decide +kernel
  obtain ⟨e, hget, hname⟩ := Option.map_eq_some_iff.1 hname
  have hmem := Registry.mem_of_mem_toList_ofList (Registry.mem_toList_iff.2 ⟨_, hget⟩)
  have he : e = SourceList.command := by
    simp only [builtinCommands, List.mem_cons, List.not_mem_nil, or_false] at hmem
    rcases hmem with rfl | rfl | rfl | rfl | rfl | rfl
    case inr.inr.inl => rfl
    all_goals exact absurd hname (by decide)
  rw [hcommands, Registry.lookupWith, Registry.find_of_get? _ hget, hname]
  exact hget.trans (congrArg some he)

/-- If the file has a name of one word, the line that lists around a line of it runs `list`. -/
theorem Processor.runs_around {p : Processor} (hcommands : p.commands = .ofList builtinCommands)
    (hword : Text.words filename = [filename]) (line : Nat) :
    p.Runs (SourceList.around filename line) SourceList.command
      [SourceList.location filename line] := by
  refine ⟨"list", ?_, lookupWith_list hcommands, rfl⟩
  have hlocation : Text.words (SourceList.location filename line) =
      [SourceList.location filename line] := by
    obtain ⟨hne, hblank⟩ := Text.words_eq_singleton_iff.1 hword
    refine Text.words_eq_singleton_iff.2 ⟨by simp [SourceList.location, hne], fun c hc => ?_⟩
    rw [SourceList.location, String.toList_append, String.toList_append, List.mem_append,
      List.mem_append] at hc
    rcases hc with (hc | hc) | hc
    · exact hblank c hc
    · rw [show c = ':' by simpa using hc]
      decide
    · rw [Nat.toString_eq_ofList_toDigits, String.toList_ofList] at hc
      exact Text.isBlank_of_isDigit (Nat.isDigit_of_mem_toDigits (by decide) (by decide) hc)
  have hline : SourceList.around filename line =
      "list" ++ " " ++ SourceList.location filename line := rfl
  rw [hline]
  exact Text.words_append_space (by decide) hlocation

/-- The line that lists around a line of a known file shows the window that begins half a window
before it. -/
theorem Processor.ListsFile.showsWindow_around {p : Processor} (hi : i.Obliges)
    (h : p.ListsFile filename texts size) (hlength : texts.length < lineLimit)
    (hword : Text.words filename = [filename]) {line : Nat} (hline : 1 ≤ line)
    (hle : line ≤ texts.length) (s : σ) :
    (⟨p, s, SourceList.around filename line⟩ : Turn σ).ShowsWindow i filename texts size
      (max (line - size / 2) 1) := by
  have hrequest : SourceList.request p.debuggee size [SourceList.location filename line] =
      .ok (some filename, SourceList.centred line size,
        SourceList.windowEnd (SourceList.centred line size) size) := by
    rw [SourceList.request,
      SourceList.parseLocation_location filename (Nat.lt_of_le_of_lt hle hlength)]
    rfl
  exact showsWindow (t := ⟨p, s, SourceList.around filename line⟩) hi h hlength
    (runs_around h.commands hword line) hrequest (by omega) (by omega)

/-- A line is in the window around it. -/
theorem mem_page_around {line : Nat} (hsize : 1 ≤ size) (hline : 1 ≤ line)
    (hle : line ≤ texts.length) :
    line ∈ (page texts (max (line - size / 2) 1) size).map (·.2) := by
  rw [map_snd_page texts (Nat.le_max_right _ _), List.mem_range'_1]
  omega

/-- Windows page through a file without gap and without overlap. With the built-in commands,
whatever the settings and the program, for every user who makes no call fail, and for every line of
every known file with a name of one word:

The line that lists around it shows a window that contains it. Then come command lines that may do
anything but run `list` with arguments. Each bare `list` among them shows the next window, which
begins where the one before has ended; the windows end with the file, and behind its last line the
end is reported and nothing changes. Laid end to end, the windows are the lines of the file from the
first one shown on, each of them once and in order. -/
theorem lists_page_through_file (settings : Settings) (debuggee : Debuggee) (prompt : String)
    (hi : i.Obliges) (s : σ) (hword : Text.words filename = [filename])
    (hfind : debuggee.sources.find? filename = some texts) (hlength : texts.length < lineLimit)
    {line : Nat} (hline : 1 ≤ line) (hle : line ≤ texts.length) :
    let size := max settings.listSize 1
    let first := max (line - size / 2) 1
    let t : Turn σ :=
      ⟨{ Processor.new settings debuggee with prompt }, s, SourceList.around filename line⟩
    t.ShowsWindow i filename texts size first ∧
      line ∈ (page texts first size).map (·.2) ∧
      (∀ lines,
        (∀ t' ∈ turns i lines (t.after i) (t.result i).2, ∀ args,
          t'.before.Runs t'.line SourceList.command args → args = []) →
        PageThrough i filename texts size first 1 (turns i lines (t.after i) (t.result i).2)) ∧
      ∀ windows,
        ((List.range windows).flatMap fun w => page texts (first + w * size) size).map (·.2) =
          List.range' first (min (windows * size) (texts.length + 1 - first)) := by
  intro size first t
  have hfirst : 1 ≤ first := Nat.le_max_right _ _
  have hlists : t.before.ListsFile filename texts size := ⟨rfl, rfl, hfind⟩
  have hshows := hlists.showsWindow_around hi hlength hword hline hle s
  refine ⟨hshows, mem_page_around (Nat.le_max_right _ _) hline hle, fun lines hlines => ?_,
    fun windows => ?_⟩
  · have hafter := hshows.goesOnAt hlists
    exact Processor.GoesOnAt.pageThrough hi hlength hfirst (by rwa [Nat.one_mul]) hlines
  · rw [flatMap_page texts hfirst, map_snd_page texts hfirst]

/-- A program of which a source file of three lines is known. -/
def threeLines : Debuggee :=
  { Debuggee.unknown with sources := .ofTexts [("f.py", "x = 1\ny = 2\nreturn x")] }

/-- Two lines at a time, without colours. -/
def twoAtATime : Settings := { Settings.initial with listSize := 2, highlight := .plain }

/-- Three lines are shown in two windows, with a setting shown between them; then the end is
reported. -/
theorem lists_page_through_file_threeLines :
    let t : Turn Unit := ⟨Processor.new twoAtATime threeLines, (), SourceList.around "f.py" 1⟩
    let rest := turns .obliging ["show skip", "list", "l"] (t.after .obliging) ()
    t.line = "list f.py:1" ∧
      t.writes .obliging = [.line "  1    \tx = 1", .line "  2    \ty = 2"] ∧
      rest.map (·.writes .obliging) =
        [[.line "skip is on."],
          [.line "End position changed to last line 3 ", .line "  3    \treturn x"],
          [.line "** Bad start line 4 - file \"f.py\" has only 3 lines"]] ∧
      PageThrough .obliging "f.py" ["x = 1", "y = 2", "return x"] 2 1 1 rest := by
  intro t rest
  have hword : Text.words "f.py" = ["f.py"] := by decide
  have hfind : threeLines.sources.find? "f.py" = some ["x = 1", "y = 2", "return x"] := by
    decide +kernel
  obtain ⟨-, -, hpages, -⟩ := lists_page_through_file twoAtATime threeLines Processor.initialPrompt
    Interface.obliges_obliging () hword hfind (by decide) (Nat.le_refl 1) (by decide)
  have hshow : ((t.after .obliging).commands.lookupWith "show"
      (t.after .obliging).settings.view).map (·.name) = some "show" := by decide +kernel
  refine ⟨by decide +kernel, by decide +kernel, by decide +kernel, hpages _ fun t' ht' args => ?_⟩
  rintro ⟨name, hwords, hlookup, -⟩
  have hline : t' = ⟨t.after .obliging, (), "show skip"⟩ ∨ t'.line = "list" ∨ t'.line = "l" := by
    simp only [turns, List.mem_cons, List.not_mem_nil, or_false] at ht'
    rcases ht' with rfl | rfl | rfl
    · exact .inl rfl
    · exact .inr (.inl rfl)
    · exact .inr (.inr rfl)
  have hone : ∀ {text : String}, Text.words text = [text] → t'.line = text → args = [] := by
    rintro _ hsingle rfl
    exact (List.cons.inj (hwords.symm.trans hsingle)).2
  rcases hline with rfl | hline | hline
  · -- this line runs another command
    obtain ⟨rfl, -⟩ := List.cons.inj ((show Text.words "show skip" = ["show", "skip"] by
      decide).symm.trans hwords)
    rw [hlookup] at hshow
    exact absurd hshow (by decide)
  · exact hone (by decide) hline
  · exact hone (by decide) hline

/-- A file of which all line numbers are used up has its last line shown, and then shown again by a
bare `list`, which does not report the end. -/
theorem Processor.ListsFile.repeats_last_line {p : Processor} (hi : i.Obliges)
    (h : p.ListsFile filename texts size) (hend : texts.length + 1 = lineLimit)
    (hword : Text.words filename = [filename]) {text : String}
    (htext : texts.getLast? = some text) (s : σ) :
    let row := sourceRow (SourceList.context p.debuggee filename) filename p.settings.highlight
      texts.length text
    let t : Turn σ := ⟨p, s, SourceList.around filename texts.length⟩
    let t' : Turn σ := ⟨t.after i, (t.result i).2, "list"⟩
    .line row ∈ t.writes i ∧ t'.IsBareList ∧ t'.writes i = [.line row] := by
  intro row t t'
  have hlimit : lineLimit = 4294967296 := rfl
  have hlt : texts.length < lineLimit := by omega
  have hpos : 1 ≤ texts.length := by omega
  have hsize : 1 ≤ size := h.size ▸ Nat.le_max_right _ _
  rw [List.getLast?_eq_getElem?] at htext
  have hshows := h.showsWindow_around hi hlt hword hpos (Nat.le_refl _) s
  have hgoes := hshows.goesOnAt h
  have hbare : t'.IsBareList :=
    ⟨"list", (show Text.words "list" = ["list"] by decide), lookupWith_list hgoes.commands, rfl⟩
  have hagain := (GoesOnAt.bare (t := t') hi hgoes hlt (by omega) hbare).1.stuck (by omega) hend
  refine ⟨?_, hbare, ?_⟩
  · obtain ⟨⟨text', n⟩, hl, rfl : n = texts.length⟩ :=
      List.mem_map.1 (mem_page_around hsize hpos (Nat.le_refl _))
    obtain rfl : text' = text := Option.some.inj ((getElem?_of_mem_page hl).symm.trans htext)
    rw [hshows.writes]
    exact List.mem_append_right _ (List.mem_map.2 ⟨_, hl, rfl⟩)
  · -- the second window is cut off behind the last line number
    have hcut : ¬ texts.length < SourceList.windowEnd texts.length size := by
      unfold SourceList.windowEnd
      omega
    have hpage : page texts texts.length size = [(text, texts.length)] := by
      obtain ⟨more, rfl⟩ := Nat.exists_eq_add_of_le' hsize
      rw [page_succ hpos htext, page_of_length_lt (Nat.lt_succ_self _)]
    let behind := SourceList.behindWindow p.debuggee filename texts size
      (max (texts.length - size / 2) 1)
    have hafter : t'.before = { p with debuggee := behind } := congrArg Prod.snd hshows.result
    rw [hagain.writes, if_neg hcut, hpage, hafter]
    rfl

/-- As many empty lines as there are line numbers. -/
def everyLineNumber : List String := List.replicate (lineLimit - 1) ""

/-- A program of which a source file with every line number is known. -/
def longestSource : Debuggee :=
  { Debuggee.unknown with sources := NameMap.empty.insert "f" everyLineNumber }

/-- The last one of all line numbers is shown twice. -/
theorem bare_list_repeats_last_line_number :
    let p := Processor.new twoAtATime longestSource
    let row := sourceRow (SourceList.context longestSource "f") "f" .plain everyLineNumber.length ""
    let t : Turn Unit := ⟨p, (), SourceList.around "f" everyLineNumber.length⟩
    let t' : Turn Unit := ⟨t.after .obliging, (t.result .obliging).2, "list"⟩
    everyLineNumber.length < lineLimit ∧ .line row ∈ t.writes .obliging ∧ t'.IsBareList ∧
      t'.writes .obliging = [.line row] := by
  intro p
  have hlists : p.ListsFile "f" everyLineNumber 2 := ⟨rfl, rfl, NameMap.find?_insert_self _ _ _⟩
  have hlength : everyLineNumber.length = lineLimit - 1 := List.length_replicate
  have hlimit : lineLimit = 4294967296 := rfl
  have htext : everyLineNumber.getLast? = some "" := by
    rw [everyLineNumber, List.getLast?_replicate, if_neg (by omega)]
  have hend : everyLineNumber.length + 1 = lineLimit := by omega
  have hlt : everyLineNumber.length < lineLimit := by omega
  exact ⟨hlt,
    hlists.repeats_last_line Interface.obliges_obliging hend (by decide) htext ()⟩

end BytecodeDebugger
