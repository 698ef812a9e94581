import BytecodeDebugger.Proofs.Command.Members
import BytecodeDebugger.Proofs.Listing.Records

/-!
# What `disassemble` sends as JSON Lines

Each record of a code object is told in a call of its own, in the order of the instructions, and no
other call is made until the last one. A call that fails ends the command; behind the last record
the command goes on with the code objects that are left.

Main facts: `run_writeDocuments_append` (the calls of the code objects that can be listed) and
`jsonLines_records_intact` (JSON Lines are one intact record an instruction, as text and as calls).
-/

namespace BytecodeDebugger

open Dialogue Handler

/-! ## Calls in a row -/

/-- Calls in two rows are made one row after the other, the second one only if none of the first one
fails. -/
theorem Dialogue.writeAll_append_bind {β : Type} (ws ws' : List Write)
    (f : Except ConnectError Unit → Dialogue β) :
    (writeAll (ws ++ ws') >>= f) = writeAll ws >>= fun
      | .ok () => writeAll ws' >>= f
      | .error e => f (.error e) := by
  induction ws with
  | nil => rfl
  | cons w rest ih =>
    show Dialogue.write w _ = Dialogue.write w _
    congr
    funext r
    cases r with
    | ok u => exact ih
    | error e => rfl

/-- A handler that tells lines and goes on if none of the calls fails. -/
theorem Handler.run_sayAll_bind {β : Type} (ls : List String) (f : Unit → Handler β)
    (w : Workspace) :
    (sayAll ls >>= f).run w = writeAll (ls.map .line) >>= fun
      | .ok () => (f ()).run w
      | .error e => .done (.error (.connect e), w) := by
  rw [run_bind, sayAll, run_speak, Dialogue.bind_assoc]
  congr
  funext r
  cases r <;> rfl

namespace Disassemble

variable {table : OpcodeTable} {p : ListingPolicy} {current : Option Nat}

/-- The records of a code object; there are none if it cannot be listed. -/
def records (table : OpcodeTable) (p : ListingPolicy) (current : Option Nat) (code : CodeObject) :
    List String :=
  match selectedInstructions ⟨code, table, current⟩ p with
  | .ok is => recordLines ⟨code, table, current⟩ is
  | .error _ => []

/-- The text of a code object that can be listed has its records as lines. -/
theorem exists_formatDisassembly_eq {code : CodeObject}
    (h : (selectedInstructions ⟨code, table, current⟩ p).isOk) :
    ∃ text, formatDisassembly .jsonLines ⟨code, table, current⟩ p = .ok text ∧
      Text.lines text = records table p current code := by
  unfold records
  cases hselect : selectedInstructions ⟨code, table, current⟩ p with
  | error e => rw [hselect] at h; cases h
  | ok is =>
    exact ⟨_, formatDisassembly_jsonLines hselect, Text.lines_join (not_mem_recordLines _ is)⟩

/-- The records of code objects that can be listed are told in a row, and then the code objects
behind them are written. -/
theorem run_writeDocuments_append {codes rest : List CodeObject}
    (h : ∀ code ∈ codes, (selectedInstructions ⟨code, table, current⟩ p).isOk) (w : Workspace) :
    (writeDocuments .jsonLines table p current (codes ++ rest)).run w =
      writeAll ((codes.flatMap (records table p current)).map .line) >>= fun
        | .ok () => (writeDocuments .jsonLines table p current rest).run w
        | .error e => .done (.error (.connect e), w) := by
  induction codes with
  | nil => rfl
  | cons code codes ih =>
    obtain ⟨hcode, hcodes⟩ := List.forall_mem_cons.1 h
    obtain ⟨text, hformat, hlines⟩ := exists_formatDisassembly_eq hcode
    rw [List.cons_append, writeDocuments, hformat]
    dsimp only
    -- the text is split into the lines that it was joined from, so the calls are the records
    rw [run_sayAll_bind, ih hcodes, hlines, List.flatMap_cons, List.map_append,
      writeAll_append_bind]

end Disassemble

/-! ## The command line -/

open Disassemble

/-- A line that disassembles a target as JSON Lines tells the records of the code objects that can
be listed, and then goes on with those behind them. A call that fails ends it. -/
theorem Processor.executeLine_writes_records {p : Processor} {line : String} {args : List String}
    {target : Target} {current : Option Nat} {policy : ListingPolicy} {codes rest : List CodeObject}
    (hruns : p.Runs line Disassemble.command args) (hformat : p.settings.format = .jsonLines)
    (hsubject : subject p.debuggee (splitName args).1 = .ok (target, current))
    (hbounds : parseBounds p.settings.listingPolicy (splitName args).2 = .ok policy)
    (hunits : target.units = codes ++ rest)
    (hcodes : ∀ code ∈ codes,
      (selectedInstructions ⟨code, p.debuggee.table, current⟩ policy).isOk) :
    p.executeLine line =
      writeAll ((codes.flatMap (records p.debuggee.table policy current)).map .line) >>= fun
        | .ok () =>
          (writeDocuments .jsonLines p.debuggee.table policy current rest).run p.workspace >>=
            p.conclude
        | .error e => .done (.error e, p) := by
  have hrun : (Disassemble.command.value.run p.infos args).run p.workspace =
      (writeDocuments .jsonLines p.debuggee.table policy current target.units).run p.workspace := by
    rw [run_command, workspace, hsubject]
    dsimp only
    rw [hbounds, hformat]
  rw [hruns.executeLine_eq, perform_eq_bind_conclude, ← workspace, hrun, hunits,
    run_writeDocuments_append hcodes, Dialogue.bind_assoc]
  congr
  funext r
  cases r <;> rfl

/-- JSON Lines are one intact record an instruction. The text of a code object is as many lines as
there are instructions, each of which is read back as what it was written for; and whenever
`disassemble` comes to the code object, each of these lines is told in a call of its own, unless an
earlier call fails. -/
theorem jsonLines_records_intact {d : Disassembly} {policy : ListingPolicy} {is : List Instruction}
    (h : selectedInstructions d policy = .ok is) :
    ∃ lines : List String,
      List.Forall₂ (InstructionRecord.IsIntact d.code.name) lines is ∧
      formatDisassembly .jsonLines d policy = .ok (String.join (lines.map (· ++ "\n"))) ∧
      Text.lines (String.join (lines.map (· ++ "\n"))) = lines ∧
      ∀ (p : Processor) (line : String) (args : List String) (target : Target)
        (before after : List CodeObject),
        p.Runs line Disassemble.command args → p.settings.format = .jsonLines →
        p.debuggee.table = d.table →
        subject p.debuggee (splitName args).1 = .ok (target, d.current) →
        parseBounds p.settings.listingPolicy (splitName args).2 = .ok policy →
        target.units = before ++ d.code :: after →
        (∀ code ∈ before, (selectedInstructions ⟨code, d.table, d.current⟩ policy).isOk) →
        p.executeLine line =
          writeAll ((before.flatMap (records d.table policy d.current) ++ lines).map .line) >>= fun
            | .ok () =>
              (writeDocuments .jsonLines d.table policy d.current after).run p.workspace >>=
                p.conclude
            | .error e => .done (.error e, p) := by
  refine ⟨recordLines d is, forall₂_recordLines d is, formatDisassembly_jsonLines h,
    Text.lines_join (not_mem_recordLines d is), ?_⟩
  intro p line args target before after hruns hformat htable hsubject hbounds hunits hbefore
  have hself : records d.table policy d.current d.code = recordLines d is := by
    rw [records, h]
  have hcodes : ∀ code ∈ before ++ [d.code],
      (selectedInstructions ⟨code, p.debuggee.table, d.current⟩ policy).isOk := by
    rw [htable]
    refine List.forall_mem_append.2 ⟨hbefore, List.forall_mem_singleton.2 ?_⟩
    rw [h]
    rfl
  rw [Processor.executeLine_writes_records hruns hformat hsubject hbounds
    (hunits.trans (List.append_cons before d.code after)) hcodes, htable, List.flatMap_append,
    List.flatMap_singleton, hself]

/-- A code object whose name and whose only global name hold line ends and quotes. -/
def brokenNames : CodeObject :=
  { CodeObject.empty with
    name := "two\n\"lines\"", code := [101, 0, 0, 83], names := ["\r\n\u0007\\"]
    lineTable := .ofPairs [(0, 7)] }

/-- A processor that writes JSON Lines and knows a container of a stream that returns at once and of
the code object with broken names. -/
def knowingBrokenNames : Processor :=
  Processor.knowingMembers [("a", Processor.unit "a" [83]), ("b", brokenNames)]

/-- The two instructions of the code object with broken names are two lines, each told in a call of
its own behind that of the member before. -/
theorem jsonLines_records_intact_broken_names :
    ∃ lines : List String,
      List.Forall₂ (InstructionRecord.IsIntact "two\n\"lines\"") lines
        [⟨0, 3, 101, "LOAD_NAME", some 0, some (.name "\r\n\u0007\\"), some 7, true, false, false⟩,
          ⟨3, 1, 83, "RETURN_VALUE", none, none, some 7, false, false, false⟩] ∧
      Text.lines (String.join (lines.map (· ++ "\n"))) = lines ∧
      knowingBrokenNames.executeLine "disassemble M" =
        writeAll ((records knowingBrokenNames.debuggee.table
            knowingBrokenNames.settings.listingPolicy none (Processor.unit "a" [83]) ++
              lines).map .line) >>= fun
          | .ok () => .done (.ok .goOn, knowingBrokenNames)
          | .error e => .done (.error e, knowingBrokenNames) := by
  have hselect : selectedInstructions ⟨brokenNames, knowingBrokenNames.debuggee.table, none⟩
      knowingBrokenNames.settings.listingPolicy =
        .ok [⟨0, 3, 101, "LOAD_NAME", some 0, some (.name "\r\n\u0007\\"), some 7, true, false,
            false⟩,
          ⟨3, 1, 83, "RETURN_VALUE", none, none, some 7, false, false, false⟩] := by
    decide +kernel
  have hruns : knowingBrokenNames.Runs "disassemble M" Disassemble.command ["M"] :=
    ⟨"disassemble", by decide +kernel, by rfl, by rfl⟩
  have hsubject : subject knowingBrokenNames.debuggee (splitName ["M"]).1 =
      .ok (.container "M" (.ofList [("a", Processor.unit "a" [83]), ("b", brokenNames)]),
        none) := by
    decide +kernel
  obtain ⟨lines, hintact, -, hlines, hcommand⟩ := jsonLines_records_intact hselect
  have hcalls := hcommand knowingBrokenNames "disassemble M" ["M"] _ [Processor.unit "a" [83]] []
    hruns rfl rfl hsubject rfl (by decide +kernel) (by decide +kernel)
  rw [List.flatMap_singleton] at hcalls
  exact ⟨lines, hintact, hlines, hcalls⟩

end BytecodeDebugger
