import BytecodeDebugger.Proofs.Command.Changes

/-!
# What `disassemble` writes about the members of a container

As annotated text every member of a container has a block of its own: its rows, a report if it
cannot be listed to its end, and a blank line. In the other formats the members are written one
after the other up to the first one that cannot be listed; that one is reported, and the members
behind it are lost.

Main facts: `writesOn_documents` (the documents that are written), `documentWrites_eq_flatMap_iff`
(when none is lost) and `executeLine_lists_members_iff`.
-/

namespace BytecodeDebugger

open Dialogue Handler

variable {σ : Type} {i : Interface σ} {s : σ}

namespace Disassemble

/-! ## The members -/

/-- What is written before the members of a container. -/
def containerHeading (format : OutputFormat) (title : String) (p : ListingPolicy) : List Write :=
  match format with
  | .text => [targetHeading title p]
  | _ => []

/-- Whether a member can be listed by itself. -/
def lists (format : OutputFormat) (table : OpcodeTable) (p : ListingPolicy)
    (m : String × CodeObject) : Bool :=
  (formatDisassembly format ⟨m.2, table, none⟩ p).isOk

/-- What is to be written about a member, whatever the other members are: its whole listing, or a
report that it cannot be listed. As annotated text, the rows before the failure and a blank line
belong to it too. -/
def memberBlock (format : OutputFormat) (table : OpcodeTable) (p : ListingPolicy)
    (m : String × CodeObject) : List Write :=
  let d : Disassembly := ⟨m.2, table, none⟩
  match format with
  | .text =>
    match (renderListing d p).outcome with
    | .ok _ => (renderListing d p).writes ++ [.line ""]
    | .error e =>
      (renderListing d p).writes ++ [.fault ("Sorry: " ++ m.1 ++ ": " ++ e.message), .line ""]
  | format =>
    match formatDisassembly format d p with
    | .ok text => (Text.lines text).map .line
    | .error e => [.fault e.message]

variable {format : OutputFormat} {table : OpcodeTable} {p : ListingPolicy}
  {m : String × CodeObject} {ms : List (String × CodeObject)}

/-- The block of a member in a format other than the annotated text. -/
theorem memberBlock_of_ne_text (hformat : format ≠ .text) :
    memberBlock format table p m =
      match formatDisassembly format ⟨m.2, table, none⟩ p with
      | .ok text => (Text.lines text).map .line
      | .error e => [.fault e.message] := by
  cases format with
  | text => exact absurd rfl hformat
  | json => rfl
  | jsonLines => rfl

/-- A document always has a line, and JSON Lines have one for each instruction: a member is written
as nothing if it has no instruction within the bounds, as JSON Lines. -/
theorem memberBlock_eq_nil_iff (hformat : format ≠ .text) :
    memberBlock format table p m = [] ↔
      format = .jsonLines ∧ selectedInstructions ⟨m.2, table, none⟩ p = .ok [] := by
  rw [memberBlock_of_ne_text hformat]
  cases format with
  | text => exact absurd rfl hformat
  | json =>
    unfold formatDisassembly
    cases selectedInstructions ⟨m.2, table, none⟩ p with
    | error e => simp [Except.map]
    | ok is =>
      have hdocument := Json.pretty_object_ne_empty
      simp [Except.map, disassemblyDocument, Text.lines_eq_nil_iff, hdocument]
  | jsonLines =>
    unfold formatDisassembly
    cases selectedInstructions ⟨m.2, table, none⟩ p with
    | error e => simp [Except.map]
    | ok is =>
      cases is with
      | nil => simp [Except.map, recordLines, Text.lines_eq_nil_iff]
      | cons first rest => simp [Except.map, recordLines, Text.lines_eq_nil_iff]

/-- The calls that write members one after the other, up to the first one that cannot be listed. -/
def documentWrites (format : OutputFormat) (table : OpcodeTable) (p : ListingPolicy) :
    List (String × CodeObject) → List Write
  | [] => []
  | m :: rest =>
    memberBlock format table p m ++
      if lists format table p m then documentWrites format table p rest else []

/-- No member is lost exactly if there is nothing to write about those behind the first one that
cannot be listed. -/
theorem documentWrites_eq_flatMap_iff (hformat : format ≠ .text) :
    documentWrites format table p ms = ms.flatMap (memberBlock format table p) ↔
      ∀ m ∈ (ms.dropWhile (lists format table p)).tail,
        format = .jsonLines ∧ selectedInstructions ⟨m.2, table, none⟩ p = .ok [] := by
  induction ms with
  | nil => simp [documentWrites]
  | cons m rest ih =>
    unfold documentWrites
    rw [List.flatMap_cons, List.append_cancel_left_eq]
    by_cases hlists : lists format table p m
    · rw [if_pos hlists, List.dropWhile_cons_of_pos hlists]
      exact ih
    · rw [if_neg hlists, List.dropWhile_cons_of_neg hlists, List.tail_cons, eq_comm,
        List.flatMap_eq_nil_iff]
      exact forall₂_congr fun m _ => memberBlock_eq_nil_iff hformat

/-- Members are written one after the other, up to the first one that cannot be listed, and that one
is reported. -/
theorem writesOn_documents (hformat : format ≠ .text) {q : Processor} {w : Workspace}
    (h : ((writeDocuments format table p none (ms.map (·.2))).run w >>= q.conclude).Unbroken i s) :
    ((writeDocuments format table p none (ms.map (·.2))).run w >>= q.conclude).writesOn i s =
      documentWrites format table p ms := by
  induction ms generalizing s with
  | nil => rfl
  | cons m rest ih =>
    unfold documentWrites lists
    rw [memberBlock_of_ne_text hformat]
    rw [List.map_cons] at h ⊢
    unfold writeDocuments at h ⊢
    cases hdocument : formatDisassembly format ⟨m.2, table, none⟩ p with
    | error e =>
      show (q.conclude (.error (.report [e.message]), w)).writesOn i s = [.fault e.message]
      unfold Processor.conclude
      rw [Processor.writesOn_report, String.intercalate_singleton]
    | ok text =>
      rw [hdocument] at h
      dsimp only at h ⊢
      unfold sayAll at h ⊢
      rw [run_bind, run_speak, Dialogue.bind_assoc, Dialogue.bind_assoc] at h ⊢
      obtain ⟨t, hrest, hwrites⟩ := writesOn_writeAll_bind h
      rw [hwrites, ← ih hrest]
      rfl

/-- The block of a member as annotated text is what the listing of a container has for it. -/
theorem memberWrites_eq (m : String × CodeObject) :
    memberWrites table p m.1 m.2 = memberBlock .text table p m := by
  unfold memberWrites memberBlock
  cases houtcome : (renderListing ⟨m.2, table, none⟩ p).outcome with
  | ok summary => simp only [houtcome, List.append_nil]
  | error e => simp only [houtcome, List.append_assoc, List.singleton_append]

/-- As annotated text all members are written. -/
theorem writesOn_text {title : String} {members : NameMap CodeObject} {q : Processor}
    {w : Workspace}
    (h : ((writeText (.container title members) table p none).run w >>= q.conclude).Unbroken i s) :
    ((writeText (.container title members) table p none).run w >>= q.conclude).writesOn i s =
      targetHeading title p :: members.toList.flatMap (memberBlock .text table p) := by
  unfold writeText at h ⊢
  rw [run_bind, run_list, Dialogue.bind_assoc, Dialogue.bind_assoc] at h ⊢
  obtain ⟨t, hrest, hwrites⟩ := writesOn_writeAll_bind h
  rw [hwrites]
  simp only [BytecodeDebugger.disassemble, memberWrites_eq]
  exact List.append_nil _

/-- No program stands in a container. -/
theorem current_eq_none_of_subject {d : Debuggee} {name? : Option String} {title : String}
    {members : NameMap CodeObject} {current : Option Nat}
    (h : subject d name? = .ok (.container title members, current)) : current = none := by
  unfold subject at h
  split at h
  · split at h
    · cases h
      rfl
    · cases h
  · split at h
    · split at h <;> cases h
    · cases h

end Disassemble

/-! ## The command line -/

namespace Processor

open Disassemble

variable {p : Processor} {line : String} {args : List String} {title : String}
  {members : NameMap CodeObject} {current : Option Nat} {policy : ListingPolicy}

/-- What a line writes that disassembles a container. -/
theorem writesOn_container (hruns : p.Runs line Disassemble.command args)
    (hsubject : subject p.debuggee (splitName args).1 = .ok (.container title members, current))
    (hbounds : parseBounds p.settings.listingPolicy (splitName args).2 = .ok policy)
    (h : (p.executeLine line).Unbroken i s) :
    (p.executeLine line).writesOn i s =
      containerHeading p.settings.format title policy ++
        match p.settings.format with
        | .text => members.toList.flatMap (memberBlock .text p.debuggee.table policy)
        | format => documentWrites format p.debuggee.table policy members.toList := by
  obtain rfl := current_eq_none_of_subject hsubject
  rw [hruns.executeLine_eq, perform_eq_bind_conclude, run_command, hsubject] at h ⊢
  dsimp only at h ⊢
  rw [hbounds] at h ⊢
  dsimp only at h ⊢
  cases hformat : p.settings.format with
  | text =>
    rw [hformat] at h
    exact writesOn_text h
  | json =>
    rw [hformat] at h
    exact writesOn_documents (by decide) h
  | jsonLines =>
    rw [hformat] at h
    exact writesOn_documents (by decide) h

/-- When a member that fails hides no other one. A line that disassembles a container writes the
block of each member, and nothing else behind the heading, exactly if the format is the annotated
text, or if the members behind the first one that cannot be listed have no instruction within the
bounds and are to be written as JSON Lines. -/
theorem executeLine_lists_members_iff (hruns : p.Runs line Disassemble.command args)
    (hsubject : subject p.debuggee (splitName args).1 = .ok (.container title members, current))
    (hbounds : parseBounds p.settings.listingPolicy (splitName args).2 = .ok policy)
    (h : (p.executeLine line).Unbroken i s) :
    (p.executeLine line).writesOn i s =
        containerHeading p.settings.format title policy ++
          members.toList.flatMap (memberBlock p.settings.format p.debuggee.table policy) ↔
      p.settings.format = .text ∨
        ∀ m ∈ (members.toList.dropWhile (lists p.settings.format p.debuggee.table policy)).tail,
          p.settings.format = .jsonLines ∧
            selectedInstructions ⟨m.2, p.debuggee.table, none⟩ policy = .ok [] := by
  rw [writesOn_container hruns hsubject hbounds h, List.append_cancel_left_eq]
  cases p.settings.format with
  | text => exact ⟨fun _ => .inl rfl, fun _ => rfl⟩
  | json =>
    have hne : OutputFormat.json ≠ .text := by decide
    exact (documentWrites_eq_flatMap_iff hne).trans (or_iff_right hne).symm
  | jsonLines =>
    have hne : OutputFormat.jsonLines ≠ .text := by decide
    exact (documentWrites_eq_flatMap_iff hne).trans (or_iff_right hne).symm

/-- A code object of a name and a stream. -/
def unit (name : String) (code : List UInt8) : CodeObject := { CodeObject.empty with name, code }

/-- A processor that writes JSON Lines and knows a container. -/
def knowingMembers (members : List (String × CodeObject)) : Processor :=
  new { Settings.initial with format := .jsonLines }
    { Debuggee.unknown with targets := .ofList [("M", .container "M" (.ofList members))] }

/-- A container of a stream that returns at once, one that ends within its only instruction, and one
without instructions. -/
def knowingShownMembers : Processor :=
  knowingMembers [("a", unit "a" [83]), ("b", unit "b" [100]), ("c", unit "c" [])]

/-- A container of a stream that ends within its only instruction, and one that returns at once. -/
def knowingHiddenMember : Processor :=
  knowingMembers [("a", unit "a" [100]), ("b", unit "b" [83])]

/-- A member that fails hides neither the one before it, which has an instruction to show, nor one
behind it that has none. -/
theorem executeLine_lists_shown_members :
    (knowingShownMembers.executeLine "disassemble M").Unbroken Interface.obliging () ∧
      (knowingShownMembers.executeLine "disassemble M").writesOn Interface.obliging () =
        [("a", unit "a" [83]), ("b", unit "b" [100]), ("c", unit "c" [])].flatMap
          (memberBlock .jsonLines knowingShownMembers.debuggee.table
            knowingShownMembers.settings.listingPolicy) ∧
      memberBlock .jsonLines knowingShownMembers.debuggee.table
        knowingShownMembers.settings.listingPolicy ("a", unit "a" [83]) ≠ [] := by
  have hruns : knowingShownMembers.Runs "disassemble M" Disassemble.command ["M"] :=
    ⟨"disassemble", by decide +kernel, by rfl, by rfl⟩
  have hsubject : subject knowingShownMembers.debuggee (splitName ["M"]).1 =
      .ok (.container "M"
        (.ofList [("a", unit "a" [83]), ("b", unit "b" [100]), ("c", unit "c" [])]), none) := by
    decide +kernel
  have hunbroken := unbroken_obliging (knowingShownMembers.executeLine "disassemble M")
  have hbounds : parseBounds knowingShownMembers.settings.listingPolicy (splitName ["M"]).2 =
      .ok knowingShownMembers.settings.listingPolicy := rfl
  have hlists := executeLine_lists_members_iff hruns hsubject hbounds hunbroken
  -- The two sides are brought to one form before they meet: comparing them by evaluation is slow.
  have hformat : knowingShownMembers.settings.format = .jsonLines := rfl
  have hheading : containerHeading .jsonLines "M" knowingShownMembers.settings.listingPolicy = [] :=
    rfl
  have hmembers : (NameMap.ofList [("a", unit "a" [83]), ("b", unit "b" [100]),
      ("c", unit "c" [])]).toList =
        [("a", unit "a" [83]), ("b", unit "b" [100]), ("c", unit "c" [])] := by rfl
  rw [hformat, hheading, hmembers, List.nil_append] at hlists
  refine ⟨hunbroken, hlists.mpr (.inr ?_), ?_⟩
  · decide +kernel
  · rw [Ne, memberBlock_eq_nil_iff (by decide)]
    decide +kernel

/-- A member that fails hides the one behind it, which could be listed by itself and has an
instruction to show. -/
theorem executeLine_hides_member :
    (knowingHiddenMember.executeLine "disassemble M").Unbroken Interface.obliging () ∧
      lists .jsonLines knowingHiddenMember.debuggee.table
        knowingHiddenMember.settings.listingPolicy ("b", unit "b" [83]) ∧
      memberBlock .jsonLines knowingHiddenMember.debuggee.table
        knowingHiddenMember.settings.listingPolicy ("b", unit "b" [83]) ≠ [] ∧
      (knowingHiddenMember.executeLine "disassemble M").writesOn Interface.obliging () =
        [.fault "offset 0: stream truncated, instruction needs 3 bytes but 1 remain"] := by
  refine ⟨unbroken_obliging _, by decide +kernel, ?_, by decide +kernel⟩
  rw [Ne, memberBlock_eq_nil_iff (by decide)]
  decide +kernel

end Processor

end BytecodeDebugger
