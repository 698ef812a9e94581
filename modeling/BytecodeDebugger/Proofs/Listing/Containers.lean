import BytecodeDebugger.Listing.Rows
import BytecodeDebugger.Opcode.Builtin
import BytecodeDebugger.Proofs.Store.NameMap
import BytecodeDebugger.Proofs.Text.Utf8

/-!
# Listings of containers

The listing of a container is put together from the listings of its members, each of them written as
if it were listed by itself. What is written about a member is told by its name and its code, so the
other members have no part in it.

Main facts: `text_memberWrites` (what a container has for a member), `collect_container` (a container
as a whole) and `containerText_eq_of_toList` (members in front of one and behind it).
-/

namespace BytecodeDebugger

variable {table : OpcodeTable} {p : ListingPolicy} {title : String}

/-! ## Blocks -/

/-- What a listing comes to on a sink that collects everything, and what is collected. -/
def Listing.collect {ρ : Type} (l : Listing ρ) : Except ListingError ρ × String :=
  let r := l.writeTo Recording.sink (.new [])
  (r.1, r.2.output)

theorem Listing.collect_eq {ρ : Type} (l : Listing ρ) : l.collect = (l.outcome, l.text) := by
  rw [collect, Recording.writeTo_new]

/-- The text due to a member of a container: what is written when it is listed by itself, a line for
the reason if that fails, and an empty line. -/
def memberText (table : OpcodeTable) (p : ListingPolicy) (m : String × CodeObject) : String :=
  let alone := (renderListing ⟨m.2, table, none⟩ p).collect
  alone.2 ++
    (match alone.1 with
      | .ok _ => ""
      | .error e => "** Sorry: " ++ m.1 ++ ": " ++ e.message ++ "\n") ++
    "\n"

/-- The text due to members one after the other. -/
def memberTexts (table : OpcodeTable) (p : ListingPolicy) (ms : List (String × CodeObject)) :
    String :=
  String.join (ms.map (memberText table p))

/-- The text due to a container: its heading and then its members. -/
def containerText (title : String) (table : OpcodeTable) (p : ListingPolicy)
    (ms : List (String × CodeObject)) : String :=
  "Disassembly of " ++ title ++ ":" ++ p.describeBounds ++ "\n" ++ memberTexts table p ms

theorem memberTexts_append (front back : List (String × CodeObject)) :
    memberTexts table p (front ++ back) = memberTexts table p front ++ memberTexts table p back := by
  rw [memberTexts, List.map_append, String.join_append]
  rfl

/-- What a container has for a member is the text due to it. -/
theorem text_memberWrites (m : String × CodeObject) :
    String.join ((memberWrites table p m.1 m.2).map Write.text) = memberText table p m := by
  unfold memberWrites memberText
  rw [Listing.collect_eq]
  dsimp only
  cases (renderListing ⟨m.2, table, none⟩ p).outcome with
  | ok s => simp [Listing.text, Write.text, String.join_append]
  | error e =>
    have hword : "** Sorry: " = "** " ++ "Sorry: " := by decide
    rw [hword]
    simp [-String.reduceAppend, Listing.text, Write.text, Write.fault, String.join_append,
      String.append_assoc]

/-- What a container has for its members are the texts due to them. -/
theorem text_flatMap_memberWrites (ms : List (String × CodeObject)) :
    String.join ((ms.flatMap fun m => memberWrites table p m.1 m.2).map Write.text) =
      memberTexts table p ms := by
  rw [memberTexts]
  induction ms with
  | nil => rfl
  | cons m rest ih =>
    rw [List.flatMap_cons, List.map_append, String.join_append, text_memberWrites, ih,
      List.map_cons, String.join_cons]

/-! ## Containers -/

/-- What is collected of a container is the text due to it. -/
theorem collect_container (title : String) (members : NameMap CodeObject) (table : OpcodeTable)
    (p : ListingPolicy) (current : Option Nat) :
    (disassemble (.container title members) table p current).collect =
      (.ok (), containerText title table p members.toList) := by
  rw [Listing.collect_eq, disassemble, Listing.text, List.map_cons, String.join_cons,
    text_flatMap_memberWrites]
  rfl

/-- Entries in front and behind show in front and behind. -/
theorem containerText_eq_of_toList {ms front mid back : List (String × CodeObject)}
    (h : ms = front ++ mid ++ back) :
    containerText title table p ms =
      containerText title table p front ++ memberTexts table p mid ++ memberTexts table p back := by
  subst h
  unfold containerText
  rw [memberTexts_append, memberTexts_append]
  generalize "Disassembly of " ++ title ++ ":" ++ p.describeBounds ++ "\n" = heading
  rw [String.append_assoc, String.append_assoc, String.append_assoc]

/-- What the listing of a container comes to. -/
structure Composes (title : String) (members : NameMap CodeObject) (table : OpcodeTable)
    (p : ListingPolicy) (current : Option Nat) : Prop where
  /-- It never fails, and is made of the heading and the texts due to the members. -/
  collect_eq : (disassemble (.container title members) table p current).collect =
    (.ok (), containerText title table p members.toList)
  /-- The members come in ascending order of the bytes of their names. -/
  ascending : members.toList.Pairwise fun m m' => Text.utf8Bytes m.1 < Text.utf8Bytes m'.1
  /-- Adding, removing or changing a member changes the text due to that member, and no other. -/
  around : ∀ (members' : NameMap CodeObject) (name : String),
    (∀ other, other ≠ name → members.find? other = members'.find? other) →
      ∃ front back, (∀ m ∈ front ++ back, m.1 ≠ name) ∧ ∀ ms ∈ [members, members'],
        (disassemble (.container title ms) table p current).collect.2 =
          containerText title table p front ++ memberTexts table p (ms.entry name) ++
            memberTexts table p back

/-- Listings of containers compose: a container of any members, listed under any policy, is a
heading and the members as they are listed by themselves, each with its failure, in the order of the
bytes of their names. A code object that is listed from a line behind its last one has nothing
written at all, whatever it is written to. -/
theorem disassemble_composes (table : OpcodeTable) (p : ListingPolicy) (current : Option Nat) :
    (∀ (title : String) (members : NameMap CodeObject),
      Composes title members table p current) ∧
    ∀ (unit : CodeObject) (start : Nat), p.startLine = some start →
      unit.lineTable.maxLine?.getD 0 < start → ∀ {σ : Type} (sink : Sink σ) (s : σ),
        (disassemble (.code unit) table p current).writeTo sink s =
          (.error (.startLineOutOfRange start (unit.lineTable.maxLine?.getD 0)), s) := by
  constructor
  · intro title members
    constructor
    case collect_eq => exact collect_container title members table p current
    case ascending => exact members.sorted.imp Text.utf8Bytes_lt_of_lt
    case around =>
      intro members' name h
      obtain ⟨front, back, hother, hmembers, hmembers'⟩ := NameMap.exists_toList_around h
      refine ⟨front, back, hother, ?_⟩
      simp only [collect_container, List.mem_cons, List.not_mem_nil, or_false, forall_eq_or_imp,
        forall_eq]
      exact ⟨containerText_eq_of_toList hmembers, containerText_eq_of_toList hmembers'⟩
  · intro unit start hstart hlt σ sink s
    have hcheck : checkStartLine unit p =
        .error (.startLineOutOfRange start (unit.lineTable.maxLine?.getD 0)) := by
      rw [checkStartLine, hstart]
      exact if_pos hlt
    rw [disassemble, hcheck]
    rfl

/-- A code object of a stream alone. -/
def unlined (code : List UInt8) : CodeObject := { CodeObject.empty with code }

/-- A container of a member that returns at once, and one that ends within its second
instruction. -/
def brokenMember : NameMap CodeObject :=
  .ofList [("b", unlined [83]), ("a", unlined [9, 100])]

/-- A listing without colours. -/
def plainly : ListingPolicy := { ListingPolicy.unbounded with highlight := .plain }

/-- The row in front of the failure is written, the failure is reported, and the other member is
listed all the same; once the member is mended, the text due to the other one is as before. A code
object without lines is not listed from the first line on. -/
theorem disassemble_composes_brokenMember :
    let table := RuntimeVersion.classic.table
    let mended := brokenMember.insert "a" (unlined [9, 83])
    (disassemble (.container "M" brokenMember) table plainly none).collect.2 =
        "Disassembly of M:\n           0 NOP                 \n" ++
          "** Sorry: a: offset 1: stream truncated, instruction needs 3 bytes but 1 remain\n\n" ++
          "           0 RETURN_VALUE        \n\n" ∧
      (∃ front back, (∀ m ∈ front ++ back, m.1 ≠ "a") ∧ ∀ ms ∈ [brokenMember, mended],
        (disassemble (.container "M" ms) table plainly none).collect.2 =
          containerText "M" table plainly front ++ memberTexts table plainly (ms.entry "a") ++
            memberTexts table plainly back) ∧
      (disassemble (.code (unlined [83])) table { plainly with startLine := some 1 }
          none).writeTo Recording.sink (.new []) =
        (.error (.startLineOutOfRange 1 0), .new []) := by
  intro table mended
  refine ⟨by decide +kernel, ?_, ?_⟩
  · have hcomposes := (disassemble_composes table plainly none).1 "M" brokenMember
    exact hcomposes.around mended "a" fun other hother =>
      (NameMap.find?_insert_of_ne _ hother).symm
  · exact (disassemble_composes table _ none).2 (unlined [83]) 1 rfl (by decide +kernel) _ _

end BytecodeDebugger
