import BytecodeDebugger.Proofs.Decode.Units
import Mathlib.Tactic.Common

/-!
# Reading a stream by offsets

A second reader of steps, which keeps the whole stream and looks at its bytes by their offsets. It
comes to nothing as soon as it looks at a byte that is not there. It always comes to something, and
to the same as the reader that takes the stream apart: so no step is read from bytes outside the
stream.

Main facts: `readAt?_eq_some` (a step) and `readAllAt?_eq_some` (all of them).
-/

namespace BytecodeDebugger

open Text (offsetLimit)

/-- So many bytes from an offset on, unless one of them lies outside the stream. -/
def slice? (bytes : List UInt8) (first count : Nat) : Option (List UInt8) :=
  if first + count ≤ bytes.length then some ((bytes.drop first).take count) else none

/-- A slice that ends in the stream is there. -/
theorem slice?_of_le {bytes : List UInt8} {first count : Nat} (h : first + count ≤ bytes.length) :
    slice? bytes first count = some ((bytes.drop first).take count) := if_pos h

namespace Step

/-- Reads the step that starts at `start`, with its unit at hand at `pos`; nothing if a byte is
looked at that lies outside the stream. -/
def readAt? (table : OpcodeTable) (lines : LineTable) (bytes : List UInt8) (start pos held : Nat)
    (line : Option Nat) : Option (Except DecodeError Step) :=
  if h : pos < bytes.length then
    let opcode := bytes[pos]
    let line := (lines.lineStart? pos).or line
    let kind := table.kind opcode
    let size := table.format.instructionSize kind
    let available := bytes.length - pos
    if available < size then some (.error (.truncated pos size available))
    else if kind.hasOperand then
      match slice? bytes (pos + 1) (size - 1) with
      | none => none
      | some unit =>
        let value := littleEndian unit + held
        if offsetLimit ≤ value then some (.error (.operandOverflow pos))
        else if opcode = table.extendedArg then
          if offsetLimit ≤ value * table.format.extendMultiplier then
            some (.error (.operandOverflow pos))
          else if bytes.length ≤ pos + size then
            some (.ok ⟨start, pos + size, opcode, some value, line⟩)
          else
            readAt? table lines bytes start (pos + size) (value * table.format.extendMultiplier)
              line
        else some (.ok ⟨start, pos + size, opcode, some value, line⟩)
    else some (.ok ⟨start, pos + size, opcode, none, line⟩)
  else none
termination_by bytes.length - pos
decreasing_by
  have hsize := table.format.instructionSize_pos (table.kind bytes[pos])
  omega

/-- A step is read without looking outside the stream, and is the one that is read from the bytes
that are left. -/
theorem readAt?_eq_some {table : OpcodeTable} {lines : LineTable} {bytes tail : List UInt8}
    {start pos held : Nat} {line : Option Nat} {opcode : UInt8}
    (h : bytes.drop pos = opcode :: tail) :
    readAt? table lines bytes start pos held line =
      some (read table lines start pos held line opcode tail) := by
  -- the induction is on the bytes that are left, which every prefix makes fewer
  induction hn : tail.length using Nat.strongRecOn
    generalizing pos held line opcode tail with
  | _ n ih =>
    have hpos : pos < bytes.length := by
      have := congrArg List.length h
      rw [List.length_drop, List.length_cons] at this
      omega
    obtain ⟨hopcode, htail⟩ := List.cons.inj ((List.drop_eq_getElem_cons hpos).symm.trans h)
    have hlen : bytes.length - pos = tail.length + 1 := by
      rw [← htail, List.length_drop]
      omega
    have hsize := table.format.instructionSize_pos (table.kind opcode)
    rw [readAt?, dif_pos hpos, read_eq]
    simp only [hopcode, hlen]
    by_cases hshort : tail.length + 1 < table.format.instructionSize (table.kind opcode)
    · rw [if_pos hshort, if_pos hshort]
    · rw [if_neg hshort, if_neg hshort, slice?_of_le (by omega), htail]
      by_cases hk : (table.kind opcode).hasOperand = true
      · rw [if_pos hk, if_pos hk]
        dsimp only
        generalize littleEndian _ + held = value
        by_cases hv : offsetLimit ≤ value
        · rw [if_pos hv, if_pos hv]
        · rw [if_neg hv, if_neg hv]
          by_cases hext : opcode = table.extendedArg
          · rw [if_pos hext, if_pos hext]
            by_cases hm : offsetLimit ≤ value * table.format.extendMultiplier
            · rw [if_pos hm, if_pos hm]
            · rw [if_neg hm, if_neg hm]
              have hdrop : bytes.drop (pos + table.format.instructionSize (table.kind opcode)) =
                  tail.drop (table.format.instructionSize (table.kind opcode) - 1) := by
                rw [← htail, List.drop_drop]
                congr 1
                omega
              cases hnext : tail.drop (table.format.instructionSize (table.kind opcode) - 1) with
              | nil =>
                rw [hnext, List.drop_eq_nil_iff] at hdrop
                rw [if_pos hdrop]
              | cons next more =>
                rw [hnext] at hdrop
                have hfewer := congrArg List.length hnext
                rw [List.length_drop, List.length_cons] at hfewer
                have hmore :
                    ¬bytes.length ≤ pos + table.format.instructionSize (table.kind opcode) := by
                  omega
                rw [if_neg hmore]
                exact ih more.length (by omega) hdrop rfl
          · rw [if_neg hext, if_neg hext]
      · rw [if_neg hk, if_neg hk]

/-- Reads the steps from an offset on; nothing if a byte is looked at that lies outside the stream,
or if a step does not get on, so that reading would never end. -/
def readAllAt? (table : OpcodeTable) (lines : LineTable) (bytes : List UInt8) (pos : Nat) :
    Option (Trace Step) :=
  if bytes.length ≤ pos then some ⟨[], none⟩
  else
    match readAt? table lines bytes pos pos 0 none with
    | none => none
    | some (.error e) => some ⟨[], some e⟩
    | some (.ok s) =>
      if pos < s.stop then (readAllAt? table lines bytes s.stop).map (Trace.cons s) else none
termination_by bytes.length - pos

/-- The steps are read without looking outside the stream and without standing still, and are those
that are read from the bytes that are left. -/
theorem readAllAt?_eq_some (table : OpcodeTable) (lines : LineTable) (bytes : List UInt8)
    (pos : Nat) :
    readAllAt? table lines bytes pos = some (readAll table lines pos (bytes.drop pos)) := by
  -- the induction is on the bytes that are left, which every step makes fewer
  induction hn : bytes.length - pos using Nat.strongRecOn generalizing pos with
  | _ n ih =>
    rw [readAllAt?]
    by_cases hpos : bytes.length ≤ pos
    · rw [if_pos hpos, List.drop_of_length_le hpos, readAll]
    · rw [if_neg hpos]
      have hdrop := List.drop_eq_getElem_cons (Nat.lt_of_not_le hpos)
      rw [readAt?_eq_some hdrop, hdrop, readAll]
      cases hread : read table lines pos pos 0 none bytes[pos] (bytes.drop (pos + 1)) with
      | error e => rfl
      | ok s =>
        have hlt : pos < s.stop := (start_eq_and_lt_stop_of_read hread).2
        have hrest : (bytes.drop (pos + 1)).drop (s.stop - pos - 1) = bytes.drop s.stop := by
          rw [List.drop_drop]
          congr 1
          omega
        simp only [if_pos hlt, hrest]
        rw [ih (bytes.length - s.stop) (by omega) s.stop rfl]
        rfl

end Step

end BytecodeDebugger
