import BytecodeDebugger.Wire.Frame

/-!
# Writing frames

A writer takes bytes up to a capacity and counts how often it was flushed. A frame is encoded as a
whole before its first byte is written, and the writer is flushed after its last one.

Main facts: `written_writeAll` (what a call leaves behind) and `flushes_writeFrame_of_ok` (a written
frame costs one flush).
-/

namespace BytecodeDebugger

/-- A writer and what it has taken so far. -/
structure Writer where
  written : List UInt8
  /-- How many bytes it takes in all, if there is a limit. -/
  capacity : Option Nat
  flushes : Nat
  deriving DecidableEq, Repr

namespace Writer

/-- A writer that has taken nothing yet. -/
def new (capacity : Option Nat) : Writer := ⟨[], capacity, 0⟩

/-- The bytes of a sequence that still fit. -/
def accepted (w : Writer) (bytes : List UInt8) : List UInt8 :=
  match w.capacity with
  | none => bytes
  | some c => bytes.take (c - w.written.length)

/-- Writes all bytes, or those that fit and then fails. -/
def writeAll (w : Writer) (bytes : List UInt8) : Except IoError Unit × Writer :=
  let taken := w.accepted bytes
  (if taken.length = bytes.length then .ok () else .error .writeZero,
    { w with written := w.written ++ taken })

/-- Hands the bytes on. -/
def flush (w : Writer) : Writer := { w with flushes := w.flushes + 1 }

/-- Writes one frame and flushes. -/
def writeFrame (w : Writer) (f : Frame) : Except FrameError Unit × Writer :=
  match f.encode with
  | .error e => (.error e, w)
  | .ok bytes =>
    match w.writeAll bytes with
    | (.error e, w) => (.error (.io e), w)
    | (.ok (), w) => (.ok (), w.flush)

/-- The results of writing frames one after the other, and the writer after them. -/
def writeFrames (w : Writer) : List Frame → List (Except FrameError Unit) × Writer
  | [] => ([], w)
  | f :: rest =>
    let (r, w) := w.writeFrame f
    let (rs, w) := writeFrames w rest
    (r :: rs, w)

/-- A call leaves the bytes that fit behind those before. -/
theorem written_writeAll (w : Writer) (bytes : List UInt8) :
    (w.writeAll bytes).2.written = w.written ++ w.accepted bytes := rfl

/-- A written frame costs one flush. -/
theorem flushes_writeFrame_of_ok {w : Writer} {f : Frame} (h : (w.writeFrame f).1 = .ok ()) :
    (w.writeFrame f).2.flushes = w.flushes + 1 := by
  unfold writeFrame at h ⊢
  split
  · next heq => simp [heq] at h
  · next bytes heq =>
    simp only [heq] at h
    split
    · next hw => simp [hw] at h
    · next w' hw =>
      have : w'.flushes = w.flushes := by
        have := congrArg (fun p => p.2.flushes) hw
        simpa [writeAll] using this.symm
      simp [flush, this]

end Writer

end BytecodeDebugger
