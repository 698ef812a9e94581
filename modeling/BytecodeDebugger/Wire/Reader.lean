import BytecodeDebugger.Wire.Frame

/-!
# Reading frames

A stream delivers its bytes in chunks of any size, and a call on it can fail. `readFull` collects a
number of bytes across chunks, repeating interrupted calls; `readFrame` reads one frame with it. The
stream may end between two frames, but not inside one.

Main fact: `length_readFull_le` (no more bytes are collected than were asked for).
-/

namespace BytecodeDebugger

/-- What a stream delivers next. -/
inductive Chunk where
  | data (bytes : List UInt8)
  | fail (e : IoError)
  deriving DecidableEq, Repr

/-- Up to `n` bytes, fewer only if the stream ends, and the stream after them. One call on the
stream yields bytes of one chunk; an empty chunk is an end for that call. -/
def readFull (n : Nat) : List Chunk → Except IoError (List UInt8) × List Chunk
  | [] => (.ok [], [])
  | .fail e :: rest =>
    if n = 0 then (.ok [], .fail e :: rest)
    else if e.isInterrupted then readFull n rest
    else (.error e, rest)
  | .data bytes :: rest =>
    if n = 0 then (.ok [], .data bytes :: rest)
    else if bytes = [] then (.ok [], rest)
    else if n < bytes.length then (.ok (bytes.take n), .data (bytes.drop n) :: rest)
    else
      match readFull (n - bytes.length) rest with
      | (.ok more, rest) => (.ok (bytes ++ more), rest)
      | (.error e, rest) => (.error e, rest)

/-- Whether a byte is a decimal digit. -/
def isDigitByte (b : UInt8) : Bool := 48 ≤ b.toNat && b.toNat ≤ 57

/-- The number that digit bytes spell. -/
def numberOfDigits (bytes : List UInt8) : Nat :=
  bytes.foldl (fun n b => n * 10 + (b.toNat - 48)) 0

/-- One frame, or nothing if the stream ends before it, and the stream after it. -/
def readFrame (stream : List Chunk) : Except FrameError (Option Frame) × List Chunk :=
  match readFull headerLength stream with
  | (.error e, rest) => (.error (.io e), rest)
  | (.ok [], rest) => (.ok none, rest)
  | (.ok header, rest) =>
    if header.length < headerLength then (.error (.truncated headerLength header.length), rest)
    else if header.all isDigitByte then
      let n := numberOfDigits header
      match readFull n rest with
      | (.error e, rest) => (.error (.io e), rest)
      | (.ok body, rest) =>
        if body.length < n then (.error (.truncated n body.length), rest)
        else
          match Frame.ofBody body with
          | .error e => (.error e, rest)
          | .ok f => (.ok (some f), rest)
    else (.error (.badHeader (Text.ofUtf8Lossy header)), rest)

/-- No more bytes are collected than were asked for. -/
theorem length_readFull_le {n : Nat} {stream rest : List Chunk} {bytes : List UInt8}
    (h : readFull n stream = (.ok bytes, rest)) : bytes.length ≤ n := by
  induction stream generalizing n bytes rest with
  | nil =>
    obtain ⟨rfl, -⟩ : [] = bytes ∧ [] = rest := by simpa [readFull] using h
    simp
  | cons c more ih =>
    cases c with
    | fail e =>
      simp only [readFull] at h
      split at h
      · obtain ⟨h, -⟩ := Prod.mk.inj h
        cases h
        simp
      · split at h
        · exact ih h
        · simp at h
    | data bs =>
      simp only [readFull] at h
      split at h
      · obtain ⟨h, -⟩ := Prod.mk.inj h
        cases h
        simp
      · split at h
        · obtain ⟨h, -⟩ := Prod.mk.inj h
          cases h
          simp
        · split at h
          · obtain ⟨h, -⟩ := Prod.mk.inj h
            cases h
            rw [List.length_take]
            omega
          · split at h
            · next heq =>
              have := ih heq
              obtain ⟨h, -⟩ := Prod.mk.inj h
              cases h
              simp
              omega
            · simp at h

end BytecodeDebugger
