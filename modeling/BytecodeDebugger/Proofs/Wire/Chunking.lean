import BytecodeDebugger.Wire.Reader
import Mathlib.Tactic.Common

/-!
# Streams in chunks

How a stream is cut into chunks, and how often a call on it is interrupted, makes no difference to
what is read from it: collecting a number of bytes yields the first bytes of the stream, and leaves
a stream that delivers the others.

Main fact: `readFull_of_delivers`.
-/

namespace BytecodeDebugger

namespace Chunk

/-- The bytes that come with a chunk. -/
def bytes : Chunk → List UInt8
  | .data bs => bs
  | .fail _ => []

/-- A chunk of a stream that works: it brings a byte, or asks for the call to be repeated. -/
def IsSound : Chunk → Prop
  | .data bs => bs ≠ []
  | .fail e => e.isInterrupted = true

end Chunk

/-- The stream delivers the bytes and then ends: they come in chunks of any size, with any number of
interrupted calls before, between and after them. -/
structure Delivers (stream : List Chunk) (bytes : List UInt8) : Prop where
  sound : ∀ c ∈ stream, c.IsSound
  bytes_eq : stream.flatMap Chunk.bytes = bytes

namespace Delivers

variable {stream : List Chunk} {bytes bs : List UInt8} {c : Chunk}

theorem nil : Delivers [] [] := ⟨by simp, rfl⟩

theorem eq_nil (h : Delivers [] bytes) : bytes = [] := h.bytes_eq.symm

/-- The chunks after the first one deliver the bytes after its own. -/
theorem tail (h : Delivers (c :: stream) bytes) :
    ∃ more, bytes = c.bytes ++ more ∧ Delivers stream more := by
  refine ⟨stream.flatMap Chunk.bytes, ?_, ?_, rfl⟩
  · rw [← h.bytes_eq, List.flatMap_cons]
  · intro d hd
    exact h.sound d (List.mem_cons_of_mem c hd)

/-- A chunk of bytes in front delivers them first. -/
theorem cons_data (hne : bs ≠ []) (h : Delivers stream bytes) :
    Delivers (.data bs :: stream) (bs ++ bytes) := by
  refine ⟨?_, ?_⟩
  · intro d hd
    rcases List.mem_cons.1 hd with rfl | hd
    · exact hne
    · exact h.sound d hd
  · rw [List.flatMap_cons, h.bytes_eq]
    rfl

end Delivers

/-- Asking for no byte leaves the stream as it is. -/
@[simp] theorem readFull_zero (stream : List Chunk) : readFull 0 stream = (.ok [], stream) := by
  cases stream with
  | nil => rfl
  | cons c rest => cases c <;> simp [readFull]

/-- Collecting bytes of a stream yields its first bytes, or all of them if there are fewer, and
leaves the others. -/
theorem readFull_of_delivers {stream : List Chunk} {bytes : List UInt8} (n : Nat)
    (h : Delivers stream bytes) :
    ∃ rest, readFull n stream = (.ok (bytes.take n), rest) ∧ Delivers rest (bytes.drop n) := by
  induction stream generalizing n bytes with
  | nil =>
    rw [h.eq_nil, List.take_nil, List.drop_nil]
    exact ⟨[], rfl, .nil⟩
  | cons c stream ih =>
    by_cases hn : n = 0
    · subst hn
      exact ⟨c :: stream, by simp, by simpa using h⟩
    · obtain ⟨more, rfl, hmore⟩ := h.tail
      have hc : c.IsSound := h.sound c List.mem_cons_self
      cases c with
      | fail e =>
        have he : e.isInterrupted = true := hc
        simp only [readFull, if_neg hn, if_pos he, Chunk.bytes, List.nil_append]
        exact ih n hmore
      | data bs =>
        have hne : bs ≠ [] := hc
        simp only [readFull, if_neg hn, if_neg hne, Chunk.bytes]
        by_cases hlt : n < bs.length
        · -- the chunk holds more than is asked for, and its rest stays in front
          have hrest : bs.drop n ≠ [] := by
            intro hnil
            have := List.drop_eq_nil_iff.1 hnil
            omega
          refine ⟨.data (bs.drop n) :: stream, ?_, ?_⟩
          · rw [if_pos hlt, List.take_append_of_le_length (by omega)]
          · rw [List.drop_append_of_le_length (by omega)]
            exact .cons_data hrest hmore
        · obtain ⟨rest, hread, hdel⟩ := ih (n - bs.length) hmore
          refine ⟨rest, ?_, ?_⟩
          · have htake : bs.take n = bs := List.take_of_length_le (by omega)
            rw [if_neg hlt, hread, List.take_append, htake]
          · rw [List.drop_append, List.drop_of_length_le (by omega), List.nil_append]
            exact hdel

end BytecodeDebugger
