import BytecodeDebugger.Proofs.Wire.Chunking
import BytecodeDebugger.Proofs.Wire.Header
import BytecodeDebugger.Wire.Writer

/-!
# Frames written and read

A writer that takes every byte puts the bytes of its frames one behind the other. Reading frames
from a stream that delivers these bytes, in whatever chunks, gives the frames back one by one, and
then says that the stream has ended, however often it is asked.

Main facts: `readFrame_of_delivers_header` (what comes of a header), `readFrame_of_delivers` (one
frame) and `readFrames_written` (all of them).
-/

namespace BytecodeDebugger

/-! ## Writing -/

namespace Frame

/-- The bytes of a frame. -/
def bytes (f : Frame) : List UInt8 := header f.body.length ++ f.body

/-- A frame that the header can tell the length of is encoded as its bytes. -/
theorem encode_of_le {f : Frame} (h : f.body.length ≤ maxBodyLength) : f.encode = .ok f.bytes :=
  if_neg (Nat.not_lt_of_le h)

end Frame

namespace Writer

theorem writeAll_of_capacity_none {w : Writer} (hw : w.capacity = none) (bytes : List UInt8) :
    w.writeAll bytes = (.ok (), { w with written := w.written ++ bytes }) := by
  simp [writeAll, accepted, hw]

/-- A writer without a limit takes a frame, and goes on without a limit. -/
theorem writeFrame_of_capacity_none {w : Writer} {f : Frame} (hw : w.capacity = none)
    (hf : f.body.length ≤ maxBodyLength) :
    w.writeFrame f =
      (.ok (), { w with written := w.written ++ f.bytes, flushes := w.flushes + 1 }) := by
  rw [writeFrame, Frame.encode_of_le hf]
  simp only [writeAll_of_capacity_none hw]
  rfl

/-- A writer without a limit takes frames, and puts their bytes one behind the other. -/
theorem writeFrames_of_capacity_none {w : Writer} {frames : List Frame} (hw : w.capacity = none)
    (hf : ∀ f ∈ frames, f.body.length ≤ maxBodyLength) :
    (w.writeFrames frames).1 = frames.map (fun _ => .ok ()) ∧
      (w.writeFrames frames).2.written = w.written ++ frames.flatMap Frame.bytes := by
  induction frames generalizing w with
  | nil => exact ⟨rfl, by simp [writeFrames]⟩
  | cons f rest ih =>
    have hfirst := writeFrame_of_capacity_none hw (hf f List.mem_cons_self)
    have hrest := fun g hg => hf g (List.mem_cons_of_mem f hg)
    let after : Writer := { w with written := w.written ++ f.bytes, flushes := w.flushes + 1 }
    obtain ⟨hresults, hwritten⟩ := ih (w := after) hw hrest
    refine ⟨?_, ?_⟩
    · simp only [writeFrames, hfirst, List.map_cons]
      rw [hresults]
    · simp only [writeFrames, hfirst, List.flatMap_cons]
      rw [hwritten, List.append_assoc]

end Writer

/-! ## Reading -/

/-- A stream that delivers nothing has ended. -/
theorem readFrame_of_delivers_nil {stream : List Chunk} (h : Delivers stream []) :
    ∃ rest, readFrame stream = (.ok none, rest) ∧ Delivers rest [] := by
  obtain ⟨rest, hread, hrest⟩ := readFull_of_delivers headerLength h
  rw [List.take_nil] at hread
  rw [List.drop_nil] at hrest
  exact ⟨rest, by simp only [readFrame, hread], hrest⟩

/-- Reading a frame from a stream that delivers a header and then other bytes. -/
theorem readFrame_of_delivers_header {n : Nat} {stream : List Chunk} {follow : List UInt8}
    (hn : n ≤ maxBodyLength) (h : Delivers stream (Frame.header n ++ follow)) :
    ∃ rest, Delivers rest (follow.drop n) ∧
      readFrame stream =
        if follow.length < n then (.error (.truncated n follow.length), rest)
        else ((Frame.ofBody (follow.take n)).map some, rest) := by
  have hlen : (Frame.header n).length = headerLength := Frame.length_header hn
  have hdigits : (Frame.header n).all isDigitByte = true :=
    List.all_eq_true.2 fun b hb => Frame.isDigitByte_of_mem_header hb
  have hnumber : numberOfDigits (Frame.header n) = n := Frame.numberOfDigits_header n
  -- the first five bytes are the header, whatever chunks they come in
  obtain ⟨middle, hheader, hmiddle⟩ := readFull_of_delivers headerLength h
  rw [List.take_left' hlen] at hheader
  rw [List.drop_left' hlen] at hmiddle
  -- the header spells the length of the body, so the next bytes are the body, as far as they go
  obtain ⟨rest, hbody, hrest⟩ := readFull_of_delivers n hmiddle
  have htake : (follow.take n).length < n ↔ follow.length < n := by
    rw [List.length_take]
    omega
  refine ⟨rest, hrest, ?_⟩
  generalize Frame.header n = header at hlen hdigits hnumber hheader
  cases header with
  | nil => exact absurd hlen (by decide)
  | cons d ds =>
    simp only [readFrame, hheader, hlen, Nat.lt_irrefl, if_false, hdigits, if_true, hnumber, hbody,
      htake]
    by_cases hlt : follow.length < n
    · rw [if_pos hlt, if_pos hlt, List.take_of_length_le (Nat.le_of_lt hlt)]
    · rw [if_neg hlt, if_neg hlt]
      cases Frame.ofBody (follow.take n) <;> rfl

/-- A frame is read from the front of a stream, and nothing behind it is touched. -/
theorem readFrame_of_delivers {f : Frame} {stream : List Chunk} {more : List UInt8}
    (hf : f.body.length ≤ maxBodyLength) (h : Delivers stream (f.bytes ++ more)) :
    ∃ rest, readFrame stream = (.ok (some f), rest) ∧ Delivers rest more := by
  rw [Frame.bytes, List.append_assoc] at h
  obtain ⟨rest, hrest, hread⟩ := readFrame_of_delivers_header hf h
  have hall : ¬(f.body ++ more).length < f.body.length := by simp
  rw [List.drop_left] at hrest
  rw [if_neg hall, List.take_left, Frame.ofBody_body] at hread
  exact ⟨rest, hread, hrest⟩

/-- The results of reading so many frames one after the other, and the stream after them. -/
def readFrames : (count : Nat) → List Chunk → List (Except FrameError (Option Frame)) × List Chunk
  | 0, stream => ([], stream)
  | count + 1, stream =>
    let (r, stream) := readFrame stream
    let (rs, stream) := readFrames count stream
    (r :: rs, stream)

/-- Once the stream has ended, every further reading says so. -/
theorem readFrames_of_delivers_nil {stream : List Chunk} (h : Delivers stream []) (count : Nat) :
    (readFrames count stream).1 = List.replicate count (.ok none) := by
  induction count generalizing stream with
  | zero => rfl
  | succ count ih =>
    obtain ⟨rest, hread, hrest⟩ := readFrame_of_delivers_nil h
    simp only [readFrames, hread, List.replicate_succ]
    rw [ih hrest]

/-- Frames are read from a stream that begins with their bytes, and then what stands behind them. -/
theorem readFrames_of_delivers_append {frames : List Frame} {stream : List Chunk}
    {more : List UInt8} (hf : ∀ f ∈ frames, f.body.length ≤ maxBodyLength)
    (h : Delivers stream (frames.flatMap Frame.bytes ++ more)) (further : Nat) :
    ∃ rest, Delivers rest more ∧
      (readFrames (frames.length + further) stream).1 =
        frames.map (fun f => .ok (some f)) ++ (readFrames further rest).1 := by
  induction frames generalizing stream with
  | nil => exact ⟨stream, h, by rw [List.length_nil, Nat.zero_add, List.map_nil, List.nil_append]⟩
  | cons f frames ih =>
    rw [List.flatMap_cons, List.append_assoc] at h
    obtain ⟨behind, hread, hbehind⟩ := readFrame_of_delivers (hf f List.mem_cons_self) h
    obtain ⟨rest, hrest, hreads⟩ := ih (fun g hg => hf g (List.mem_cons_of_mem f hg)) hbehind
    have hcount : (f :: frames).length + further = frames.length + further + 1 := by
      rw [List.length_cons]
      omega
    refine ⟨rest, hrest, ?_⟩
    rw [hcount]
    simp only [readFrames, hread, List.map_cons, List.cons_append]
    rw [hreads]

/-- Frames are read from a stream that delivers their bytes, and then the end of the stream. -/
theorem readFrames_of_delivers {frames : List Frame} {stream : List Chunk}
    (hf : ∀ f ∈ frames, f.body.length ≤ maxBodyLength)
    (h : Delivers stream (frames.flatMap Frame.bytes)) (further : Nat) :
    (readFrames (frames.length + further) stream).1 =
      frames.map (fun f => .ok (some f)) ++ List.replicate further (.ok none) := by
  rw [← List.append_nil (frames.flatMap Frame.bytes)] at h
  obtain ⟨rest, hrest, hreads⟩ := readFrames_of_delivers_append hf h further
  rw [hreads, readFrames_of_delivers_nil hrest]

/-- Frames that the header can tell the length of are all written, and a stream that delivers what
was written yields exactly these frames in their order and then its end, at every further reading:
whatever the chunks are and wherever calls are interrupted. -/
theorem readFrames_written {frames : List Frame}
    (hf : ∀ f ∈ frames, f.body.length ≤ maxBodyLength) :
    ((Writer.new none).writeFrames frames).1 = frames.map (fun _ => .ok ()) ∧
      ∀ stream, Delivers stream ((Writer.new none).writeFrames frames).2.written →
        ∀ further, (readFrames (frames.length + further) stream).1 =
          frames.map (fun f => .ok (some f)) ++ List.replicate further (.ok none) := by
  obtain ⟨hresults, hwritten⟩ := Writer.writeFrames_of_capacity_none (w := .new none) rfl hf
  refine ⟨hresults, ?_⟩
  intro stream hstream further
  rw [hwritten] at hstream
  exact readFrames_of_delivers hf hstream further

/-- A prompt and its answer, cut inside both headers and inside a character, with interrupted calls
in front of a chunk and at the end. -/
theorem readFrames_prompt_and_answer :
    (readFrames 4
      [.fail ⟨.interrupted, ""⟩, .data [48, 48], .data [48, 48, 51, 63, 62],
        .fail ⟨.interrupted, ""⟩, .data [32, 48], .data [48, 48, 48, 51, 33, 195], .data [169],
        .fail ⟨.interrupted, ""⟩]).1 =
      [.ok (some ⟨63, "> "⟩), .ok (some ⟨33, "é"⟩), .ok none, .ok none] := by
  have hf : ∀ f ∈ [Frame.mk 63 "> ", Frame.mk 33 "é"], f.body.length ≤ maxBodyLength := by
    decide +kernel
  refine (readFrames_written hf).2 _ ⟨?_, ?_⟩ 2
  · simp [Chunk.IsSound, IoError.isInterrupted]
  · decide +kernel

end BytecodeDebugger
