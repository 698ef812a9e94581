import BytecodeDebugger.Proofs.Wire.Grammar
import Mathlib.Data.List.TakeDrop

/-!
# Frames and a writer that fills up

A writer that takes only so many bytes in all can fail at any byte of a frame. What it has taken
then are the frames that were written, whole and in order, and behind them the first bytes of the
frame that failed first. It is full from there on, so no later frame is written. A frame that is too
long is refused before its first byte and makes no difference to the others. A reader gets the whole
frames back and notices the torn one.

Main facts: `takesInCalls_iff` (how many bytes a call takes makes no difference),
`writesFrame_writeFrame` (what can become of one frame), `exists_torn_writeFrames` (what is taken of
all of them), `readFrames_of_delivers_torn` (what a reader gets) and
`writeFrames_keeps_whole_frames`.
-/

namespace BytecodeDebugger

/-! ## Bytes that fit -/

namespace Writer

variable {w w' : Writer} {bytes : List UInt8}

/-- The writer with further bytes taken. -/
def take (w : Writer) (bytes : List UInt8) : Writer := { w with written := w.written ++ bytes }

/-- The writer takes no byte any more. -/
def IsFull (w : Writer) : Prop := ∀ bytes, w.accepted bytes = []

@[simp] theorem take_nil (w : Writer) : w.take [] = w := by simp [take]

@[simp] theorem accepted_nil (w : Writer) : w.accepted [] = [] := by
  unfold accepted
  split <;> simp

/-- Bytes all fit if the capacity is not exceeded by them. -/
theorem accepted_eq_self_iff (hne : bytes ≠ []) :
    w.accepted bytes = bytes ↔ ∀ c ∈ w.capacity, w.written.length + bytes.length ≤ c := by
  cases hc : w.capacity with
  | none => simp [accepted, hc]
  | some c =>
    have hpos := List.length_pos_iff.2 hne
    simp only [accepted, hc, List.take_eq_self_iff, Option.mem_some_iff, forall_eq']
    omega

/-- The bytes that fit, offered again, all fit. -/
@[simp] theorem accepted_accepted (w : Writer) (bytes : List UInt8) :
    w.accepted (w.accepted bytes) = w.accepted bytes := by
  unfold accepted
  split
  · rfl
  · rw [List.take_take, Nat.min_self]

/-- Behind bytes that fit, the room is what they leave. -/
theorem accepted_append (h : w.accepted bytes = bytes) (more : List UInt8) :
    w.accepted (bytes ++ more) = bytes ++ (w.take bytes).accepted more := by
  cases hc : w.capacity with
  | none => simp [take, accepted, hc]
  | some c =>
    have hfit : bytes.length ≤ c - w.written.length := by
      have hlen := congrArg List.length h
      simp only [accepted, hc, List.length_take] at hlen
      omega
    simp [take, accepted, hc, List.take_append, List.take_of_length_le hfit, Nat.sub_sub]

/-- Some of the bytes fit; if there are others, the writer is full behind those. -/
theorem exists_accepted_append (w : Writer) (bytes : List UInt8) :
    ∃ rest, w.accepted bytes ++ rest = bytes ∧
      (rest ≠ [] → (w.take (w.accepted bytes)).IsFull) := by
  cases hc : w.capacity with
  | none => exact ⟨[], by simp [accepted, hc], fun h => absurd rfl h⟩
  | some c =>
    refine ⟨bytes.drop (c - w.written.length), by simp [accepted, hc], ?_⟩
    intro hrest more
    have hlt : c - w.written.length < bytes.length := by simpa using hrest
    have hroom : c - (w.written.length + (c - w.written.length)) = 0 := by omega
    simp [take, accepted, hc, Nat.min_eq_left (Nat.le_of_lt hlt), hroom]

/-- Bytes are written if they all fit; of others, those that fit are taken. -/
theorem writeAll_of_append {rest : List UInt8} (h : w.accepted bytes ++ rest = bytes) :
    w.writeAll bytes =
      (if rest = [] then .ok () else .error .writeZero, w.take (w.accepted bytes)) := by
  have hlen : (w.accepted bytes).length = bytes.length ↔ rest = [] := by
    rw [← h, List.length_append]
    simp [h]
  simp only [writeAll, hlen, take]

/-! ## Calls of any size -/

/-- Bytes are offered call by call until the writer has taken them all, or takes none. A call takes
some of the bytes that fit, as many as the writer likes but at least one. -/
inductive TakesInCalls : Writer → List UInt8 → Except IoError Unit → Writer → Prop
  | done (w : Writer) : TakesInCalls w [] (.ok ()) w
  | stuck {w : Writer} {bytes : List UInt8} (hne : bytes ≠ []) (hfull : w.accepted bytes = []) :
    TakesInCalls w bytes (.error .writeZero) w
  | call {w w' : Writer} {bytes more : List UInt8} {r : Except IoError Unit} (hne : bytes ≠ [])
    (hfit : w.accepted bytes = bytes) (hmore : TakesInCalls (w.take bytes) more r w') :
    TakesInCalls w (bytes ++ more) r w'

/-- Bytes that fit may be written beforehand. -/
theorem writeAll_append (h : w.accepted bytes = bytes) (more : List UInt8) :
    w.writeAll (bytes ++ more) = (w.take bytes).writeAll more := by
  obtain ⟨rest, hrest, -⟩ := exists_accepted_append (w.take bytes) more
  have hwhole : w.accepted (bytes ++ more) ++ rest = bytes ++ more := by
    rw [accepted_append h, List.append_assoc, hrest]
  rw [writeAll_of_append hrest, writeAll_of_append hwhole, accepted_append h]
  simp [take]

/-- All bytes can be taken in one call, or those that fit. -/
theorem takesInCalls_writeAll (w : Writer) (bytes : List UInt8) :
    TakesInCalls w bytes (w.writeAll bytes).1 (w.writeAll bytes).2 := by
  obtain ⟨rest, hrest, hfull⟩ := exists_accepted_append w bytes
  rw [writeAll_of_append hrest]
  have hbehind : TakesInCalls (w.take (w.accepted bytes)) rest
      (if rest = [] then .ok () else .error .writeZero) (w.take (w.accepted bytes)) := by
    by_cases hne : rest = []
    · rw [hne, if_pos rfl]
      exact .done _
    · rw [if_neg hne]
      exact .stuck hne (hfull hne rest)
  by_cases hne : w.accepted bytes = []
  · rw [hne, take_nil] at hbehind ⊢
    rw [hne, List.nil_append] at hrest
    rwa [hrest] at hbehind ⊢
  · have hcall := TakesInCalls.call hne (accepted_accepted w bytes) hbehind
    rwa [hrest] at hcall

/-- How many bytes each call takes makes no difference to what comes of them all. -/
theorem takesInCalls_iff {r : Except IoError Unit} :
    TakesInCalls w bytes r w' ↔ w.writeAll bytes = (r, w') := by
  constructor
  · intro h
    induction h with
    | done w => simp [writeAll]
    | stuck hne hfull => simp [writeAll, hfull, eq_comm, hne]
    | call hne hfit _ ih => rw [writeAll_append hfit, ih]
  · intro h
    have htakes := takesInCalls_writeAll w bytes
    rwa [h] at htakes

/-! ## One frame -/

/-- What can become of a frame: it is too long and refused at once, it fits and is written whole, or
its first bytes are all that the writer takes, now and from now on. -/
inductive WritesFrame (w : Writer) (f : Frame) : Except FrameError Unit → Writer → Prop
  | tooLong (hf : maxBodyLength < f.body.length) :
    WritesFrame w f (.error (.tooLong f.body.length)) w
  | whole (hf : f.body.length ≤ maxBodyLength) (hfit : w.accepted f.bytes = f.bytes) :
    WritesFrame w f (.ok ()) (w.take f.bytes).flush
  | torn {rest : List UInt8} (hf : f.body.length ≤ maxBodyLength) (hne : rest ≠ [])
    (hbytes : w.accepted f.bytes ++ rest = f.bytes) (hfull : (w.take (w.accepted f.bytes)).IsFull) :
    WritesFrame w f (.error (.io .writeZero)) (w.take (w.accepted f.bytes))

/-- Writing a frame comes to one of these. -/
theorem writesFrame_writeFrame (w : Writer) (f : Frame) :
    WritesFrame w f (w.writeFrame f).1 (w.writeFrame f).2 := by
  by_cases hf : f.body.length ≤ maxBodyLength
  · obtain ⟨rest, hrest, hfull⟩ := exists_accepted_append w f.bytes
    simp only [writeFrame, Frame.encode_of_le hf, writeAll_of_append hrest]
    by_cases hne : rest = []
    · have hfit : w.accepted f.bytes = f.bytes := by simpa [hne] using hrest
      rw [if_pos hne, hfit]
      exact .whole hf hfit
    · rw [if_neg hne]
      exact .torn hf hne hrest (hfull hne)
  · have hlt : maxBodyLength < f.body.length := Nat.lt_of_not_le hf
    simp only [writeFrame, Frame.encode, if_pos hlt]
    exact .tooLong hlt

namespace WritesFrame

variable {f : Frame} {result : Except FrameError Unit}

/-- A full writer takes no frame, and stays as it is. -/
theorem of_isFull (h : WritesFrame w f result w') (hfull : w.IsFull) :
    (∃ e, result = .error e) ∧ w' = w := by
  cases h with
  | tooLong => exact ⟨⟨_, rfl⟩, rfl⟩
  | whole _ hfit =>
    rw [hfull f.bytes] at hfit
    simp [Frame.bytes, Frame.body] at hfit
  | torn _ _ _ _ => exact ⟨⟨_, rfl⟩, by rw [hfull f.bytes, take_nil]⟩

/-- A frame is written exactly if the header can tell its length and it fits. -/
theorem eq_ok_iff (h : WritesFrame w f result w') :
    result = .ok () ↔ f.body.length ≤ maxBodyLength ∧
      ∀ c ∈ w.capacity, w.written.length + f.bytes.length ≤ c := by
  have hne : f.bytes ≠ [] := by simp [Frame.bytes, Frame.body]
  rw [← accepted_eq_self_iff hne]
  cases h with
  | tooLong hf => simp [Nat.not_le_of_lt hf]
  | whole hf hfit => simp [hf, hfit]
  | torn hf hrest hbytes _ =>
    have hcut : w.accepted f.bytes ≠ f.bytes := fun hfit =>
      hrest (by simpa [hfit] using hbytes)
    simp [hcut]

theorem capacity_eq (h : WritesFrame w f result w') : w'.capacity = w.capacity := by
  cases h <;> rfl

/-- A writer stays within its capacity. -/
theorem length_written_le {c : Nat} (h : WritesFrame w f result w') (hc : w.capacity = some c)
    (hle : w.written.length ≤ c) : w'.written.length ≤ c := by
  have htake : (w.take (w.accepted f.bytes)).written.length ≤ c := by
    simp only [take, accepted, hc, List.length_append, List.length_take]
    omega
  cases h with
  | tooLong => exact hle
  | whole _ hfit => rwa [hfit] at htake
  | torn _ _ _ _ => exact htake

end WritesFrame

/-! ## All frames -/

/-- The frames, each with what came of it. -/
def outcomes (w : Writer) (frames : List Frame) : List (Frame × Except FrameError Unit) :=
  frames.zip (w.writeFrames frames).1

@[simp] theorem outcomes_nil (w : Writer) : w.outcomes [] = [] := rfl

@[simp] theorem outcomes_cons (w : Writer) (f : Frame) (frames : List Frame) :
    w.outcomes (f :: frames) =
      (f, (w.writeFrame f).1) :: (w.writeFrame f).2.outcomes frames := rfl

/-- Something comes of each frame. -/
theorem map_fst_outcomes (w : Writer) (frames : List Frame) :
    (w.outcomes frames).map Prod.fst = frames := by
  induction frames generalizing w with
  | nil => rfl
  | cons f frames ih => rw [outcomes_cons, List.map_cons, ih]

theorem writeFrames_cons_snd (w : Writer) (f : Frame) (frames : List Frame) :
    (w.writeFrames (f :: frames)).2 = ((w.writeFrame f).2.writeFrames frames).2 := rfl

theorem capacity_writeFrames (w : Writer) (frames : List Frame) :
    (w.writeFrames frames).2.capacity = w.capacity := by
  induction frames generalizing w with
  | nil => rfl
  | cons f frames ih => rw [writeFrames_cons_snd, ih, (writesFrame_writeFrame w f).capacity_eq]

/-- What comes of further frames is up to the writer behind the first ones. -/
theorem outcomes_append (w : Writer) (front frames : List Frame) :
    w.outcomes (front ++ frames) =
      w.outcomes front ++ (w.writeFrames front).2.outcomes frames := by
  induction front generalizing w with
  | nil => rfl
  | cons f front ih =>
    rw [List.cons_append, outcomes_cons, outcomes_cons, ih, writeFrames_cons_snd, List.cons_append]

/-- A frame is written exactly if the header can tell its length and it fits behind what the writer
has taken by then. -/
theorem outcome_eq_ok_iff (w : Writer) (front : List Frame) (f : Frame) (back : List Frame) :
    (w.outcomes (front ++ f :: back))[front.length]? = some (f, .ok ()) ↔
      f.body.length ≤ maxBodyLength ∧
        ∀ c ∈ w.capacity, (w.writeFrames front).2.written.length + f.bytes.length ≤ c := by
  have hlength : (w.outcomes front).length = front.length := by
    rw [← List.length_map Prod.fst, map_fst_outcomes]
  have houtcome : (w.outcomes (front ++ f :: back))[front.length]? =
      some (f, ((w.writeFrames front).2.writeFrame f).1) := by
    rw [outcomes_append, outcomes_cons, ← hlength, List.getElem?_append_right (Nat.le_refl _),
      Nat.sub_self, List.getElem?_cons_zero]
  rw [houtcome, ← w.capacity_writeFrames front, ← (writesFrame_writeFrame _ f).eq_ok_iff]
  simp

end Writer

/-- The frames that were written. -/
def writtenFrames (outcomes : List (Frame × Except FrameError Unit)) : List Frame :=
  (outcomes.filter fun o => o.2.isOk).map Prod.fst

@[simp] theorem writtenFrames_cons_ok (f : Frame)
    (outcomes : List (Frame × Except FrameError Unit)) :
    writtenFrames ((f, .ok ()) :: outcomes) = f :: writtenFrames outcomes := rfl

@[simp] theorem writtenFrames_cons_error (f : Frame) (e : FrameError)
    (outcomes : List (Frame × Except FrameError Unit)) :
    writtenFrames ((f, .error e) :: outcomes) = writtenFrames outcomes := rfl

/-- Whether the writer failed. -/
def isWriteFailure : Except FrameError Unit → Bool
  | .error (.io _) => true
  | _ => false

/-- The first frame in which the writer failed. -/
def tornFrame? (outcomes : List (Frame × Except FrameError Unit)) : Option Frame :=
  (outcomes.find? fun o => isWriteFailure o.2).map Prod.fst

/-- What stands behind the whole frames: nothing, or the first bytes of the frame in which the
writer failed, and not all of them. -/
def IsTornFrom : Option Frame → List UInt8 → Prop
  | none, torn => torn = []
  | some f, torn => ∃ rest, rest ≠ [] ∧ f.encode = .ok (torn ++ rest)

namespace Writer

variable {w : Writer}

/-- A full writer takes no frames, and stays as it is. -/
theorem writeFrames_of_isFull (h : w.IsFull) (frames : List Frame) :
    writtenFrames (w.outcomes frames) = [] ∧ (w.writeFrames frames).2 = w := by
  induction frames with
  | nil => exact ⟨rfl, rfl⟩
  | cons f frames ih =>
    obtain ⟨⟨e, he⟩, hsame⟩ := (writesFrame_writeFrame w f).of_isFull h
    rw [outcomes_cons, writeFrames_cons_snd, he, hsame, writtenFrames_cons_error]
    exact ih

/-- Behind what was written before stand the written frames in their order and then nothing, or the
first bytes of the frame in which the writer failed. -/
theorem exists_torn_writeFrames (w : Writer) (frames : List Frame) :
    ∃ torn, IsTornFrom (tornFrame? (w.outcomes frames)) torn ∧
      (w.writeFrames frames).2.written =
        w.written ++ ((writtenFrames (w.outcomes frames)).flatMap Frame.bytes ++ torn) := by
  induction frames generalizing w with
  | nil => exact ⟨[], rfl, by simp [writeFrames, writtenFrames]⟩
  | cons f frames ih =>
    rw [outcomes_cons, writeFrames_cons_snd]
    have hfirst := writesFrame_writeFrame w f
    generalize (w.writeFrame f).1 = result, (w.writeFrame f).2 = after at hfirst
    cases hfirst with
    | tooLong _ =>
      obtain ⟨torn, htorn, hwritten⟩ := ih w
      exact ⟨torn, htorn, hwritten⟩
    | whole _ _ =>
      obtain ⟨torn, htorn, hwritten⟩ := ih (w.take f.bytes).flush
      refine ⟨torn, htorn, hwritten.trans ?_⟩
      simp [flush, take]
    | torn hf hne hbytes hfull =>
      -- the writer is full, so nothing comes behind the first bytes of this frame
      obtain ⟨hnone, hsame⟩ := writeFrames_of_isFull hfull frames
      refine ⟨_, ⟨_, hne, (Frame.encode_of_le hf).trans (congrArg _ hbytes.symm)⟩, ?_⟩
      rw [hsame, writtenFrames_cons_error, hnone]
      rfl

/-- The writer is flushed once for each written frame. -/
theorem flushes_writeFrames (w : Writer) (frames : List Frame) :
    (w.writeFrames frames).2.flushes =
      w.flushes + (writtenFrames (w.outcomes frames)).length := by
  induction frames generalizing w with
  | nil => rfl
  | cons f frames ih =>
    rw [outcomes_cons, writeFrames_cons_snd, ih]
    have hfirst := writesFrame_writeFrame w f
    generalize (w.writeFrame f).1 = result, (w.writeFrame f).2 = after at hfirst
    cases hfirst with
    | tooLong _ => rfl
    | whole _ _ =>
      have hflushes : (w.take f.bytes).flush.flushes = w.flushes + 1 := rfl
      rw [writtenFrames_cons_ok, List.length_cons, hflushes]
      omega
    | torn _ _ _ _ => rfl

/-- What the writer has taken stays within its capacity. -/
theorem length_written_writeFrames_le {c : Nat} (hc : w.capacity = some c)
    (h : w.written.length ≤ c) (frames : List Frame) :
    (w.writeFrames frames).2.written.length ≤ c := by
  induction frames generalizing w with
  | nil => exact h
  | cons f frames ih =>
    have hwrites := writesFrame_writeFrame w f
    exact ih (hwrites.capacity_eq.trans hc) (hwrites.length_written_le hc h)

/-- A frame is refused as too long exactly if the header cannot tell its length. -/
theorem tooLong_iff_of_mem_outcomes {frames : List Frame} {o : Frame × Except FrameError Unit}
    (h : o ∈ w.outcomes frames) :
    ((∃ n, o.2 = .error (.tooLong n)) ↔ maxBodyLength < o.1.body.length) := by
  induction frames generalizing w with
  | nil => simp at h
  | cons f frames ih =>
    rw [outcomes_cons, List.mem_cons] at h
    rcases h with rfl | h
    · have hfirst := writesFrame_writeFrame w f
      generalize (w.writeFrame f).1 = result, (w.writeFrame f).2 = after at hfirst
      cases hfirst with
      | tooLong hf => simp [hf]
      | whole hf _ => simp [hf]
      | torn hf _ _ _ => simp [hf]
    · exact ih h

/-- The header can tell the length of a written frame. -/
theorem length_body_le_of_mem_writtenFrames {frames : List Frame} {f : Frame}
    (h : f ∈ writtenFrames (w.outcomes frames)) : f.body.length ≤ maxBodyLength := by
  rw [writtenFrames, List.mem_map] at h
  obtain ⟨o, ho, rfl⟩ := h
  obtain ⟨hmem, hok⟩ := List.mem_filter.1 ho
  by_contra hlong
  obtain ⟨n, hn⟩ := (tooLong_iff_of_mem_outcomes hmem).2 (Nat.lt_of_not_le hlong)
  simp [hn, Except.isOk, Except.toBool] at hok

/-- Frames that are too long make no difference to the others. -/
theorem writeFrames_filter (w : Writer) (frames : List Frame) :
    w.outcomes (frames.filter fun f => f.body.length ≤ maxBodyLength) =
        (w.outcomes frames).filter (fun o => o.1.body.length ≤ maxBodyLength) ∧
      (w.writeFrames (frames.filter fun f => f.body.length ≤ maxBodyLength)).2 =
        (w.writeFrames frames).2 := by
  induction frames generalizing w with
  | nil => exact ⟨rfl, rfl⟩
  | cons f frames ih =>
    by_cases hf : f.body.length ≤ maxBodyLength
    · simp [hf, writeFrames_cons_snd, ih]
    · have hsame : (w.writeFrame f).2 = w := by
        rw [writeFrame, Frame.encode, if_pos (Nat.lt_of_not_le hf)]
      simp [hf, writeFrames_cons_snd, hsame, ih]

end Writer

/-! ## Reading what was written -/

/-- What is wrong with the first bytes of a frame. -/
def Frame.cutAt (f : Frame) (n : Nat) : FrameError :=
  if n < headerLength then .truncated headerLength n
  else .truncated f.body.length (n - headerLength)

/-- What reading says behind the whole frames: the stream has ended, between two frames or inside
one. -/
def lastReading (frame? : Option Frame) (torn : List UInt8) :
    Except FrameError (Option Frame) :=
  match frame? with
  | none => .ok none
  | some f => if torn = [] then .ok none else .error (f.cutAt torn.length)

/-- The first bytes of a frame begin no frame. -/
theorem firstFrame_of_append_eq_bytes {f : Frame} {front rest : List UInt8}
    (hf : f.body.length ≤ maxBodyLength) (hfront : front ≠ []) (hrest : rest ≠ [])
    (h : front ++ rest = f.bytes) : FirstFrame front (.error (f.cutAt front.length)) [] := by
  have hheader : (Frame.header f.body.length).length = headerLength := Frame.length_header hf
  by_cases hlt : front.length < headerLength
  · rw [Frame.cutAt, if_pos hlt]
    exact .headerCut hfront hlt
  · -- the header is whole, so what is missing is missing from the body
    have hwhole : Frame.header f.body.length <+: front ++ rest := by
      rw [h, Frame.bytes]
      exact List.prefix_append _ _
    have hle : (Frame.header f.body.length).length ≤ front.length := by
      rw [hheader]
      exact Nat.le_of_not_lt hlt
    obtain ⟨body, rfl⟩ :=
      List.prefix_of_prefix_length_le hwhole (List.prefix_append front rest) hle
    have hbody : body ++ rest = f.body := by
      rw [Frame.bytes, List.append_assoc] at h
      exact List.append_cancel_left h
    have hcut : body.length < f.body.length := by
      rw [← hbody, List.length_append]
      have := List.length_pos_iff.2 hrest
      omega
    rw [Frame.cutAt, if_neg hlt, List.length_append, hheader, Nat.add_sub_cancel_left]
    exact .bodyCut hf hcut

/-- What reading says behind the whole frames. -/
theorem firstFrame_of_isTornFrom {frame? : Option Frame} {torn : List UInt8}
    (h : IsTornFrom frame? torn) : FirstFrame torn (lastReading frame? torn) [] := by
  cases frame? with
  | none =>
    obtain rfl : torn = [] := h
    exact .ended
  | some f =>
    obtain ⟨rest, hrest, hencode⟩ := h
    obtain ⟨hf, hbytes⟩ := Frame.encode_eq_ok_iff.1 hencode
    by_cases htorn : torn = []
    · rw [htorn, lastReading, if_pos rfl]
      exact .ended
    · rw [lastReading, if_neg htorn]
      exact firstFrame_of_append_eq_bytes hf htorn hrest hbytes.symm

/-- A reader gets the whole frames, then what is said of the bytes behind them, and then the end. -/
theorem readFrames_of_delivers_torn {frames : List Frame} {stream : List Chunk}
    {frame? : Option Frame} {torn : List UInt8} (hf : ∀ f ∈ frames, f.body.length ≤ maxBodyLength)
    (htorn : IsTornFrom frame? torn) (h : Delivers stream (frames.flatMap Frame.bytes ++ torn))
    (further : Nat) :
    (readFrames (frames.length + (further + 1)) stream).1 =
      frames.map (fun f => .ok (some f)) ++
        lastReading frame? torn :: List.replicate further (.ok none) := by
  obtain ⟨behind, hbehind, hreads⟩ := readFrames_of_delivers_append hf h (further + 1)
  obtain ⟨rest, hread, hrest⟩ :=
    readFrame_of_firstFrame (firstFrame_of_isTornFrom htorn) hbehind
  rw [hreads]
  simp only [readFrames, hread]
  rw [readFrames_of_delivers_nil hrest]

/-! ## Together -/

/-- A writer, with a limit or without, takes the frames that were written, whole, encoded and in
order, and behind them nothing or the first bytes of the frame in which it failed, not all of them;
it is flushed once for each written frame, and it makes no difference how many bytes each call on it
takes. A frame is written exactly if the header can tell its length and it fits behind what the
writer has taken by then. Frames that are too long, and no others, are refused as such, and the
writer and what comes of the other frames are as if they had not been there. Reading from a stream
that delivers what the writer has taken, in whatever chunks, yields the written frames, then the end
or a failure that says where the stream was cut, and then the end. -/
theorem writeFrames_keeps_whole_frames (capacity : Option Nat) (frames : List Frame) :
    let w := Writer.new capacity
    let after := (w.writeFrames frames).2
    let outcomes := w.outcomes frames
    outcomes.map Prod.fst = frames ∧ (∀ c ∈ capacity, after.written.length ≤ c) ∧
      (∀ v v' bytes r, Writer.TakesInCalls v bytes r v' ↔ v.writeAll bytes = (r, v')) ∧
      after.flushes = (writtenFrames outcomes).length ∧
      (∀ front f back, frames = front ++ f :: back →
        (outcomes[front.length]? = some (f, .ok ()) ↔ f.body.length ≤ maxBodyLength ∧
          ∀ c ∈ capacity, (w.writeFrames front).2.written.length + f.bytes.length ≤ c)) ∧
      (∀ o ∈ outcomes, (∃ n, o.2 = .error (.tooLong n)) ↔ maxBodyLength < o.1.body.length) ∧
      w.outcomes (frames.filter fun f => f.body.length ≤ maxBodyLength) =
        outcomes.filter (fun o => o.1.body.length ≤ maxBodyLength) ∧
      (w.writeFrames (frames.filter fun f => f.body.length ≤ maxBodyLength)).2 = after ∧
      ∃ torn, IsTornFrom (tornFrame? outcomes) torn ∧
        after.written = (writtenFrames outcomes).flatMap Frame.bytes ++ torn ∧
        (∀ f ∈ writtenFrames outcomes, f.encode = .ok f.bytes) ∧
        ∀ stream, Delivers stream after.written →
          ∀ further, (readFrames ((writtenFrames outcomes).length + (further + 1)) stream).1 =
            (writtenFrames outcomes).map (fun f => .ok (some f)) ++
              lastReading (tornFrame? outcomes) torn :: List.replicate further (.ok none) := by
  intro w after outcomes
  obtain ⟨torn, htorn, hwritten⟩ := w.exists_torn_writeFrames frames
  obtain ⟨hothers, hsame⟩ := w.writeFrames_filter frames
  have hshort : ∀ f ∈ writtenFrames outcomes, f.body.length ≤ maxBodyLength :=
    fun f => Writer.length_body_le_of_mem_writtenFrames
  refine ⟨w.map_fst_outcomes frames, ?_, fun _ _ _ _ => Writer.takesInCalls_iff, ?_, ?_, ?_,
    hothers, hsame, torn, htorn, hwritten, fun f hf => Frame.encode_of_le (hshort f hf), ?_⟩
  · intro c hc
    exact Writer.length_written_writeFrames_le hc (Nat.zero_le c) frames
  · rw [Writer.flushes_writeFrames]
    exact Nat.zero_add _
  · rintro front f back rfl
    exact w.outcome_eq_ok_iff front f back
  · intro o ho
    exact Writer.tooLong_iff_of_mem_outcomes ho
  · intro stream hstream further
    rw [show after.written = _ from hwritten] at hstream
    exact readFrames_of_delivers_torn hshort htorn hstream further

/-- A prompt, a line and a reply, and a writer that is full inside the header of the line: the
prompt is written and flushed, and a reader gets it back and then notices the torn line. -/
theorem writeFrames_keeps_whole_frames_full_inside_header :
    let w := Writer.new (some 12)
    let frames := [⟨63, "> "⟩, ⟨46, "é"⟩, ⟨33, "x"⟩]
    let chunks := [.data [48, 48, 48], .data [48, 51, 63, 62, 32, 48], .data [48, 48, 48]]
    (w.writeFrames frames).1 =
        [.ok (), .error (.io .writeZero), .error (.io .writeZero)] ∧
      (w.writeFrames frames).2.written = [48, 48, 48, 48, 51, 63, 62, 32, 48, 48, 48, 48] ∧
      (w.writeFrames frames).2.flushes = 1 ∧
      Delivers chunks (w.writeFrames frames).2.written ∧
      (readFrames 3 chunks).1 =
        [.ok (some ⟨63, "> "⟩), .error (.truncated 5 4), .ok none] := by
  intro w frames chunks
  obtain ⟨-, -, -, hflushes, -, -, -, -, torn, -, hwritten, -, hreads⟩ :=
    writeFrames_keeps_whole_frames (some 12) frames
  have hsent : writtenFrames (w.outcomes frames) = [⟨63, "> "⟩] := by decide +kernel
  have hframe : tornFrame? (w.outcomes frames) = some ⟨46, "é"⟩ := by decide +kernel
  have hbytes : (w.writeFrames frames).2.written =
      [48, 48, 48, 48, 51, 63, 62, 32] ++ [48, 48, 48, 48] := by decide +kernel
  have hfirst : [(⟨63, "> "⟩ : Frame)].flatMap Frame.bytes = [48, 48, 48, 48, 51, 63, 62, 32] := by
    decide +kernel
  have hdelivers : Delivers chunks (w.writeFrames frames).2.written := by
    rw [hbytes]
    exact ⟨by simp [chunks, Chunk.IsSound], by rfl⟩
  rw [hsent, hbytes, hfirst] at hwritten
  rw [hsent, hframe, ← List.append_cancel_left hwritten] at hreads
  refine ⟨by decide +kernel, hbytes, ?_, hdelivers, hreads chunks hdelivers 1⟩
  rw [hflushes, hsent]
  rfl

end BytecodeDebugger
