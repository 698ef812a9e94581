import BytecodeDebugger.Proofs.Wire.RoundTrip

/-!
# The grammar of frames

What a sequence of bytes begins with: a frame, the end of the stream, or what keeps it from being a
frame. The grammar says so without a reader, and reading a frame from a stream comes to exactly what
the grammar says, and leaves what the grammar says is behind.

Main facts: `exists_firstFrame` (every sequence begins with something) and `readFrame_of_firstFrame`
(reading follows the grammar), so `readFrame_eq_iff`.
-/

namespace BytecodeDebugger

/-! ## The grammar -/

/-- What a sequence of bytes begins with, and the bytes behind. -/
inductive FirstFrame : List UInt8 → Except FrameError (Option Frame) → List UInt8 → Prop
  /-- There are no bytes. -/
  | ended : FirstFrame [] (.ok none) []
  /-- There are too few bytes for a header. -/
  | headerCut {bytes : List UInt8} (hne : bytes ≠ []) (hlt : bytes.length < headerLength) :
    FirstFrame bytes (.error (.truncated headerLength bytes.length)) []
  /-- In place of a header there is something besides digits. -/
  | badHeader {head : List UInt8} (more : List UInt8) (hlen : head.length = headerLength)
    (hbad : ∃ b ∈ head, isDigitByte b = false) :
    FirstFrame (head ++ more) (.error (.badHeader (Text.ofUtf8Lossy head))) more
  /-- There are fewer bytes behind the header than it tells. -/
  | bodyCut {n : Nat} {body : List UInt8} (hn : n ≤ maxBodyLength) (hlt : body.length < n) :
    FirstFrame (Frame.header n ++ body) (.error (.truncated n body.length)) []
  /-- The header tells that there is no body, not even a code. -/
  | noBody (more : List UInt8) : FirstFrame (Frame.header 0 ++ more) (.error .emptyBody) more
  /-- Behind the code there is no text. -/
  | notText (code : UInt8) {bytes : List UInt8} (more : List UInt8)
    (hn : bytes.length + 1 ≤ maxBodyLength) (hbytes : ¬∃ text, Text.utf8Bytes text = bytes) :
    FirstFrame (Frame.header (bytes.length + 1) ++ (code :: bytes ++ more)) (.error .invalidUtf8)
      more
  /-- There is a frame. -/
  | frame {f : Frame} (more : List UInt8) (hf : f.body.length ≤ maxBodyLength) :
    FirstFrame (f.bytes ++ more) (.ok (some f)) more

/-! ## Every sequence of bytes -/

/-- Bytes spell a text, or they do not. -/
theorem Text.ofUtf8?_eq_none_iff {bytes : List UInt8} :
    Text.ofUtf8? bytes = none ↔ ¬∃ text, Text.utf8Bytes text = bytes := by
  constructor
  · rintro hnone ⟨text, rfl⟩
    simp at hnone
  · intro hno
    rw [Option.eq_none_iff_forall_ne_some]
    intro text htext
    exact hno ⟨text, Text.utf8Bytes_of_ofUtf8? htext⟩

/-- So many bytes stand in front of the others. -/
theorem exists_append_of_le {n : Nat} {bytes : List UInt8} (h : n ≤ bytes.length) :
    ∃ front behind, front.length = n ∧ front ++ behind = bytes :=
  ⟨bytes.take n, bytes.drop n, List.length_take_of_le h, List.take_append_drop n bytes⟩

/-- A header begins a frame, or something that is kept from being one. -/
theorem exists_firstFrame_header {n : Nat} (hn : n ≤ maxBodyLength) (follow : List UInt8) :
    ∃ r more, FirstFrame (Frame.header n ++ follow) r more := by
  by_cases hlt : follow.length < n
  · exact ⟨_, _, .bodyCut hn hlt⟩
  · -- what follows is the body and the bytes behind it
    obtain ⟨body, more, rfl, rfl⟩ := exists_append_of_le (Nat.le_of_not_lt hlt)
    cases body with
    | nil => exact ⟨_, _, .noBody more⟩
    | cons code bytes =>
      by_cases htext : ∃ text, Text.utf8Bytes text = bytes
      · obtain ⟨text, rfl⟩ := htext
        have hframe : FirstFrame ((Frame.mk code text).bytes ++ more) _ more := .frame more hn
        rw [Frame.bytes, List.append_assoc] at hframe
        exact ⟨_, _, hframe⟩
      · exact ⟨_, _, .notText code more hn htext⟩

/-- Every sequence of bytes begins with something. -/
theorem exists_firstFrame (bytes : List UInt8) : ∃ r more, FirstFrame bytes r more := by
  by_cases hne : bytes = []
  · subst hne
    exact ⟨_, _, .ended⟩
  · by_cases hlt : bytes.length < headerLength
    · exact ⟨_, _, .headerCut hne hlt⟩
    · obtain ⟨head, follow, hlen, rfl⟩ := exists_append_of_le (Nat.le_of_not_lt hlt)
      by_cases hdigits : ∀ b ∈ head, isDigitByte b = true
      · -- five digits are the header of the number that they spell
        obtain ⟨hn, hhead⟩ := Frame.header_numberOfDigits hlen hdigits
        rw [← hhead]
        exact exists_firstFrame_header hn follow
      · refine ⟨_, _, .badHeader follow hlen ?_⟩
        simpa using hdigits

/-! ## Reading -/

/-- Reading a frame from a stream comes to what its bytes begin with, and leaves the others. -/
theorem readFrame_of_firstFrame {stream : List Chunk} {bytes more : List UInt8}
    {r : Except FrameError (Option Frame)} (hr : FirstFrame bytes r more)
    (h : Delivers stream bytes) :
    ∃ rest, readFrame stream = (r, rest) ∧ Delivers rest more := by
  cases hr with
  | ended => exact readFrame_of_delivers_nil h
  | headerCut hne hlt =>
    obtain ⟨rest, hread, hrest⟩ := readFull_of_delivers headerLength h
    rw [List.take_of_length_le (Nat.le_of_lt hlt)] at hread
    rw [List.drop_of_length_le (Nat.le_of_lt hlt)] at hrest
    refine ⟨rest, ?_, hrest⟩
    cases bytes with
    | nil => exact absurd rfl hne
    | cons b bytes => simp only [readFrame, hread, hlt, if_true]
  | @badHeader head more hlen hbad =>
    obtain ⟨rest, hread, hrest⟩ := readFull_of_delivers headerLength h
    rw [List.take_left' hlen] at hread
    rw [List.drop_left' hlen] at hrest
    refine ⟨rest, ?_, hrest⟩
    have hall : head.all isDigitByte = false := by simpa using hbad
    cases head with
    | nil => exact absurd hlen (by decide)
    | cons b head =>
      simp only [readFrame, hread, hlen, Nat.lt_irrefl, if_false, hall, Bool.false_eq_true]
  | @bodyCut n body hn hlt =>
    obtain ⟨rest, hrest, hread⟩ := readFrame_of_delivers_header hn h
    rw [List.drop_of_length_le (Nat.le_of_lt hlt)] at hrest
    rw [if_pos hlt] at hread
    exact ⟨rest, hread, hrest⟩
  | noBody =>
    obtain ⟨rest, hrest, hread⟩ := readFrame_of_delivers_header (Nat.zero_le _) h
    exact ⟨rest, hread, hrest⟩
  | @notText code bytes more hn hbytes =>
    obtain ⟨rest, hrest, hread⟩ := readFrame_of_delivers_header hn h
    have hbody : (code :: bytes).length = bytes.length + 1 := rfl
    have hnone : Text.ofUtf8? bytes = none := Text.ofUtf8?_eq_none_iff.2 hbytes
    rw [List.drop_left' hbody] at hrest
    rw [List.take_left' hbody, if_neg (by simp), Frame.ofBody, hnone] at hread
    exact ⟨rest, hread, hrest⟩
  | frame more hf => exact readFrame_of_delivers hf h

/-- Reading a frame comes to something exactly when the bytes of the stream begin with it. -/
theorem readFrame_eq_iff {stream : List Chunk} {bytes : List UInt8}
    {r : Except FrameError (Option Frame)} (h : Delivers stream bytes) :
    (readFrame stream).1 = r ↔ ∃ more, FirstFrame bytes r more := by
  constructor
  · rintro rfl
    obtain ⟨r, more, hr⟩ := exists_firstFrame bytes
    obtain ⟨rest, hread, -⟩ := readFrame_of_firstFrame hr h
    rw [hread]
    exact ⟨more, hr⟩
  · rintro ⟨more, hr⟩
    obtain ⟨rest, hread, -⟩ := readFrame_of_firstFrame hr h
    rw [hread]

/-! ## What comes of which bytes -/

/-- A frame is encoded as its bytes, if the header can tell the length of its body. -/
theorem Frame.encode_eq_ok_iff {f : Frame} {bytes : List UInt8} :
    f.encode = .ok bytes ↔ f.body.length ≤ maxBodyLength ∧ f.bytes = bytes := by
  by_cases hf : f.body.length ≤ maxBodyLength
  · simp [Frame.encode_of_le hf, hf]
  · simp [Frame.encode, Nat.lt_of_not_le hf, hf]

namespace FirstFrame

variable {bytes follow more : List UInt8} {n : Nat}

/-- Bytes begin with a frame exactly when they begin with its encoding; the others are behind. -/
theorem frame_iff {f : Frame} :
    FirstFrame bytes (.ok (some f)) more ↔ ∃ code, f.encode = .ok code ∧ code ++ more = bytes := by
  constructor
  · intro h
    cases h with
    | frame more hf => exact ⟨_, Frame.encode_of_le hf, rfl⟩
  · rintro ⟨code, hcode, rfl⟩
    obtain ⟨hf, rfl⟩ := Frame.encode_eq_ok_iff.1 hcode
    exact .frame more hf

/-- Bytes end before a frame exactly when there are none. -/
theorem ended_iff : (∃ more, FirstFrame bytes (.ok none) more) ↔ bytes = [] := by
  constructor
  · rintro ⟨more, h⟩
    cases h
    rfl
  · rintro rfl
    exact ⟨_, .ended⟩

/-- Bytes with a header in front are at least as many as the header has. -/
theorem headerLength_le (hn : n ≤ maxBodyLength) (hbytes : bytes = Frame.header n ++ follow) :
    headerLength + follow.length = bytes.length := by
  rw [hbytes, List.length_append, Frame.length_header hn]

/-- Bytes end inside the header exactly when there are some, but fewer than it has. -/
theorem headerCut_iff :
    (∃ more, FirstFrame bytes (.error (.truncated headerLength bytes.length)) more) ↔
      1 ≤ bytes.length ∧ bytes.length < headerLength := by
  constructor
  · rintro ⟨more, h⟩
    generalize hr : Except.error (FrameError.truncated headerLength bytes.length) = r at h
    cases h with
    | headerCut hne hlt => exact ⟨List.length_pos_iff.2 hne, hlt⟩
    | @bodyCut n body hn hlt =>
      -- all bytes are more than those behind the header
      have hlen : headerLength + body.length = _ := headerLength_le hn rfl
      simp only [Except.error.injEq, FrameError.truncated.injEq] at hr
      have : headerLength = 5 := rfl
      omega
    | _ => cases hr
  · rintro ⟨hpos, hlt⟩
    exact ⟨_, .headerCut (List.length_pos_iff.1 hpos) hlt⟩

/-- A header is bad exactly when not all of the first five bytes are digits. -/
theorem badHeader_iff :
    (∃ text more, FirstFrame bytes (.error (.badHeader text)) more) ↔
      headerLength ≤ bytes.length ∧ ∃ b ∈ bytes.take headerLength, isDigitByte b = false := by
  constructor
  · rintro ⟨text, more, h⟩
    cases h with
    | @badHeader head more hlen hbad =>
      rw [List.take_left' hlen, List.length_append, hlen]
      exact ⟨Nat.le_add_right _ _, hbad⟩
  · rintro ⟨hle, hbad⟩
    have hlen : (bytes.take headerLength).length = headerLength := List.length_take_of_le hle
    have h := FirstFrame.badHeader (bytes.drop headerLength) hlen hbad
    rw [List.take_append_drop] at h
    exact ⟨_, _, h⟩

/-- Bytes end inside a body exactly when fewer follow than the header tells. -/
theorem bodyCut_iff {got : Nat} (hn : n ≤ maxBodyLength) :
    (∃ more, FirstFrame (Frame.header n ++ follow) (.error (.truncated n got)) more) ↔
      follow.length = got ∧ got < n := by
  constructor
  · rintro ⟨more, h⟩
    generalize hbytes : Frame.header n ++ follow = bytes at h
    have hlen := headerLength_le hn hbytes.symm
    cases h with
    | headerCut _ hlt => omega
    | bodyCut _ hlt =>
      cases List.append_cancel_left hbytes
      exact ⟨rfl, hlt⟩
  · rintro ⟨rfl, hlt⟩
    exact ⟨_, .bodyCut hn hlt⟩

/-- What follows a header is determined by the bytes. -/
theorem header_append_inj {m : Nat} {follow' : List UInt8} (hn : n ≤ maxBodyLength)
    (hm : m ≤ maxBodyLength) (h : Frame.header n ++ follow = Frame.header m ++ follow') :
    n = m ∧ follow = follow' := by
  have hlen : (Frame.header n).length = (Frame.header m).length := by
    rw [Frame.length_header hn, Frame.length_header hm]
  obtain ⟨hheader, hfollow⟩ := List.append_inj h hlen
  exact ⟨Frame.header_injective hheader, hfollow⟩

/-- A body is missing exactly when the header tells so, and then all that follows is behind. -/
theorem noBody_iff (hn : n ≤ maxBodyLength) :
    FirstFrame (Frame.header n ++ follow) (.error .emptyBody) more ↔ n = 0 ∧ follow = more := by
  constructor
  · intro h
    generalize hbytes : Frame.header n ++ follow = bytes at h
    cases h with
    | noBody more => exact header_append_inj hn (Nat.zero_le _) hbytes
  · rintro ⟨rfl, rfl⟩
    exact .noBody follow

/-- A body spells no text exactly when it is there and its bytes behind the code do not, and then
the bytes behind the body are behind. -/
theorem notText_iff (hn : n ≤ maxBodyLength) :
    FirstFrame (Frame.header n ++ follow) (.error .invalidUtf8) more ↔
      n ≤ follow.length ∧ (¬∃ text, Text.utf8Bytes text = (follow.take n).tail) ∧
        follow.drop n = more := by
  constructor
  · intro h
    generalize hheader : Frame.header n ++ follow = bytes at h
    cases h with
    | @notText code bytes more hm hbytes =>
      obtain ⟨rfl, rfl⟩ := header_append_inj hn hm hheader
      have hlen : (code :: bytes).length = bytes.length + 1 := rfl
      rw [List.take_left' hlen, List.drop_left' hlen]
      exact ⟨by simp, hbytes, rfl⟩
  · rintro ⟨hle, htext, rfl⟩
    obtain ⟨body, rest, rfl, rfl⟩ := exists_append_of_le hle
    rw [List.take_left] at htext
    rw [List.drop_left]
    cases body with
    | nil => exact absurd ⟨"", rfl⟩ htext
    | cons code bytes => exact .notText code rest hn htext

end FirstFrame

/-! ## The reader and the grammar -/

/-- Reading a frame from a stream that delivers some bytes, in whatever chunks, accepts exactly the
grammar of frames. It yields a frame just if the bytes begin with its encoding, and takes just these
bytes; the end of the stream if there are no bytes; and otherwise the failure that the bytes call
for. A frame without a code or with a text that is none is taken as a whole. -/
theorem readFrame_accepts_grammar {stream : List Chunk} {bytes : List UInt8}
    (h : Delivers stream bytes) :
    (∀ f, (readFrame stream).1 = .ok (some f) ↔ ∃ code, f.encode = .ok code ∧ code <+: bytes) ∧
      (∀ f code, (readFrame stream).1 = .ok (some f) → f.encode = .ok code →
        ∃ more, code ++ more = bytes ∧ Delivers (readFrame stream).2 more) ∧
      ((readFrame stream).1 = .ok none ↔ bytes = []) ∧
      ((readFrame stream).1 = .error (.truncated headerLength bytes.length) ↔
        1 ≤ bytes.length ∧ bytes.length < headerLength) ∧
      ((∃ text, (readFrame stream).1 = .error (.badHeader text)) ↔
        headerLength ≤ bytes.length ∧ ∃ b ∈ bytes.take headerLength, isDigitByte b = false) ∧
      ∀ n ≤ maxBodyLength, ∀ follow, Frame.header n ++ follow = bytes →
        (∀ got, (readFrame stream).1 = .error (.truncated n got) ↔
          follow.length = got ∧ got < n) ∧
        ((readFrame stream).1 = .error .emptyBody ↔ n = 0) ∧
        ((readFrame stream).1 = .error .invalidUtf8 ↔
          n ≤ follow.length ∧ ¬∃ text, Text.utf8Bytes text = (follow.take n).tail) ∧
        ((readFrame stream).1 = .error .emptyBody ∨ (readFrame stream).1 = .error .invalidUtf8 →
          Delivers (readFrame stream).2 (follow.drop n)) := by
  have hiff : ∀ r, (readFrame stream).1 = r ↔ ∃ more, FirstFrame bytes r more :=
    fun r => readFrame_eq_iff h
  have hbehind : ∀ {r more}, FirstFrame bytes r more → Delivers (readFrame stream).2 more := by
    intro r more hr
    obtain ⟨rest, hread, hrest⟩ := readFrame_of_firstFrame hr h
    rw [hread]
    exact hrest
  refine ⟨?_, ?_, ?_, ?_, ?_, ?_⟩
  · intro f
    rw [hiff]
    constructor
    · rintro ⟨more, hr⟩
      obtain ⟨code, hcode, hbytes⟩ := FirstFrame.frame_iff.1 hr
      exact ⟨code, hcode, more, hbytes⟩
    · rintro ⟨code, hcode, more, hbytes⟩
      exact ⟨more, FirstFrame.frame_iff.2 ⟨code, hcode, hbytes⟩⟩
  · intro f code hf hcode
    obtain ⟨more, hr⟩ := (hiff _).1 hf
    obtain ⟨code', hcode', hbytes⟩ := FirstFrame.frame_iff.1 hr
    cases hcode.symm.trans hcode'
    exact ⟨more, hbytes, hbehind hr⟩
  · rw [hiff, FirstFrame.ended_iff]
  · rw [hiff, FirstFrame.headerCut_iff]
  · simp only [hiff]
    exact FirstFrame.badHeader_iff
  · rintro n hn follow rfl
    refine ⟨?_, ?_, ?_, ?_⟩
    · intro got
      rw [hiff, FirstFrame.bodyCut_iff hn]
    · simp only [hiff, FirstFrame.noBody_iff hn, exists_and_left, exists_eq', and_true]
    · simp only [hiff, FirstFrame.notText_iff hn, exists_and_left, exists_eq', and_true]
    · rintro (hr | hr)
      · obtain ⟨more, hr⟩ := (hiff _).1 hr
        obtain ⟨rfl, rfl⟩ := (FirstFrame.noBody_iff hn).1 hr
        exact hbehind hr
      · obtain ⟨more, hr⟩ := (hiff _).1 hr
        obtain ⟨-, -, rfl⟩ := (FirstFrame.notText_iff hn).1 hr
        exact hbehind hr

/-- Of a stream whose first frame ends inside a character, no text is read, and the next reading
begins with the byte behind that frame. -/
theorem readFrame_accepts_grammar_inside_character :
    let stream : List Chunk := [.data [48, 48], .fail ⟨.interrupted, ""⟩, .data [48, 48, 50, 46],
      .data [195, 169, 48]]
    (readFrame stream).1 = .error .invalidUtf8 ∧ Delivers (readFrame stream).2 [169, 48] := by
  intro stream
  have h : Delivers stream [48, 48, 48, 48, 50, 46, 195, 169, 48] := by
    refine ⟨?_, rfl⟩
    simp [stream, Chunk.IsSound, IoError.isInterrupted]
  obtain ⟨-, -, -, -, -, hheader⟩ := readFrame_accepts_grammar h
  obtain ⟨-, -, htext, hbehind⟩ := hheader 2 (by decide) [46, 195, 169, 48] (by decide +kernel)
  have hnone : Text.ofUtf8? [195] = none := by decide +kernel
  have hfails := htext.2 ⟨by decide, Text.ofUtf8?_eq_none_iff.1 hnone⟩
  exact ⟨hfails, hbehind (.inr hfails)⟩

end BytecodeDebugger
