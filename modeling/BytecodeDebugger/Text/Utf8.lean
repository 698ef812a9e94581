/-!
# Text as bytes

UTF-8 is how frames carry text. `utf8Bytes` writes a text, `ofUtf8?` reads one and refuses
ill-formed bytes, and `ofUtf8Lossy` reads anything for the sake of a diagnostic: each longest run of
bytes that starts a character but does not finish it becomes one replacement character.

Main facts: `ofUtf8?_utf8Bytes` and `utf8Bytes_of_ofUtf8?` (reading and writing are inverse to each
other).
-/

namespace BytecodeDebugger.Text

/-- The bytes of a text. -/
def utf8Bytes (text : String) : List UInt8 :=
  text.toByteArray.data.toList

/-- The text that the bytes spell, if they are well formed. -/
def ofUtf8? (bytes : List UInt8) : Option String :=
  String.fromUTF8? ⟨bytes.toArray⟩

/-- A written text reads back. -/
@[simp] theorem ofUtf8?_utf8Bytes (text : String) : ofUtf8? (utf8Bytes text) = some text := by
  unfold ofUtf8? utf8Bytes String.fromUTF8?
  have h : (ByteArray.mk text.toByteArray.data.toList.toArray) = text.toByteArray := by simp
  rw [h, dif_pos]
  rfl

/-- What was read is written by the same bytes. -/
theorem utf8Bytes_of_ofUtf8? {bytes : List UInt8} {text : String} (h : ofUtf8? bytes = some text) :
    utf8Bytes text = bytes := by
  unfold ofUtf8? String.fromUTF8? at h
  split at h
  · have := Option.some.inj h
    subst this
    simp [utf8Bytes, String.fromUTF8]
  · simp at h

/-! ## Reading ill-formed bytes -/

/-- The continuation bytes that a character still needs: how many, and between which bounds the next
one lies. -/
structure Pending where
  count : Nat
  low : Nat
  high : Nat
  deriving DecidableEq, Repr

/-- What a first byte demands, and the bits of the character that it holds. -/
def Pending.ofFirst (b : Nat) : Option (Pending × Nat) :=
  if b < 0x80 then some (⟨0, 0x80, 0xBF⟩, b)
  else if 0xC2 ≤ b ∧ b ≤ 0xDF then some (⟨1, 0x80, 0xBF⟩, b - 0xC0)
  else if b = 0xE0 then some (⟨2, 0xA0, 0xBF⟩, 0)
  else if b = 0xED then some (⟨2, 0x80, 0x9F⟩, 0xD)
  else if 0xE1 ≤ b ∧ b ≤ 0xEF then some (⟨2, 0x80, 0xBF⟩, b - 0xE0)
  else if b = 0xF0 then some (⟨3, 0x90, 0xBF⟩, 0)
  else if 0xF1 ≤ b ∧ b ≤ 0xF3 then some (⟨3, 0x80, 0xBF⟩, b - 0xF0)
  else if b = 0xF4 then some (⟨3, 0x80, 0x8F⟩, 4)
  else none

/-- The characters of a sequence of bytes, while a character that has `bits` so far needs the bytes
of `pending`; `none` in its place between characters. -/
def lossyFrom (pending : Option (Pending × Nat)) : List UInt8 → List Char
  | [] => if pending.isSome then ['\ufffd'] else []
  | b :: rest =>
    let fresh : Bool → List Char := fun broken =>
      let before := if broken then ['\ufffd'] else []
      match Pending.ofFirst b.toNat with
      | none => before ++ '\ufffd' :: lossyFrom none rest
      | some (p, bits) =>
        if p.count = 0 then before ++ Char.ofNat bits :: lossyFrom none rest
        else before ++ lossyFrom (some (p, bits)) rest
    match pending with
    | none => fresh false
    | some (p, bits) =>
      if p.low ≤ b.toNat ∧ b.toNat ≤ p.high then
        let bits := bits * 64 + (b.toNat - 0x80)
        if p.count ≤ 1 then Char.ofNat bits :: lossyFrom none rest
        else lossyFrom (some (⟨p.count - 1, 0x80, 0xBF⟩, bits)) rest
      else fresh true

/-- The text that the bytes spell, with a replacement character for each ill-formed run. -/
def ofUtf8Lossy (bytes : List UInt8) : String :=
  String.ofList (lossyFrom none bytes)

end BytecodeDebugger.Text
