import BytecodeDebugger.Text.Utf8
import Mathlib.Tactic.Common

/-!
# The bytes of texts

How the bytes of a text are put together from the bytes of its characters. A character of seven bits
is its own byte, and no byte of another character has seven bits, so the byte of such a character is
found in the bytes of a text exactly where the character stands. The order of texts by their
characters is the order by their bytes.

Main facts: `utf8Bytes_ofList` (a text is written character by character), `utf8EncodeChar_of_lt`
(a character of seven bits is one byte), `le_of_mem_utf8EncodeChar` (other characters have no byte
of seven bits) and `utf8Bytes_lt_of_lt` (a text that comes later has bytes that come later).
-/

namespace BytecodeDebugger.Text

theorem utf8Bytes_ofList (cs : List Char) :
    utf8Bytes (String.ofList cs) = cs.flatMap String.utf8EncodeChar := by
  simp [utf8Bytes, List.utf8Encode]

theorem utf8Bytes_eq_flatMap (text : String) :
    utf8Bytes text = text.toList.flatMap String.utf8EncodeChar := by
  rw [← utf8Bytes_ofList, String.ofList_toList]

/-- A character of seven bits is one byte. -/
theorem utf8EncodeChar_of_lt {c : Char} (h : c.toNat < 128) :
    String.utf8EncodeChar c = [UInt8.ofNat c.toNat] := by
  have hc : c.val.toNat ≤ 127 := Nat.le_of_lt_succ h
  unfold String.utf8EncodeChar
  exact if_pos hc

/-- A byte of another character has its highest bit set. -/
theorem le_of_mem_utf8EncodeChar {c : Char} (hc : 128 ≤ c.toNat) {b : UInt8}
    (h : b ∈ String.utf8EncodeChar c) : 128 ≤ b.toNat := by
  have hsmall : ¬c.val.toNat ≤ 127 := Nat.not_le_of_lt hc
  -- a first byte has its highest bit set, and so has every byte behind it
  have hfirst : ∀ n k : Nat, 128 ≤ k → n + k < 256 → 128 ≤ (UInt8.ofNat (n + k)).toNat := by
    intro n k hk hlt
    rw [UInt8.toNat_ofNat', Nat.mod_eq_of_lt hlt]
    omega
  unfold String.utf8EncodeChar at h
  simp only [hsmall, if_false] at h
  split at h
  · simp only [List.mem_cons, List.not_mem_nil, or_false] at h
    rcases h with rfl | rfl <;> exact hfirst _ _ (by omega) (by omega)
  · split at h
    · simp only [List.mem_cons, List.not_mem_nil, or_false] at h
      rcases h with rfl | rfl | rfl <;> exact hfirst _ _ (by omega) (by omega)
    · simp only [List.mem_cons, List.not_mem_nil, or_false] at h
      rcases h with rfl | rfl | rfl | rfl <;> exact hfirst _ _ (by omega) (by omega)

/-- Characters of seven bits are written by as many bytes. -/
theorem flatMap_utf8EncodeChar_of_lt {cs : List Char} (h : ∀ c ∈ cs, c.toNat < 128) :
    cs.flatMap String.utf8EncodeChar = cs.map fun c => UInt8.ofNat c.toNat := by
  induction cs with
  | nil => rfl
  | cons c rest ih =>
    have hc : c.toNat < 128 := h c List.mem_cons_self
    have hrest : ∀ d ∈ rest, d.toNat < 128 := fun d hd => h d (List.mem_cons_of_mem c hd)
    rw [List.flatMap_cons, List.map_cons, utf8EncodeChar_of_lt hc, ih hrest]
    rfl

theorem length_utf8Bytes (text : String) : (utf8Bytes text).length = text.utf8ByteSize := by
  rw [utf8Bytes, Array.length_toList, ByteArray.size_data, String.size_toByteArray]

/-- A text of characters of seven bits has as many bytes as characters. -/
theorem utf8ByteSize_ofList_of_lt {cs : List Char} (h : ∀ c ∈ cs, c.toNat < 128) :
    (String.ofList cs).utf8ByteSize = cs.length := by
  rw [← length_utf8Bytes, utf8Bytes_ofList, flatMap_utf8EncodeChar_of_lt h, List.length_map]

/-! ## The order of texts -/

/-- The bytes of characters are in the order of the characters, whatever comes behind them. -/
theorem utf8EncodeChar_append_lt {c d : Char} (h : c < d) (front back : List UInt8) :
    String.utf8EncodeChar c ++ front < String.utf8EncodeChar d ++ back := by
  have hlt : c.val.toNat < d.val.toNat := h
  have hd : d.val.toNat < 0x110000 := d.valid.elim (by omega) (by omega)
  have hbyte : ∀ n k : Nat, n + k < 256 → (UInt8.ofNat (n + k)).toNat = n + k := by
    intro n k hk
    rw [UInt8.toNat_ofNat', Nat.mod_eq_of_lt hk]
  unfold String.utf8EncodeChar
  generalize c.val.toNat = m at hlt ⊢
  generalize d.val.toNat = n at hlt hd ⊢
  -- the digits of two numbers differ first where the one of the greater number is greater
  have hfirst : n / 262144 < 8 := by omega
  have hsecond : m / 4096 < n / 4096 → m / 262144 < n / 262144 ∨
      m / 262144 = n / 262144 ∧ m / 4096 % 64 < n / 4096 % 64 := by omega
  have hthird : m / 64 < n / 64 → m / 4096 < n / 4096 ∨
      m / 4096 = n / 4096 ∧ m / 64 % 64 < n / 64 % 64 := by omega
  have hfourth : m / 64 < n / 64 ∨ m / 64 = n / 64 ∧ m % 64 < n % 64 := by omega
  dsimp only
  split_ifs <;>
    simp (disch := omega) only [List.cons_append, List.nil_append, List.cons_lt_cons_iff,
      UInt8.lt_iff_toNat_lt, ← UInt8.toNat_inj, hbyte, UInt8.toNat_ofNat', Nat.mod_eq_of_lt] <;>
    omega

/-- The bytes of a text are in front of those of a text that comes after it. -/
theorem utf8Bytes_lt_of_lt {a b : String} (h : a < b) : utf8Bytes a < utf8Bytes b := by
  rw [String.lt_iff] at h
  rw [utf8Bytes_eq_flatMap, utf8Bytes_eq_flatMap]
  generalize a.toList = cs at h
  generalize b.toList = ds at h
  induction ds generalizing cs with
  | nil => exact absurd h (List.not_lt_nil cs)
  | cons d ds ih =>
    cases cs with
    | nil =>
      have hne : String.utf8EncodeChar d ++ ds.flatMap String.utf8EncodeChar ≠ [] :=
        List.append_ne_nil_of_left_ne_nil String.utf8EncodeChar_ne_nil _
      obtain ⟨byte, bytes, heq⟩ := List.exists_cons_of_ne_nil hne
      rw [List.flatMap_nil, List.flatMap_cons, heq]
      exact List.nil_lt_cons byte bytes
    | cons c cs =>
      rw [List.flatMap_cons, List.flatMap_cons]
      rcases List.cons_lt_cons_iff.1 h with hlt | ⟨rfl, hlt⟩
      · exact utf8EncodeChar_append_lt hlt _ _
      · exact List.append_left_lt (ih cs hlt)

end BytecodeDebugger.Text
