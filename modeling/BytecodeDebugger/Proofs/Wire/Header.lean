import BytecodeDebugger.Proofs.Text.Reading
import BytecodeDebugger.Proofs.Text.Utf8
import BytecodeDebugger.Wire.Reader
import Mathlib.Algebra.Group.Nat.Defs
import Mathlib.Data.List.Induction

/-!
# Headers of frames

A length that the header can tell is written in exactly five digit bytes, and these bytes spell the
length again. So a reader that knows the first five bytes of a frame knows how long its body is. Any
five digit bytes are the header of some length.

Main facts: `length_header`, `isDigitByte_of_mem_header`, `numberOfDigits_header` (what a header is)
and `header_numberOfDigits` (there are no other digits).
-/

namespace BytecodeDebugger

open Text (toNat_of_isDigit utf8Bytes utf8Bytes_ofList flatMap_utf8EncodeChar_of_lt)

/-! ## Digits as characters -/

/-- The digits of a number behind the zeros in front of them. -/
def paddedDigits (width n : Nat) : List Char :=
  List.replicate (width - (Nat.toDigits 10 n).length) '0' ++ Nat.toDigits 10 n

theorem zeroPad_eq_ofList (width n : Nat) :
    Text.zeroPad width n = String.ofList (paddedDigits width n) := by
  have hn : toString n = String.ofList (Nat.toDigits 10 n) := Nat.toString_eq_ofList_toDigits
  rw [Text.zeroPad, hn, String.length_ofList, paddedDigits, String.ofList_append]

/-- Padded digits are digits. -/
theorem isDigit_of_mem_paddedDigits {width n : Nat} {c : Char} (h : c ∈ paddedDigits width n) :
    c.isDigit = true := by
  rcases List.mem_append.1 h with h | h
  · rw [List.eq_of_mem_replicate h]
    rfl
  · exact Nat.isDigit_of_mem_toDigits (by decide) (by decide) h

/-- A number of at most so many digits is padded to exactly so many. -/
theorem length_paddedDigits {width n : Nat} (hw : 0 < width) (h : n < 10 ^ width) :
    (paddedDigits width n).length = width := by
  have hn : (Nat.toDigits 10 n).length ≤ width := (Nat.length_toDigits_le_iff (by decide) hw).2 h
  rw [paddedDigits, List.length_append, List.length_replicate]
  omega

/-- Zeros in front do not change the number that digits spell. -/
theorem ofDigitChars_paddedDigits (width n : Nat) :
    Nat.ofDigitChars 10 (paddedDigits width n) 0 = n := by
  rw [paddedDigits, Nat.ofDigitChars_append, Nat.ofDigitChars_replicate_zero, Nat.mul_zero,
    Nat.ofDigitChars_ten_toDigits]

/-! ## Digits as bytes -/

/-- The byte of a digit has the digit's code. -/
theorem toNat_ofNat_of_isDigit {c : Char} (h : c.isDigit = true) :
    (UInt8.ofNat c.toNat).toNat = c.toNat := by
  have := toNat_of_isDigit h
  rw [UInt8.toNat_ofNat']
  omega

/-- The number that the bytes of digits spell is the one that the digits spell. -/
theorem numberOfDigits_map {cs : List Char} (h : ∀ c ∈ cs, c.isDigit = true) :
    numberOfDigits (cs.map fun c => UInt8.ofNat c.toNat) = Nat.ofDigitChars 10 cs 0 := by
  rw [numberOfDigits, Nat.ofDigitChars_eq_foldl, List.foldl_map]
  -- the number read so far is general, since both folds carry it along
  generalize (0 : Nat) = value
  induction cs generalizing value with
  | nil => rfl
  | cons c rest ih =>
    have hc : (UInt8.ofNat c.toNat).toNat = c.toNat := toNat_ofNat_of_isDigit (h c (by simp))
    have hv : value * 10 + ((UInt8.ofNat c.toNat).toNat - 48) =
        10 * value + (c.toNat - '0'.toNat) := by
      rw [hc, Nat.mul_comm]
      rfl
    rw [List.foldl_cons, List.foldl_cons, hv]
    exact ih (fun d hd => h d (List.mem_cons_of_mem c hd)) _

/-! ## Reading digits -/

/-- A digit behind others counts once, and those in front of it ten times. -/
theorem numberOfDigits_concat (bytes : List UInt8) (b : UInt8) :
    numberOfDigits (bytes ++ [b]) = numberOfDigits bytes * 10 + (b.toNat - 48) := by
  rw [numberOfDigits, List.foldl_append]
  rfl

theorem toNat_of_isDigitByte {b : UInt8} (h : isDigitByte b = true) :
    48 ≤ b.toNat ∧ b.toNat ≤ 57 := by
  simpa [isDigitByte] using h

/-- Digits spell a number of at most so many digits. -/
theorem numberOfDigits_lt {bytes : List UInt8} (h : ∀ b ∈ bytes, isDigitByte b = true) :
    numberOfDigits bytes < 10 ^ bytes.length := by
  induction bytes using List.reverseRecOn with
  | nil => exact Nat.one_pos
  | append_singleton bytes b ih =>
    have hb := toNat_of_isDigitByte (h b (by simp))
    have hlt := ih fun d hd => h d (List.mem_append_left _ hd)
    rw [numberOfDigits_concat, List.length_append, List.length_singleton, Nat.pow_succ]
    omega

/-- Equally many digits are told by the number that they spell. -/
theorem eq_of_numberOfDigits_eq {xs ys : List UInt8} (hlen : xs.length = ys.length)
    (hxs : ∀ b ∈ xs, isDigitByte b = true) (hys : ∀ b ∈ ys, isDigitByte b = true)
    (h : numberOfDigits xs = numberOfDigits ys) : xs = ys := by
  induction xs using List.reverseRecOn generalizing ys with
  | nil => exact (List.length_eq_zero_iff.1 hlen.symm).symm
  | append_singleton xs x ih =>
    cases ys using List.reverseRecOn with
    | nil => simp at hlen
    | append_singleton ys y =>
      have hx := toNat_of_isDigitByte (hxs x (by simp))
      have hy := toNat_of_isDigitByte (hys y (by simp))
      rw [numberOfDigits_concat, numberOfDigits_concat] at h
      -- the last digit is the remainder by ten, and the others are the quotient
      have hlast : x = y := by
        apply UInt8.toNat_inj.1
        omega
      have hothers : xs = ys := by
        apply ih
        · simpa using hlen
        · exact fun b hb => hxs b (List.mem_append_left _ hb)
        · exact fun b hb => hys b (List.mem_append_left _ hb)
        · omega
      rw [hlast, hothers]

/-! ## The header of a frame -/

namespace Frame

/-- A header is the bytes of the padded digits of the length. -/
theorem header_eq_map (n : Nat) :
    header n = (paddedDigits headerLength n).map fun c => UInt8.ofNat c.toNat := by
  rw [header, zeroPad_eq_ofList, utf8Bytes_ofList]
  apply flatMap_utf8EncodeChar_of_lt
  intro c hc
  have := toNat_of_isDigit (isDigit_of_mem_paddedDigits hc)
  omega

/-- The header of a length that it can tell has five bytes. -/
theorem length_header {n : Nat} (h : n ≤ maxBodyLength) : (header n).length = headerLength := by
  rw [header_eq_map, List.length_map]
  apply length_paddedDigits (by decide)
  exact Nat.lt_succ_of_le h

/-- A header holds digits only. -/
theorem isDigitByte_of_mem_header {n : Nat} {b : UInt8} (h : b ∈ header n) :
    isDigitByte b = true := by
  rw [header_eq_map, List.mem_map] at h
  obtain ⟨c, hc, rfl⟩ := h
  have hd := isDigit_of_mem_paddedDigits hc
  have hb := toNat_of_isDigit hd
  rw [isDigitByte, toNat_ofNat_of_isDigit hd, Bool.and_eq_true, decide_eq_true_eq,
    decide_eq_true_eq]
  exact hb

/-- A header spells the length. -/
theorem numberOfDigits_header (n : Nat) : numberOfDigits (header n) = n := by
  rw [header_eq_map, numberOfDigits_map fun c hc => isDigit_of_mem_paddedDigits hc,
    ofDigitChars_paddedDigits]

/-- Five digits are the header of the number that they spell. -/
theorem header_numberOfDigits {bytes : List UInt8} (hlen : bytes.length = headerLength)
    (h : ∀ b ∈ bytes, isDigitByte b = true) :
    numberOfDigits bytes ≤ maxBodyLength ∧ header (numberOfDigits bytes) = bytes := by
  have hlt := numberOfDigits_lt h
  rw [hlen] at hlt
  have hle : numberOfDigits bytes ≤ maxBodyLength := Nat.le_of_lt_succ hlt
  refine ⟨hle, eq_of_numberOfDigits_eq ?_ (fun b => isDigitByte_of_mem_header) h ?_⟩
  · rw [length_header hle, hlen]
  · exact numberOfDigits_header _

theorem header_injective {n m : Nat} (h : header n = header m) : n = m := by
  rw [← numberOfDigits_header n, h, numberOfDigits_header]

end Frame

end BytecodeDebugger
