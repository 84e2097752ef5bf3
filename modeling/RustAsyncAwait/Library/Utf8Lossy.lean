import RustAsyncAwait.Library.Bytes

/-! Decoding bytes that need not be UTF-8, with U+FFFD for what is not. -/

namespace RustAsyncAwait.Library

/-- A byte of a character behind its first one. -/
def is_continuation (byte : UInt8) : Bool := 0x80 ≤ byte && byte ≤ 0xBF

/-- What can follow the first byte of a character of three or four bytes. -/
def is_second (first second : UInt8) : Bool :=
  if first = 0xE0 then 0xA0 ≤ second && second ≤ 0xBF
  else if first = 0xED then 0x80 ≤ second && second ≤ 0x9F
  else if first = 0xF0 then 0x90 ≤ second && second ≤ 0xBF
  else if first = 0xF4 then 0x80 ≤ second && second ≤ 0x8F
  else 0xE1 ≤ first && first ≤ 0xF3 && is_continuation second

/-- The bytes that one U+FFFD stands for: as many as could begin a character. -/
def invalid_length : List UInt8 → Nat
  | first :: second :: rest =>
    if is_second first second then
      match rest with
      | third :: _ => if 0xF0 ≤ first && is_continuation third then 3 else 2
      | [] => 2
    else 1
  | _ => 1

theorem invalid_length_pos (bytes : List UInt8) : 0 < invalid_length bytes := by
  unfold invalid_length
  split
  · split
    · split
      · split <;> decide
      · decide
    · decide
  · decide

/-- `String::from_utf8_lossy`, by its characters. -/
def chars_lossy (bytes : List UInt8) : List Char :=
  if bytes = [] then
    []
  else
    match ByteArray.utf8DecodeChar? ⟨bytes.toArray⟩ 0 with
    | some char => char :: chars_lossy (bytes.drop char.utf8Size)
    | none => Char.ofNat 0xFFFD :: chars_lossy (bytes.drop (invalid_length bytes))
termination_by bytes.length
decreasing_by
  · have left := List.length_pos_iff.mpr ‹_›
    have size := char.utf8Size_pos
    rw [List.length_drop]
    omega
  · have left := List.length_pos_iff.mpr ‹_›
    have size := invalid_length_pos bytes
    rw [List.length_drop]
    omega

def from_utf8_lossy (bytes : List UInt8) : String := String.ofList (chars_lossy bytes)

/-- Nothing is lost of a text. -/
theorem from_utf8_lossy_as_bytes (text : String) : from_utf8_lossy (as_bytes text) = text := by
  have whole (chars : List Char) : chars_lossy (as_bytes (String.ofList chars)) = chars := by
    induction chars with
    | nil =>
      unfold chars_lossy
      rfl
    | cons char chars ih =>
      have encoded := as_bytes_ofList (char :: chars)
      rw [List.flatMap_cons, ← as_bytes_ofList] at encoded
      have some_ : as_bytes (String.ofList (char :: chars)) ≠ [] := by
        rw [encoded]
        exact List.append_ne_nil_of_left_ne_nil (List.length_pos_iff.mp (by simp [char.utf8Size_pos])) _
      have decoded : ByteArray.utf8DecodeChar? ⟨(as_bytes (String.ofList (char :: chars))).toArray⟩ 0 = some char := by
        have same : (⟨(as_bytes (String.ofList (char :: chars))).toArray⟩ : ByteArray) = (char :: chars).utf8Encode := by
          simp only [as_bytes, String.toUTF8_eq_toByteArray, String.toByteArray_ofList, Array.toArray_toList]
        rw [same, List.utf8DecodeChar?_utf8Encode_cons]
      unfold chars_lossy
      rw [if_neg some_]
      simp only [decoded]
      rw [encoded, List.drop_left' (String.length_utf8EncodeChar char), ih]
  rw [from_utf8_lossy]
  have same := whole text.toList
  rw [String.ofList_toList] at same
  rw [same, String.ofList_toList]

end RustAsyncAwait.Library
