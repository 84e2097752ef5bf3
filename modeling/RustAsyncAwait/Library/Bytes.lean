import Mathlib.Algebra.GroupWithZero.Nat
import Mathlib.Tactic.Ring

/-! Bytes: fixed-width numbers in either byte order, and text in UTF-8. -/

namespace RustAsyncAwait.Library

/-- The lowest `width` digits of a number in base 256, lowest first. -/
def le_bytes : Nat → Nat → List UInt8
  | 0, _ => []
  | width + 1, number => UInt8.ofNat number :: le_bytes width (number / 256)

def of_le_bytes : List UInt8 → Nat
  | [] => 0
  | byte :: rest => byte.toNat + 256 * of_le_bytes rest

theorem le_bytes_length (width number : Nat) : (le_bytes width number).length = width := by
  induction width generalizing number with
  | zero => rfl
  | succ width ih => simp [le_bytes, ih]

theorem of_le_bytes_le_bytes (width number : Nat) (small : number < 256 ^ width) :
    of_le_bytes (le_bytes width number) = number := by
  induction width generalizing number with
  | zero =>
    simp only [pow_zero, Nat.lt_one_iff] at small
    rw [small]
    rfl
  | succ width ih =>
    have higher : number / 256 < 256 ^ width := by
      rw [pow_succ] at small
      omega
    simp only [le_bytes, of_le_bytes, ih _ higher, UInt8.toNat_ofNat']
    omega

theorem of_le_bytes_lt (bytes : List UInt8) : of_le_bytes bytes < 256 ^ bytes.length := by
  induction bytes with
  | nil => simp [of_le_bytes]
  | cons byte rest ih =>
    have digit : byte.toNat < 256 := byte.toNat_lt
    simp only [of_le_bytes, List.length_cons, pow_succ]
    omega

theorem le_bytes_of_le_bytes (bytes : List UInt8) : le_bytes bytes.length (of_le_bytes bytes) = bytes := by
  induction bytes with
  | nil => rfl
  | cons byte rest ih =>
    have digit : byte.toNat < 256 := byte.toNat_lt
    have higher : (byte.toNat + 256 * of_le_bytes rest) / 256 = of_le_bytes rest := by omega
    simp only [List.length_cons, le_bytes, of_le_bytes, higher, ih]
    congr 1
    apply UInt8.toNat_inj.mp
    rw [UInt8.toNat_ofNat']
    omega

/-- The order in which the machine keeps the bytes of a number. -/
inductive ByteOrder
  | little
  | big
  deriving Repr, DecidableEq

def ne_bytes (order : ByteOrder) (width number : Nat) : List UInt8 :=
  match order with
  | .little => le_bytes width number
  | .big => (le_bytes width number).reverse

def of_ne_bytes (order : ByteOrder) (bytes : List UInt8) : Nat :=
  match order with
  | .little => of_le_bytes bytes
  | .big => of_le_bytes bytes.reverse

variable (order : ByteOrder)

@[simp] theorem ne_bytes_length (width number : Nat) : (ne_bytes order width number).length = width := by
  cases order <;> simp [ne_bytes, le_bytes_length]

theorem of_ne_bytes_ne_bytes (width number : Nat) (small : number < 256 ^ width) :
    of_ne_bytes order (ne_bytes order width number) = number := by
  cases order <;> simp [ne_bytes, of_ne_bytes, of_le_bytes_le_bytes width number small]

theorem of_ne_bytes_lt (bytes : List UInt8) : of_ne_bytes order bytes < 256 ^ bytes.length := by
  cases order with
  | little => exact of_le_bytes_lt bytes
  | big => simpa [of_ne_bytes] using of_le_bytes_lt bytes.reverse

theorem ne_bytes_of_ne_bytes (bytes : List UInt8) :
    ne_bytes order bytes.length (of_ne_bytes order bytes) = bytes := by
  cases order with
  | little => exact le_bytes_of_le_bytes bytes
  | big =>
    have back := le_bytes_of_le_bytes bytes.reverse
    rw [List.length_reverse] at back
    simp [ne_bytes, of_ne_bytes, back]

theorem ne_bytes_inj {width one other : Nat} (small : one < 256 ^ width) (also_small : other < 256 ^ width)
    (same : ne_bytes order width one = ne_bytes order width other) : one = other := by
  rw [← of_ne_bytes_ne_bytes order width one small, same, of_ne_bytes_ne_bytes order width other also_small]

/-- The number of so many bytes with its bytes in the opposite order. -/
def swap_bytes (width number : Nat) : Nat := of_le_bytes (le_bytes width number).reverse

theorem swap_bytes_lt (width number : Nat) : swap_bytes width number < 256 ^ width := by
  have below := of_le_bytes_lt (le_bytes width number).reverse
  rwa [List.length_reverse, le_bytes_length] at below

/-- What one machine writes is the swapped number to a machine of the other order. -/
theorem ne_bytes_swap {first second : ByteOrder} (apart : first ≠ second) (width number : Nat) :
    ne_bytes first width number = ne_bytes second width (swap_bytes width number) := by
  have back := le_bytes_of_le_bytes (le_bytes width number).reverse
  rw [List.length_reverse, le_bytes_length] at back
  cases first with
  | little =>
    cases second with
    | little => exact absurd rfl apart
    | big => rw [ne_bytes, ne_bytes, swap_bytes, back, List.reverse_reverse]
  | big =>
    cases second with
    | little => rw [ne_bytes, ne_bytes, swap_bytes, back]
    | big => exact absurd rfl apart

/-- A text as the bytes of its UTF-8 encoding. -/
def as_bytes (text : String) : List UInt8 := text.toUTF8.data.toList

/-- The text some bytes encode, `none` where they are not UTF-8. -/
def from_utf8 (bytes : List UInt8) : Option String := String.fromUTF8? ⟨bytes.toArray⟩

/-- Validation accepts exactly the encodings of texts. -/
theorem from_utf8_eq_some {bytes : List UInt8} {text : String} :
    from_utf8 bytes = some text ↔ bytes = as_bytes text := by
  unfold from_utf8 String.fromUTF8?
  constructor
  · intro decoded
    split at decoded
    · cases decoded
      simp [as_bytes, String.fromUTF8]
    · cases decoded
  · intro encoded
    have same : (⟨bytes.toArray⟩ : ByteArray) = text.toByteArray := by
      simp [encoded, as_bytes]
    rw [dif_pos (by rw [same]; exact text.isValidUTF8)]
    congr 1
    apply String.toByteArray_inj.mp
    simpa [String.fromUTF8] using same

theorem as_bytes_inj {one other : String} (same : as_bytes one = as_bytes other) : one = other := by
  have first : from_utf8 (as_bytes one) = some one := from_utf8_eq_some.mpr rfl
  have second : from_utf8 (as_bytes one) = some other := from_utf8_eq_some.mpr same
  exact Option.some.inj (first.symm.trans second)

theorem as_bytes_ofList (chars : List Char) : as_bytes (String.ofList chars) = chars.flatMap String.utf8EncodeChar := by
  simp only [as_bytes, String.toUTF8_eq_toByteArray, String.toByteArray_ofList, List.utf8Encode]
  simp

theorem encode_ascii {byte : UInt8} (ascii : byte.toNat < 128) : String.utf8EncodeChar (Char.ofNat byte.toNat) = [byte] := by
  have valid : byte.toNat.isValidChar := .inl (by omega)
  have value : (Char.ofNat byte.toNat).val.toNat = byte.toNat := by
    rw [Char.ofNat, dif_pos valid]
    rfl
  rw [String.utf8EncodeChar_eq_singleton]
  · congr 1
    apply UInt8.toNat_inj.mp
    rw [UInt32.toNat_toUInt8, value]
    omega
  · apply Char.utf8Size_eq_one_iff.mpr
    apply UInt32.le_iff_toNat_le.mpr
    rw [value]
    exact Nat.le_of_lt_succ ascii

/-- ASCII is UTF-8. -/
theorem from_utf8_ascii {bytes : List UInt8} (ascii : ∀ byte ∈ bytes, byte.toNat < 128) : ∃ text, from_utf8 bytes = some text := by
  refine ⟨String.ofList (bytes.map fun byte => Char.ofNat byte.toNat), from_utf8_eq_some.mpr ?_⟩
  rw [as_bytes_ofList]
  induction bytes with
  | nil => rfl
  | cons byte bytes ih =>
    obtain ⟨first, ascii⟩ := List.forall_mem_cons.mp ascii
    rw [List.map_cons, List.flatMap_cons, encode_ascii first, ← ih ascii]
    rfl

end RustAsyncAwait.Library
