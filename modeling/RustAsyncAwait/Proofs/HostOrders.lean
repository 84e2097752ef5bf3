import RustAsyncAwait.Proofs.DataFormat

/-! A message between hosts. `to_ne_bytes` writes the numbers in the order of
the sender, and `from_ne_bytes` reads them in that of the receiver. -/

namespace RustAsyncAwait.DataLayer
open Library Fallible

variable {first second : ByteOrder} {data other : Data} {rest : List UInt8}

/-- The length that `serialize` writes. -/
def Data.field3_len (data : Data) : Nat := (UInt32.ofNat (as_bytes data.field3).length).toNat

/-- The three numbers of a message are the same with their bytes swapped. -/
structure Data.Symmetric (data : Data) : Prop where
  field1 : swap_bytes 4 data.field1.toNat = data.field1.toNat
  field2 : swap_bytes 2 data.field2.toNat = data.field2.toNat
  field3_len : swap_bytes 4 data.field3_len = data.field3_len

/-- The bytes of a message, as a host of the other order reads them. -/
theorem serialize_swapped (apart : first ≠ second) (data : Data) :
    data.serialize first =
      ne_bytes second 4 (swap_bytes 4 data.field1.toNat) ++ ne_bytes second 2 (swap_bytes 2 data.field2.toNat) ++
        ne_bytes second 4 (swap_bytes 4 data.field3_len) ++ as_bytes data.field3 := by
  simp only [Data.serialize, Data.field3_len, ne_bytes_swap apart]

/-- What a host of the other order makes of a message, if it accepts its bytes. -/
theorem deserialize_swapped (apart : first ≠ second) {next : Cursor}
    (outcome : perform (Data.deserialize second) { bytes := data.serialize first ++ rest, position := 0 } = (.ok other, next)) :
    other.field1.toNat = swap_bytes 4 data.field1.toNat ∧ other.field2.toNat = swap_bytes 2 data.field2.toNat ∧
      (as_bytes other.field3).length = swap_bytes 4 data.field3_len := by
  obtain ⟨fits, ⟨behind, split⟩, _⟩ := deserialize_ok.mp outcome
  have split : other.serialize second ++ behind = data.serialize first ++ rest := split
  rw [serialize_swapped apart] at split
  simp only [Data.serialize, List.append_assoc] at split
  obtain ⟨same1, split⟩ := List.append_inj split (by simp)
  obtain ⟨same2, split⟩ := List.append_inj split (by simp)
  obtain ⟨same3, _⟩ := List.append_inj split (by simp)
  have length : (UInt32.ofNat (as_bytes other.field3).length).toNat = (as_bytes other.field3).length :=
    UInt32.toNat_ofNat_of_lt' fits
  rw [← length]
  refine ⟨?_, ?_, ?_⟩
  · exact ne_bytes_inj second other.field1.toNat_lt (swap_bytes_lt 4 _) same1
  · exact ne_bytes_inj second other.field2.toNat_lt (swap_bytes_lt 2 _) same2
  · exact ne_bytes_inj second (UInt32.toNat_lt _) (swap_bytes_lt 4 _) same3

/-- Symmetric messages are the same bytes on every host. -/
theorem Data.Symmetric.serialize (symmetric : data.Symmetric) (first second : ByteOrder) :
    data.serialize first = data.serialize second := by
  by_cases same : first = second
  · rw [same]
  · rw [serialize_swapped same, symmetric.field1, symmetric.field2, symmetric.field3_len]
    rfl

/-- A message arrives, and exactly its bytes are taken, if and only if the two
hosts have one byte order or the message does not depend on it. -/
theorem deserialize_host_iff (first second : ByteOrder) (data : Data) (fits : data.fits) (rest : List UInt8) :
    (∃ next, perform (Data.deserialize second) { bytes := data.serialize first ++ rest, position := 0 } = (.ok data, next) ∧
      next.position = (data.serialize first).length) ↔ first = second ∨ data.Symmetric := by
  constructor
  · intro given
    obtain ⟨next, outcome, _⟩ := given
    by_cases same : first = second
    · exact .inl same
    · obtain ⟨field1, field2, field3_len⟩ := deserialize_swapped same outcome
      have length : data.field3_len = (as_bytes data.field3).length := UInt32.toNat_ofNat_of_lt' fits
      exact .inr ⟨field1.symm, field2.symm, (length.trans field3_len).symm⟩
  · intro either
    have same : data.serialize first = data.serialize second := by
      rcases either with same | symmetric
      · rw [same]
      · exact symmetric.serialize first second
    rw [same]
    refine ⟨_, deserialize_ok.mpr ⟨fits, List.prefix_append _ _, rfl⟩, ?_⟩
    simp [Cursor.advance]

/-- Between two hosts of one order, and between any two for a message that reads the same in both. -/
theorem deserialize_host_iff_both :
    (∃ next, perform (Data.deserialize .big)
        { bytes := Data.serialize .big ⟨1, 2, "hi"⟩ ++ [255], position := 0 } = (.ok ⟨1, 2, "hi"⟩, next) ∧
      next.position = (Data.serialize .big ⟨1, 2, "hi"⟩).length) ∧
    ∃ next, perform (Data.deserialize .big)
        { bytes := Data.serialize .little ⟨0, 257, ""⟩ ++ [255], position := 0 } = (.ok ⟨0, 257, ""⟩, next) ∧
      next.position = (Data.serialize .little ⟨0, 257, ""⟩).length := by
  refine ⟨(deserialize_host_iff .big .big ⟨1, 2, "hi"⟩ (by decide) [255]).mpr (.inl rfl), ?_⟩
  exact (deserialize_host_iff .little .big ⟨0, 257, ""⟩ (by decide) [255]).mpr (.inr ⟨by decide, by decide, by decide⟩)

/-- The number 1, from a little-endian host to a big-endian one. -/
theorem not_deserialize_host :
    ¬ ∀ (first second : ByteOrder) (data : Data), data.fits → ∃ next,
      perform (Data.deserialize second) { bytes := data.serialize first, position := 0 } = (.ok data, next) ∧
        next.position = (data.serialize first).length := by
  intro always
  obtain ⟨next, outcome, _⟩ := always .little .big ⟨1, 0, ""⟩ (by decide)
  rw [← List.append_nil (Data.serialize .little ⟨1, 0, ""⟩)] at outcome
  have swapped := (deserialize_swapped (by decide) outcome).1
  exact absurd swapped (by decide)

end RustAsyncAwait.DataLayer
