import RustAsyncAwait.Proofs.DataFormat

/-! What `deserialize` makes of a stream that stops in a message: it gives back
what is complete and never anything else. -/

namespace RustAsyncAwait.DataLayer
open Library Fallible

variable {order : ByteOrder} {cursor next : Cursor} {kind : ErrorKind} {bytes front : List UInt8} {data : Data}

theorem read_exact_error {count : Nat} :
    perform (read_exact count) cursor = (.error kind, next) ↔
      cursor.remaining.length < count ∧ kind = .unexpectedEof ∧ next = { cursor with position := cursor.bytes.length } := by
  rw [read_exact_eq]
  split
  · rename_i enough
    simp [Nat.not_lt.mpr enough]
  · rename_i short
    simp only [Prod.mk.injEq, Except.error.injEq, Nat.lt_of_not_le short, true_and]
    exact and_congr eq_comm eq_comm

theorem string_from_utf8_error :
    perform (string_from_utf8 bytes) cursor = (.error kind, next) ↔
      from_utf8 bytes = none ∧ kind = .invalidData ∧ next = cursor := by
  unfold string_from_utf8
  cases from_utf8 bytes with
  | none => simp [perform_throw_error]
  | some found => simp [perform_pure_error]

/-- The length field of what is to be read. -/
def length_field (order : ByteOrder) (bytes : List UInt8) : Nat :=
  (UInt32.ofNat (of_ne_bytes order ((bytes.drop 6).take 4))).toNat

/-- There are fewer bytes than the header says, or no whole header. -/
def Short (order : ByteOrder) (bytes : List UInt8) : Prop := bytes.length < 10 ∨ bytes.length < 10 + length_field order bytes

theorem length_field_front (part : front <+: bytes) (header : 10 ≤ front.length) :
    length_field order front = length_field order bytes := by
  obtain ⟨rest, rfl⟩ := part
  rw [length_field, length_field, List.drop_append_of_le_length (by omega), List.take_append_of_le_length (by simp; omega)]

theorem length_field_serialize (fits : data.fits) : length_field order (data.serialize order) = (as_bytes data.field3).length := by
  have small : (UInt32.ofNat (as_bytes data.field3).length).toNat = (as_bytes data.field3).length := UInt32.toNat_ofNat_of_lt' fits
  have cut : ((data.serialize order).drop 6).take 4 = ne_bytes order 4 (UInt32.ofNat (as_bytes data.field3).length).toNat := by
    have six : (ne_bytes order 4 data.field1.toNat ++ ne_bytes order 2 data.field2.toNat).length = 6 := by simp
    rw [Data.serialize, List.append_assoc, List.drop_left' six, List.take_left' (ne_bytes_length order 4 _)]
  rw [length_field, cut, small, of_ne_bytes_ne_bytes order 4 _ (fits : _ < 2 ^ (8 * 4)), UInt32.toNat_ofNat_of_lt' fits]

theorem field3_serialize (part : data.serialize order <+: bytes) :
    (bytes.drop 10).take (as_bytes data.field3).length = as_bytes data.field3 := by
  obtain ⟨rest, rfl⟩ := part
  have ten : (ne_bytes order 4 data.field1.toNat ++ ne_bytes order 2 data.field2.toNat ++
      ne_bytes order 4 (UInt32.ofNat (as_bytes data.field3).length).toNat).length = 10 := by simp
  rw [Data.serialize, List.append_assoc, List.drop_left' ten, List.take_left]

/-- Where the message is not cut, it is not short. -/
theorem not_short (fits : data.fits) (part : data.serialize order <+: bytes) : ¬ Short order bytes := by
  have length := part.length_le
  rw [serialize_length] at length
  have field : length_field order (data.serialize order) = length_field order bytes :=
    length_field_front part (by rw [serialize_length]; omega)
  rw [length_field_serialize fits] at field
  unfold Short
  omega

/-- Where it is cut, it is. -/
theorem short_of_cut (fits : data.fits) (part : front <+: data.serialize order) (cut : front ≠ data.serialize order) :
    Short order front := by
  have less : front.length < (data.serialize order).length :=
    Nat.lt_of_le_of_ne part.length_le fun same => cut (part.eq_of_length same)
  rw [serialize_length] at less
  unfold Short
  by_cases header : front.length < 10
  · exact .inl header
  · right
    rw [length_field_front part (Nat.not_lt.mp header), length_field_serialize fits]
    exact less

/-- Every way in which `deserialize` fails, and where it leaves the cursor. -/
theorem deserialize_fails (failed : perform (Data.deserialize order) cursor = (.error kind, next)) :
    (Short order cursor.remaining ∧ kind = .unexpectedEof ∧ next = { cursor with position := cursor.bytes.length }) ∨
      (¬ Short order cursor.remaining ∧
        from_utf8 ((cursor.remaining.drop 10).take (length_field order cursor.remaining)) = none ∧
        kind = .invalidData ∧ next = cursor.advance (10 + length_field order cursor.remaining)) := by
  unfold Data.deserialize at failed
  simp only [perform_bind_error, read_exact_error, read_exact_ok, string_from_utf8_error, perform_pure_error, and_false,
    exists_false, or_false] at failed
  have short {count : Nat} (few : cursor.remaining.length < count) (header : count ≤ 10) : Short order cursor.remaining :=
    .inl (Nat.lt_of_lt_of_le few header)
  rcases failed with ⟨few, rfl, rfl⟩ | ⟨_, _, ⟨_, _, rfl⟩, failed⟩
  · exact .inl ⟨short few (by decide), rfl, rfl⟩
  rcases failed with ⟨few, rfl, rfl⟩ | ⟨_, _, ⟨_, _, rfl⟩, failed⟩
  · rw [Cursor.advance_remaining, List.length_drop] at few
    exact .inl ⟨short (show _ < 6 by omega) (by decide), rfl, rfl⟩
  rcases failed with ⟨few, rfl, rfl⟩ | ⟨len_bytes, _, ⟨size, front, rfl⟩, failed⟩
  · rw [Cursor.advance_remaining, Cursor.advance_remaining, List.drop_drop, List.length_drop] at few
    exact .inl ⟨short (show _ < 10 by omega) (by decide), rfl, rfl⟩
  rw [Cursor.advance_remaining, Cursor.advance_remaining, List.drop_drop] at front
  have header := front.length_le
  rw [size, List.length_drop] at header
  have field : (UInt32.ofNat (of_ne_bytes order len_bytes)).toNat = length_field order cursor.remaining := by
    rw [length_field, List.prefix_iff_eq_take.mp front, size]
  rw [field] at failed
  rcases failed with ⟨few, rfl, rfl⟩ | ⟨field3_bytes, _, ⟨size, front, rfl⟩, invalid, rfl, rfl⟩
  · simp only [Cursor.advance_remaining, List.drop_drop, List.length_drop] at few
    exact .inl ⟨.inr (by omega), rfl, rfl⟩
  · simp only [Cursor.advance_remaining, List.drop_drop] at front
    have whole := front.length_le
    rw [size, List.length_drop] at whole
    refine .inr ⟨?_, ?_, rfl, ?_⟩
    · unfold Short
      omega
    · rw [← size, ← List.prefix_iff_eq_take.mp front]
      exact invalid
    · simp only [Cursor.advance_advance]

/-- `deserialize` fails with `UnexpectedEof` just where bytes are missing, and with
`InvalidData` just where field3 is not UTF-8. -/
theorem deserialize_error_iff :
    perform (Data.deserialize order) cursor = (.error kind, next) ↔
      (Short order cursor.remaining ∧ kind = .unexpectedEof ∧ next = { cursor with position := cursor.bytes.length }) ∨
      (¬ Short order cursor.remaining ∧
        from_utf8 ((cursor.remaining.drop 10).take (length_field order cursor.remaining)) = none ∧
        kind = .invalidData ∧ next = cursor.advance (10 + length_field order cursor.remaining)) := by
  refine ⟨deserialize_fails, fun fails => ?_⟩
  cases outcome : perform (Data.deserialize order) cursor with
  | mk result last =>
    cases result with
    | ok data =>
      obtain ⟨fits, front, _⟩ := deserialize_ok.mp outcome
      rcases fails with ⟨short, _⟩ | ⟨_, invalid, _⟩
      · exact absurd short (not_short fits front)
      · have header : 10 ≤ (data.serialize order).length := by
          rw [serialize_length]
          omega
        rw [← length_field_front front header, length_field_serialize fits, field3_serialize front,
          from_utf8_eq_some.mpr rfl] at invalid
        cases invalid
    | error other =>
      rcases deserialize_fails outcome with ⟨short, rfl, rfl⟩ | ⟨whole, _, rfl, rfl⟩ <;>
        rcases fails with ⟨also, rfl, rfl⟩ | ⟨also, _, rfl, rfl⟩
      · rfl
      · exact absurd short also
      · exact absurd also whole
      · rfl

/-- A message that is cut is refused, and never taken for another one. -/
theorem deserialize_cut (fits : data.fits) (part : cursor.remaining <+: data.serialize order)
    (cut : cursor.remaining ≠ data.serialize order) :
    perform (Data.deserialize order) cursor = (.error .unexpectedEof, { cursor with position := cursor.bytes.length }) :=
  deserialize_error_iff.mpr (.inl ⟨short_of_cut fits part cut, rfl, rfl⟩)

/-- How a stream of messages that stops somewhere is read: `complete` are the
messages before the cut. -/
theorem deserialize_stream_cut (messages : List Data) (fits : ∀ data ∈ messages, data.fits)
    (part : cursor.remaining <+: messages.flatMap (Data.serialize order)) :
    ∃ complete rest, messages = complete ++ rest ∧
      perform (Data.deserialize_times order complete.length) cursor =
        (.ok complete, cursor.advance (complete.flatMap (Data.serialize order)).length) ∧
      perform (Data.deserialize order) (cursor.advance (complete.flatMap (Data.serialize order)).length) =
        (.error .unexpectedEof, { cursor with position := cursor.bytes.length }) ∧
      ∀ data more, rest = data :: more →
        cursor.remaining.length < (complete.flatMap (Data.serialize order)).length + (data.serialize order).length := by
  induction messages generalizing cursor with
  | nil =>
    have none_ : cursor.remaining = [] := List.prefix_nil.mp part
    refine ⟨[], [], rfl, rfl, ?_, by simp⟩
    exact deserialize_error_iff.mpr (.inl ⟨.inl (by simp [none_]), rfl, rfl⟩)
  | cons data messages ih =>
    obtain ⟨first, later⟩ := List.forall_mem_cons.mp fits
    rw [List.flatMap_cons] at part
    by_cases whole : data.serialize order <+: cursor.remaining
    · have read := deserialize_ok.mpr ⟨first, whole, rfl⟩
      have behind : (cursor.advance (data.serialize order).length).remaining <+: messages.flatMap (Data.serialize order) := by
        obtain ⟨rest, split⟩ := whole
        rw [Cursor.advance_remaining, ← split, List.drop_left]
        rw [← split] at part
        exact (List.prefix_append_right_inj _).mp part
      obtain ⟨complete, rest, same, times, stops, cut⟩ := ih later behind
      have length : ((data :: complete).flatMap (Data.serialize order)).length =
          (data.serialize order).length + (complete.flatMap (Data.serialize order)).length := by
        rw [List.flatMap_cons, List.length_append]
      rw [Cursor.advance_advance, ← length] at times stops
      refine ⟨data :: complete, rest, by rw [same]; rfl, ?_, stops, ?_⟩
      · simp only [List.length_cons, Data.deserialize_times, perform_bind_ok, perform_pure_ok]
        exact ⟨data, _, read, complete, _, times, rfl, rfl⟩
      · intro other more split
        have short := cut other more split
        have enough := whole.length_le
        rw [Cursor.advance_remaining, List.length_drop] at short
        omega
    · have front : cursor.remaining <+: data.serialize order :=
        (List.prefix_or_prefix_of_prefix part (List.prefix_append _ _)).resolve_right whole
      have cut : cursor.remaining ≠ data.serialize order := fun same => whole (same ▸ List.prefix_refl _)
      refine ⟨[], data :: messages, rfl, rfl, ?_, ?_⟩
      · exact deserialize_cut first front cut
      · intro other more split
        cases split
        simpa using Nat.lt_of_le_of_ne front.length_le fun same => cut (front.eq_of_length same)

/-- Two messages, of which the second lacks its last byte. -/
theorem deserialize_stream_cut_two :
    let cursor : Cursor := ⟨([⟨7, 8, "hi"⟩, ⟨9, 10, "é"⟩].flatMap (Data.serialize .little)).take 23, 0⟩
    ∃ complete rest, [⟨7, 8, "hi"⟩, ⟨9, 10, "é"⟩] = complete ++ rest ∧
      perform (Data.deserialize_times .little complete.length) cursor =
        (.ok complete, cursor.advance (complete.flatMap (Data.serialize .little)).length) ∧
      perform (Data.deserialize .little) (cursor.advance (complete.flatMap (Data.serialize .little)).length) =
        (.error .unexpectedEof, { cursor with position := cursor.bytes.length }) ∧
      ∀ data more, rest = data :: more → cursor.remaining.length <
        (complete.flatMap (Data.serialize .little)).length + (data.serialize .little).length :=
  deserialize_stream_cut [⟨7, 8, "hi"⟩, ⟨9, 10, "é"⟩] (by decide) (List.take_prefix _ _)

end RustAsyncAwait.DataLayer
