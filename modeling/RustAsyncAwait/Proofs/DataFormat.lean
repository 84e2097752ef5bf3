import RustAsyncAwait.DataLayer

/-! The wire format of `Data` delimits itself: `deserialize` accepts exactly
what `serialize` writes, and takes no byte more. -/

namespace RustAsyncAwait.DataLayer
open Library Fallible

variable {order : ByteOrder}

/-- The length of field3 fits its header field. -/
def Data.fits (data : Data) : Prop := (as_bytes data.field3).length < 2 ^ 32

instance (data : Data) : Decidable data.fits := inferInstanceAs (Decidable ((as_bytes data.field3).length < 2 ^ 32))

theorem Cursor.advance_advance (cursor : Cursor) (first second : Nat) :
    (cursor.advance first).advance second = cursor.advance (first + second) := by
  simp [Cursor.advance, Nat.add_assoc]

/-- Past the ten bytes of the header and a field3 of `count` bytes. -/
private theorem Cursor.advance_fields (cursor : Cursor) (count : Nat) :
    (((cursor.advance 4).advance 2).advance 4).advance count = cursor.advance (10 + count) := by
  simp only [Cursor.advance_advance]

@[simp] theorem Cursor.advance_remaining (cursor : Cursor) (count : Nat) :
    (cursor.advance count).remaining = cursor.remaining.drop count := by
  simp [Cursor.advance, Cursor.remaining]

private theorem append_prefix_iff {first second input : List UInt8} :
    first ++ second <+: input ↔ first <+: input ∧ second <+: input.drop first.length := by
  constructor
  · intro front
    obtain ⟨rest, rfl⟩ := front
    simp
  · intro fronts
    obtain ⟨⟨middle, rfl⟩, front⟩ := fronts
    simpa using front

theorem read_exact_eq (cursor : Cursor) (count : Nat) :
    perform (read_exact count) cursor =
      if count ≤ cursor.remaining.length then (.ok (cursor.remaining.take count), cursor.advance count)
      else (.error .unexpectedEof, { cursor with position := cursor.bytes.length }) := by
  unfold read_exact
  rw [perform_get_bind]
  split <;> rfl

/-- A read gives the next bytes, if there are that many. -/
theorem read_exact_ok {cursor next : Cursor} {count : Nat} {bytes : List UInt8} :
    perform (read_exact count) cursor = (.ok bytes, next) ↔
      bytes.length = count ∧ bytes <+: cursor.remaining ∧ next = cursor.advance count := by
  rw [read_exact_eq]
  by_cases enough : count ≤ cursor.remaining.length
  · rw [if_pos enough]
    constructor
    · intro read
      cases read
      exact ⟨List.length_take_of_le enough, List.take_prefix _ _, rfl⟩
    · intro read
      obtain ⟨size, front, rfl⟩ := read
      rw [List.prefix_iff_eq_take.mp front, size]
  · rw [if_neg enough]
    constructor
    · intro read
      cases read
    · intro read
      obtain ⟨size, front, rfl⟩ := read
      exact absurd (size ▸ front.length_le) enough

private theorem u32_bytes {bytes : List UInt8} (size : bytes.length = 4) :
    ne_bytes order 4 (UInt32.ofNat (of_ne_bytes order bytes)).toNat = bytes := by
  have small := of_ne_bytes_lt order bytes
  rw [size] at small
  rw [UInt32.toNat_ofNat_of_lt' (by simpa using small), ← size, ne_bytes_of_ne_bytes]

private theorem u16_bytes {bytes : List UInt8} (size : bytes.length = 2) :
    ne_bytes order 2 (UInt16.ofNat (of_ne_bytes order bytes)).toNat = bytes := by
  have small := of_ne_bytes_lt order bytes
  rw [size] at small
  rw [UInt16.toNat_ofNat_of_lt' (by simpa using small), ← size, ne_bytes_of_ne_bytes]

private theorem u32_value (value : UInt32) : UInt32.ofNat (of_ne_bytes order (ne_bytes order 4 value.toNat)) = value := by
  rw [of_ne_bytes_ne_bytes order 4 _ (by simpa using value.toNat_lt), UInt32.ofNat_toNat]

private theorem u16_value (value : UInt16) : UInt16.ofNat (of_ne_bytes order (ne_bytes order 2 value.toNat)) = value := by
  rw [of_ne_bytes_ne_bytes order 2 _ (by simpa using value.toNat_lt), UInt16.ofNat_toNat]

theorem string_from_utf8_ok {cursor next : Cursor} {bytes : List UInt8} {text : String} :
    perform (string_from_utf8 bytes) cursor = (.ok text, next) ↔ bytes = as_bytes text ∧ next = cursor := by
  unfold string_from_utf8
  rw [← from_utf8_eq_some]
  cases decoded : from_utf8 bytes with
  | none => simp [perform_throw_ok]
  | some found => rw [perform_pure_ok, Option.some.injEq, @eq_comm _ found]

theorem serialize_length (data : Data) : (data.serialize order).length = 10 + (as_bytes data.field3).length := by
  simp [Data.serialize]
  omega

/-- What `deserialize` accepts and where it leaves the cursor. -/
theorem deserialize_ok {cursor next : Cursor} {data : Data} :
    perform (Data.deserialize order) cursor = (.ok data, next) ↔
      data.fits ∧ data.serialize order <+: cursor.remaining ∧
        next = cursor.advance (data.serialize order).length := by
  unfold Data.deserialize
  simp only [perform_bind_ok, read_exact_ok, string_from_utf8_ok, perform_pure_ok]
  constructor
  · intro reads
    obtain ⟨field1_bytes, _, ⟨size1, front1, rfl⟩, field2_bytes, _, ⟨size2, front2, rfl⟩, len_bytes, _,
      ⟨size3, front3, rfl⟩, field3_bytes, _, ⟨size4, front4, rfl⟩, text, _, ⟨encoded, rfl⟩, rfl, rfl⟩ := reads
    subst encoded
    have written : Data.serialize order ⟨UInt32.ofNat (of_ne_bytes order field1_bytes),
        UInt16.ofNat (of_ne_bytes order field2_bytes), text⟩ =
        field1_bytes ++ field2_bytes ++ len_bytes ++ as_bytes text := by
      simp only [Data.serialize, size4, UInt32.ofNat_toNat, u32_bytes size1, u16_bytes size2, u32_bytes size3]
    refine ⟨?_, ?_, ?_⟩
    · have small := (UInt32.ofNat (of_ne_bytes order len_bytes)).toNat_lt
      rwa [← size4] at small
    · rw [written]
      simp only [append_prefix_iff, List.length_append, size1, size2, size3]
      simp only [Cursor.advance_remaining, List.drop_drop] at front2 front3 front4
      exact ⟨⟨⟨front1, front2⟩, front3⟩, front4⟩
    · rw [serialize_length, Cursor.advance_fields, ← size4]
  · intro written
    obtain ⟨small, front, rfl⟩ := written
    have length_field : (UInt32.ofNat (as_bytes data.field3).length).toNat = (as_bytes data.field3).length :=
      UInt32.toNat_ofNat_of_lt' small
    simp only [Data.serialize, append_prefix_iff, List.length_append, ne_bytes_length] at front
    obtain ⟨⟨⟨front1, front2⟩, front3⟩, front4⟩ := front
    refine ⟨_, _, ⟨ne_bytes_length order 4 _, front1, rfl⟩, _, _, ⟨ne_bytes_length order 2 data.field2.toNat, ?_, rfl⟩,
      _, _, ⟨ne_bytes_length order 4 (UInt32.ofNat (as_bytes data.field3).length).toNat, ?_, rfl⟩,
      as_bytes data.field3, _, ⟨?_, ?_, rfl⟩, data.field3, _, ⟨rfl, rfl⟩, ?_, ?_⟩
    · simpa using front2
    · simpa using front3
    · rw [u32_value, length_field]
    · simpa using front4
    · rw [u32_value, u16_value]
    · rw [serialize_length, u32_value, length_field, Cursor.advance_fields]

/-- Deserializing from the front of some bytes, as a self-delimiting format. -/
def Data.format (order : ByteOrder) : Format Data UInt8 where
  valid := Data.fits
  encode := Data.serialize order
  decode bytes :=
    match perform (Data.deserialize order) { bytes, position := 0 } with
    | (.ok data, next) => some (data, next.remaining)
    | (.error _, _) => none
  exact := by
    intro bytes data rest
    have start : (Cursor.mk bytes 0).remaining = bytes := rfl
    constructor
    · intro decoded
      split at decoded
      · rename_i found next outcome
        obtain ⟨fits, front, rfl⟩ := deserialize_ok.mp outcome
        cases decoded
        rw [start] at front
        rw [Cursor.advance_remaining, start]
        exact ⟨fits, (List.prefix_iff_eq_append.mp front).symm⟩
      · cases decoded
    · intro encoded
      obtain ⟨fits, rfl⟩ := encoded
      rw [deserialize_ok.mpr ⟨fits, start.symm ▸ List.prefix_append _ _, rfl⟩]
      simp [start]

private theorem deserialize_error {cursor : Cursor}
    (none : ∀ data : Data, data.fits → ¬ data.serialize order <+: cursor.remaining) :
    ∃ kind next, perform (Data.deserialize order) cursor = (.error kind, next) := by
  cases outcome : perform (Data.deserialize order) cursor with
  | mk result next =>
    cases result with
    | ok data =>
      obtain ⟨fits, front, _⟩ := deserialize_ok.mp outcome
      exact absurd front (none data fits)
    | error kind => exact ⟨kind, next, rfl⟩

/-- `deserialize` accepts exactly the image of `serialize`, at every cursor. -/
theorem deserialize_exact (order : ByteOrder) (cursor : Cursor) :
    (∀ data next, perform (Data.deserialize order) cursor = (.ok data, next) ↔
      data.fits ∧ data.serialize order <+: cursor.remaining ∧ next = cursor.advance (data.serialize order).length) ∧
    (∀ one other : Data, one.fits → other.fits → one.serialize order <+: cursor.remaining →
      other.serialize order <+: cursor.remaining → one = other) ∧
    ((∀ data : Data, data.fits → ¬ data.serialize order <+: cursor.remaining) →
      ∃ kind next, perform (Data.deserialize order) cursor = (.error kind, next)) ∧
    (∀ data : Data, data.fits → cursor.remaining <+: data.serialize order → cursor.remaining ≠ data.serialize order →
      ∃ kind next, perform (Data.deserialize order) cursor = (.error kind, next)) := by
  refine ⟨fun data next => deserialize_ok, ?_, deserialize_error, ?_⟩
  · intro one other first second front also
    exact (Data.format order).unique first second front also
  · intro data fits front cut
    apply deserialize_error
    intro other accepted inside
    have same : other = data := (Data.format order).unique accepted fits (inside.trans front) (List.prefix_refl _)
    subst same
    exact cut (front.eq_of_length (Nat.le_antisymm front.length_le inside.length_le))

private theorem deserialize_times_ok (messages : List Data) (fits : ∀ data ∈ messages, data.fits) (cursor : Cursor)
    (front : messages.flatMap (Data.serialize order) <+: cursor.remaining) :
    perform (Data.deserialize_times order messages.length) cursor =
      (.ok messages, cursor.advance (messages.flatMap (Data.serialize order)).length) := by
  induction messages generalizing cursor with
  | nil => rfl
  | cons data messages ih =>
    rw [List.flatMap_cons, append_prefix_iff] at front
    have first := deserialize_ok.mpr ⟨fits data (List.mem_cons_self ..), front.1, rfl⟩
    have rest := ih (fun other member => fits other (List.mem_cons_of_mem _ member))
      (cursor.advance (data.serialize order).length) (by simpa using front.2)
    simp only [List.length_cons, Data.deserialize_times, perform_bind_ok, perform_pure_ok]
    refine ⟨data, _, first, messages, _, rest, rfl, ?_⟩
    rw [Cursor.advance_advance, List.flatMap_cons, List.length_append]

/-- `deserialize`, again and again, gives back a stream of messages and stops
right behind it, whatever follows. -/
theorem deserialize_stream (order : ByteOrder) (messages : List Data) (fits : ∀ data ∈ messages, data.fits)
    (tail : List UInt8) :
    perform (Data.deserialize_times order messages.length)
        { bytes := messages.flatMap (Data.serialize order) ++ tail, position := 0 } =
      (.ok messages,
        { bytes := messages.flatMap (Data.serialize order) ++ tail,
          position := (messages.flatMap (Data.serialize order)).length }) := by
  rw [deserialize_times_ok messages fits _ (List.prefix_append _ tail)]
  simp [Cursor.advance]

/-- Two messages, the second with a field3 that is longer in bytes than in characters. -/
theorem deserialize_stream_two :
    perform (Data.deserialize_times .little 2)
        { bytes := [⟨7, 8, "hi"⟩, ⟨9, 10, "é"⟩].flatMap (Data.serialize .little) ++ [255], position := 0 } =
      (.ok [⟨7, 8, "hi"⟩, ⟨9, 10, "é"⟩],
        { bytes := [⟨7, 8, "hi"⟩, ⟨9, 10, "é"⟩].flatMap (Data.serialize .little) ++ [255],
          position := ([⟨7, 8, "hi"⟩, ⟨9, 10, "é"⟩].flatMap (Data.serialize .little)).length }) :=
  deserialize_stream .little [⟨7, 8, "hi"⟩, ⟨9, 10, "é"⟩] (by decide) [255]

/-- Messages at the front of the same bytes have the same length field. -/
private theorem length_field_eq {one other : Data} {input : List UInt8} (first : one.serialize order <+: input)
    (second : other.serialize order <+: input) :
    (UInt32.ofNat (as_bytes one.field3).length).toNat = (UInt32.ofNat (as_bytes other.field3).length).toNat := by
  simp only [Data.serialize, append_prefix_iff, List.length_append, ne_bytes_length] at first second
  have same := List.prefix_of_prefix_length_le first.1.2 second.1.2 (by simp)
  have equal := congrArg (of_ne_bytes order) (same.eq_of_length (by simp))
  rwa [of_ne_bytes_ne_bytes order 4 _ (UInt32.toNat_lt _),
    of_ne_bytes_ne_bytes order 4 _ (UInt32.toNat_lt _)] at equal

/-- What `deserialize` makes of a message whose length does not fit: it fails, or
takes the length modulo 2 ^ 32 for the length and stops inside the message. -/
theorem deserialize_long (order : ByteOrder) (data : Data) (long : ¬ data.fits) (rest : List UInt8) :
    (∃ kind next, perform (Data.deserialize order) { bytes := data.serialize order ++ rest, position := 0 } =
      (.error kind, next)) ∨
    ∃ other next, perform (Data.deserialize order) { bytes := data.serialize order ++ rest, position := 0 } =
      (.ok other, next) ∧ other ≠ data ∧ next.position = 10 + (as_bytes data.field3).length % 2 ^ 32 := by
  cases outcome : perform (Data.deserialize order) { bytes := data.serialize order ++ rest, position := 0 } with
  | mk result next =>
    cases result with
    | error kind => exact .inl ⟨kind, next, rfl⟩
    | ok other =>
      obtain ⟨fits, front, rfl⟩ := deserialize_ok.mp outcome
      refine .inr ⟨other, _, rfl, fun same => long (same ▸ fits), ?_⟩
      have lengths := length_field_eq front (List.prefix_append (data.serialize order) rest)
      rw [UInt32.toNat_ofNat_of_lt' fits, UInt32.toNat_ofNat'] at lengths
      simp [Cursor.advance, serialize_length, lengths]

/-- A message is given back, and exactly what follows it left, if and only if
the cast of its length loses nothing. -/
theorem deserialize_serialize_iff (order : ByteOrder) (data : Data) (rest : List UInt8) :
    (∃ next, perform (Data.deserialize order) { bytes := data.serialize order ++ rest, position := 0 } = (.ok data, next) ∧
      next.remaining = rest) ↔ data.fits := by
  constructor
  · intro given
    obtain ⟨next, outcome, _⟩ := given
    exact (deserialize_ok.mp outcome).1
  · intro fits
    refine ⟨_, deserialize_ok.mpr ⟨fits, List.prefix_append _ _, rfl⟩, ?_⟩
    simp [Cursor.remaining, Cursor.advance]

theorem as_bytes_replicate (count : Nat) : (as_bytes (String.ofList (List.replicate count 'a'))).length = count := by
  rw [as_bytes_ofList]
  induction count with
  | zero => rfl
  | succ count ih =>
    rw [List.replicate_succ, List.flatMap_cons, List.length_append, ih]
    exact Nat.add_comm 1 count

/-- A field3 of 4 GiB. -/
theorem not_deserialize_serialize :
    ¬ ∀ (order : ByteOrder) (data : Data) (rest : List UInt8), ∃ next,
      perform (Data.deserialize order) { bytes := data.serialize order ++ rest, position := 0 } = (.ok data, next) ∧
        next.remaining = rest := by
  intro always
  obtain ⟨next, outcome, _⟩ := always .little ⟨0, 0, String.ofList (List.replicate (2 ^ 32) 'a')⟩ []
  have fits := (deserialize_ok.mp outcome).1
  unfold Data.fits at fits
  rw [as_bytes_replicate] at fits
  exact absurd fits (Nat.lt_irrefl _)

end RustAsyncAwait.DataLayer
